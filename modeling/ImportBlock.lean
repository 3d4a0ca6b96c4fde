import ImportBlock.Main
import ImportBlock.Proofs.Reformatting
import ImportBlock.Proofs.Resorting
import ImportBlock.Proofs.Splicing
import ImportBlock.Proofs.RoundTrip
import ImportBlock.Proofs.Replacing
import ImportBlock.Proofs.Rereading
import ImportBlock.Proofs.ChangedFlag
import ImportBlock.Proofs.SpliceBounds
import ImportBlock.Proofs.Clamping
import ImportBlock.Proofs.LineDiffs
import ImportBlock.Proofs.Elision
import ImportBlock.Proofs.VisibleChanges
import ImportBlock.Proofs.Processing
import ImportBlock.Proofs.OutputModes
import ImportBlock.Proofs.FlagUses
import ImportBlock.Proofs.Precedence
import ImportBlock.Proofs.FrameworkNames
import ImportBlock.Proofs.NameSets
import ImportBlock.Proofs.Reloading
import ImportBlock.Proofs.Placement
import ImportBlock.Proofs.Separators
import ImportBlock.Proofs.Scanning
import ImportBlock.Proofs.Usability
import ImportBlock.Proofs.SourceNames
import ImportBlock.Proofs.Spacing
