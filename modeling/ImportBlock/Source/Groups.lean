import ImportBlock.Source.Block
import ImportBlock.Text.Basic
import ImportBlock.Text.Characters

/-!
# Grouping imports

The rules put every import of a block into one of three groups. The regenerated block has the groups
in a fixed order, with the lines of each in ascending order.
-/

/-!
## Framework names

A set of name fragments. An import whose target contains one of them is an import of a system
framework.
-/

namespace ImportBlock

/-- The names of system frameworks, in the order they were given. -/
structure Frameworks where
  names : List Text
  deriving DecidableEq, Repr

namespace Frameworks

/-- The first occurrence of each text. -/
def distinct : List Text → List Text
  | [] => []
  | t :: ts => t :: (distinct ts).filter fun u => u != t

/-- The set of the given names: blanks around a name do not count, blank names are dropped. -/
def ofNames (names : List Text) : Frameworks :=
  ⟨distinct ((names.map Text.trim).filter fun t => !t.isEmpty)⟩

/-- The names in use when nothing else is configured. -/
def defaultNames : List Text :=
  ["UIKit", "Foundation", "CoreGraphic", "MetalKit", "AVKit", "ARKit"]

/-- The first name that occurs in an import target. -/
def find? (s : Frameworks) (target : Text) : Option Text :=
  s.names.find? fun name => target.hasPart name

end Frameworks

/-!
## Groups of imports

The imports of a block fall into three groups: system frameworks, interface modules, which are
known by the end of their name, and all other modules. Each group is sorted, and blank lines
separate the groups in the regenerated block.
-/

/-- The group an import belongs to. -/
inductive Bucket
  | framework
  | normal
  | interface
  deriving DecidableEq, Repr

namespace Bucket

def name : Bucket → Text
  | framework => "framework"
  | normal => "normal"
  | interface => "interface"

def ofNumber? (n : Int) : Option Bucket :=
  if n = 0 then some framework else if n = 1 then some normal
  else if n = 2 then some interface else none

/-- The name of the group with a given number, `unknown` for every other number. -/
def nameOfNumber (n : Int) : Text :=
  match ofNumber? n with
  | some b => b.name
  | none => "unknown"

end Bucket

/-- The import lines of each group. -/
structure Groups where
  framework : List Text
  normal : List Text
  interface : List Text
  deriving DecidableEq, Repr

namespace Groups

def count (g : Groups) : Nat := g.framework.length + g.normal.length + g.interface.length

/-- Is there a separator after the framework group? -/
def splitsFramework (g : Groups) (collapse : Bool) : Bool :=
  !g.framework.isEmpty && (!g.normal.isEmpty || !g.interface.isEmpty)
    && (!collapse || !g.normal.isEmpty)

/-- The framework and the normal group with the separator between them. -/
def head (g : Groups) (collapse : Bool) : List Text :=
  g.framework ++ (if g.splitsFramework collapse then [[]] else []) ++ g.normal

/-- The lines of the regenerated block. Unless blank lines are collapsed, an empty line stands
before the interface group whenever that group has a line. -/
def lines (g : Groups) (collapse : Bool) : List Text :=
  g.head collapse
    ++ (if !g.interface.isEmpty && (!collapse || !(g.head collapse).isEmpty) then [[]] else [])
    ++ g.interface

end Groups

/-- How imports are grouped. -/
structure Rules where
  frameworks : Frameworks
  interfaceSuffix : Text
  collapse : Bool
  deriving DecidableEq, Repr

namespace Rules

/-- The suffix of interface modules when nothing else is configured. -/
def defaultSuffix : Text := "Interfaces"

/-- Rules from optional settings: no framework names mean the default ones, and so does an empty
suffix. -/
def ofSettings (frameworks : Option (List Text)) (suffix : Text) (collapse : Bool) : Rules where
  frameworks := .ofNames (frameworks.getD Frameworks.defaultNames)
  interfaceSuffix := if suffix.isEmpty then defaultSuffix else suffix
  collapse := collapse

def standard : Rules := ofSettings none [] false

/-- The group of an import line in normal form. A framework name anywhere in the target decides
before the suffix does. -/
def classify (r : Rules) (line : Text) : Bucket :=
  if (r.frameworks.find? (line.dropStart Line.importWord)).isSome then .framework
  else if line.endsWith r.interfaceSuffix then .interface
  else .normal

/-- The lines of one group in ascending order. -/
def bucket (r : Rules) (b : Bucket) (lines : List Text) : List Text :=
  Text.sort (lines.filter fun l => r.classify l == b)

/-- The sorted groups of import lines. -/
def group (r : Rules) (lines : List Text) : Groups :=
  ⟨r.bucket .framework lines, r.bucket .normal lines, r.bucket .interface lines⟩

end Rules

/-!
## Regrouping a list of lines

`Rules.plan` says which lines are replaced by which, `Rules.sort` carries the plan out.
-/

/-- The replacement of a stretch of lines. -/
structure Edit where
  range : LineRange
  lines : List Text
  deriving DecidableEq, Repr

namespace Edit

/-- The lines after the replacement. -/
def apply (e : Edit) (lines : List Text) : List Text :=
  lines.take e.range.start ++ e.lines ++ lines.drop e.range.stop

end Edit

namespace Rules

/-- The replacement that groups and sorts the import block, if the lines have one. -/
def plan (r : Rules) (lines : List Text) : Option Edit :=
  (Block.locate lines).map fun range =>
    ⟨range, (r.group (Block.extract lines range)).lines r.collapse⟩

/-- The lines with their import block grouped and sorted. -/
def sort (r : Rules) (lines : List Text) : List Text :=
  match r.plan lines with
  | some edit => edit.apply lines
  | none => lines

/-- Group and sort the import block of the lines in the state, if they have one. -/
def sortInPlace (r : Rules) : StateM (List Text) Unit := do
  if let some edit := r.plan (← get) then modify edit.apply

/-- Sort the lines in the state `n` times. -/
def sortInPlaceTimes (r : Rules) : Nat → StateM (List Text) Unit
  | 0 => pure ()
  | n + 1 => do
    r.sortInPlace
    sortInPlaceTimes r n

end Rules

end ImportBlock
