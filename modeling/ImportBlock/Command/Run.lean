import ImportBlock.Command.Help
import ImportBlock.Config.Load
import ImportBlock.Process.Job
import ImportBlock.Text.Basic

/-!
# A run of the program

A run reads the words of its command line, loads the settings and does the job they ask for. It
may also print its settings or the version of the program instead.
-/

/-!
## Version information
-/

namespace ImportBlock

/-- What is known about a build of the program. -/
structure BuildInfo where
  version : Text
  commit : Text
  tag : Text
  date : Text
  toolchain : Text
  compiler : Text
  platform : Text
  deriving DecidableEq, Repr

namespace BuildInfo

/-- A build of which nothing is known but how it was made. -/
def development (toolchain compiler platform : Text) : BuildInfo :=
  ⟨"dev", "unknown", "unknown", "unknown", toolchain, compiler, platform⟩

/-- Take over a released version. Development builds have none. -/
def setVersion (i : BuildInfo) (version : Text) : BuildInfo :=
  if version.isEmpty || version == Text.ofString "(devel)" then i else { i with version }

def short (i : BuildInfo) : Text := "sig " ++ i.version

def hasTag (i : BuildInfo) : Bool := !i.tag.isEmpty && i.tag != Text.ofString "unknown"

/-- The banner of several lines, without a final line break. -/
def banner (i : BuildInfo) : Text :=
  i.short ++ " (Swift imports grouper)\n"
    ++ "  commit: " ++ i.commit ++ "\n"
    ++ (if i.hasTag then "  tag:    " ++ i.tag ++ "\n" else [])
    ++ "  built:  " ++ i.date ++ "\n"
    ++ "  go:     " ++ Text.join [32] [i.toolchain, i.compiler, i.platform]

end BuildInfo

/-!
## Running the program

A command line is read, the settings are loaded, and one job is done. Help, version and the printed
settings need no path.
-/

/-- Why a run failed. -/
inductive CommandError
  | flags (cause : FlagError)
  | argumentCount (n : Nat)
  | nothingToComplete
  | settings (cause : LoadError)
  | logging (cause : LogError)
  | output (cause : FileError)
  | job (cause : JobError)
  deriving DecidableEq, Repr

def CommandError.message : CommandError → Text
  | flags cause => cause.message
  | argumentCount n => "accepts 1 arg(s), received " ++ Text.ofNat n
  | nothingToComplete => "requires at least 1 arg(s), only received 0"
  | settings cause => "failed to load configuration: " ++ cause.message
  | logging cause => "failed to load configuration: " ++ cause.message
  | output cause => cause.message
  | job cause => cause.message

/-- What a run leaves behind: what it wrote to standard output and to the log, and the volume. -/
structure RunResult where
  error : Option CommandError
  out : Text
  log : Text
  host : Host
  /-- What went straight to the standard error of the process, before anything else. -/
  trace : Text
  deriving DecidableEq, Repr

/-- What a run writes to standard error: the log, and then the reason of a failure. -/
def RunResult.err (r : RunResult) : Text :=
  match r.error with
  | some e => r.log ++ Text.ofString "Error: " ++ e.message ++ [10]
  | none => r.log

namespace Command

/-- A run that ends without a job. -/
def finish (h : Host) : Except FileError Text → RunResult
  | .ok out => ⟨none, out, [], h, []⟩
  | .error e => ⟨some (.output e), [], [], h, []⟩

/-- A run that fails before there is any output. -/
def fail (h : Host) (e : CommandError) : RunResult := ⟨some e, [], [], h, []⟩

def jobOf (c : CommandLine) (s : Settings) (path : Text) : Job where
  path := path
  extensions := s.extensions
  rules := s.rules
  inPlace := c.isOn "in-place"
  list := c.isOn "list"
  diff := c.isOn "diff"
  color := c.isOn "color"

def loggerOf (c : CommandLine) (s : Settings) : Except LogError Logger :=
  Logger.make (if c.isOn "verbose" then "debug" else s.logLevel) s.logFormat

/-- Do the job of a command line with loaded settings. -/
def work (c : CommandLine) (s : Settings) (path : Text) (h : Host) : RunResult :=
  match loggerOf c s with
  | .error e => fail h (.logging e)
  | .ok g =>
    let o := (jobOf c s path).run h
    ⟨o.error.map .job, o.out, Logger.write (some g) o.records, o.host, []⟩

/-- Run with the settings loaded: print them, or do the job. -/
def configured (c : CommandLine) (env : Environment) (h : Host) : RunResult :=
  match Settings.load (c.textOf "config") c.settings (CommandLine.declared flags) env h with
  | (.error e, h) => fail h (.settings e)
  | (.ok s, h) =>
    if c.isOn "print-config" then finish h (h.print s.toYaml)
    else work c s (c.arguments.headD []) h

/-- Run a command line. Help goes before everything else, and a version before the settings. -/
def runLine (build : BuildInfo) (c : CommandLine) (env : Environment) (h : Host) : RunResult :=
  if c.isOn "help" then ⟨none, (h.print help).toOption.getD [], [], h, []⟩
  else if !c.isOn "version" && !c.isOn "print-config" && c.arguments.length != 1 then
    fail h (.argumentCount c.arguments.length)
  else if c.isOn "version" then finish h (h.print (build.banner ++ [10]))
  else configured c env h

/-- Answer a request for completions. -/
def complete (request : Completion.Request) (words : List Text) (h : Host) : RunResult :=
  match words.getLast? with
  | none => fail h .nothingToComplete
  | some last =>
    let a := Completion.answer words.dropLast last
    ⟨none, (h.print (a.lines request)).toOption.getD [], a.remark, h, a.trace⟩

/-- Run the program with the words of its command line. -/
def run (build : BuildInfo) (words : List Text) (env : Environment) (h : Host) : RunResult :=
  match Completion.request? words with
  | some (request, line) => complete request line h
  | none =>
    match CommandLine.read flags words with
    | .error e => fail h (.flags e)
    | .ok c => runLine build c env h

/-- Run the program from a build that is released under a version, or under none. -/
def execute (release : Text) (build : BuildInfo) (words : List Text) (env : Environment)
    (h : Host) : RunResult :=
  run (build.setVersion release) words env h

/-- The paths that a run may look at. -/
def paths (words : List Text) (kind : VolumeKind) (env : Environment) : List Text :=
  match CommandLine.read flags words with
  | .error _ => []
  | .ok c =>
    (c.textOf "config" :: c.arguments ++ ConfigFile.candidates kind env).filter
      fun path => !path.isEmpty && !Path.isStandardInput path

end Command

end ImportBlock
