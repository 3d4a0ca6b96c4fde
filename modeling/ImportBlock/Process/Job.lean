import ImportBlock.Diff
import ImportBlock.Files
import ImportBlock.Source.Buffer

/-!
# Processing one file

A job names a path and says what to do with the formatted text: print it, write it back, name the
file, or show a diff. A job either succeeds or fails with the first error it meets; a file is
written only as the last step, so that a failed job leaves every file as it was.
-/

namespace ImportBlock

/-- Why a job failed. -/
inductive JobError
  | unsupportedFile (path : Text)
  | checkPath (cause : FileError)
  | pathIsDirectory (path : Text)
  | fileUnreadable (cause : FileError)
  | inputUnreadable (cause : FileError)
  | fileUnwritable (cause : FileError)
  | outputUnwritable (cause : FileError)
  | diffUnwritable (cause : FileError)
  deriving DecidableEq, Repr

def JobError.message : JobError → Text
  | unsupportedFile path => "unsupported file extension: " ++ path
  | checkPath cause => "failed to check path: " ++ cause.message
  | pathIsDirectory path =>
    "path is a directory, only a single source file is supported: " ++ path
  | fileUnreadable cause => "failed to read file: " ++ cause.message
  | inputUnreadable cause => "failed to read standard input: " ++ cause.message
  | fileUnwritable cause => "failed to write file: " ++ cause.message
  | outputUnwritable cause => "failed to write output: " ++ cause.message
  | diffUnwritable cause => "failed to write output: failed to write diff: " ++ cause.message

/-- What to do with which file. -/
structure Job where
  path : Text
  extensions : List Text
  rules : Rules
  inPlace : Bool
  list : Bool
  diff : Bool
  color : Bool
  deriving DecidableEq, Repr

/-- What a job leaves behind. -/
structure Outcome where
  error : Option JobError
  out : Text
  records : List LogRecord
  host : Host
  deriving DecidableEq, Repr

namespace Job

def inputName : Text := "<standard input>"

/-- What is printed about a formatted text. The path of a file is listed, or its diff shown, only
if the text changed; a file that is to be written back is not printed. -/
def report (j : Job) (h : Host) (name src : Text) (f : Formatted) : Except JobError Text :=
  if j.list then
    if f.changed then (h.print (name ++ [10])).mapError .outputUnwritable else .ok []
  else if j.diff then
    if f.changed then (h.print (Diff.report j.color name src f.out)).mapError .diffUnwritable
    else .ok []
  else if j.inPlace && !Path.isStandardInput j.path then .ok []
  else (h.print f.out).mapError .outputUnwritable

/-- Write a formatted text back, if that is asked for and the text changed. -/
def writeBack (j : Job) (h : Host) (f : Formatted) (out : Text) (records : List LogRecord) :
    Outcome :=
  if !j.inPlace then ⟨none, out, records, h⟩
  else if !f.changed then
    ⟨none, out, records ++ [Rules.record .debug "imports already sorted" j.path []], h⟩
  else
    match h.write j.path f.out with
    | .error e => ⟨some (.fileUnwritable e), out, records, h⟩
    | .ok h =>
      ⟨none, out,
        records ++ [Rules.record .info "wrote file" j.path [Rules.count "bytes" f.out.length]], h⟩

/-- Process the file at the job's path. -/
def runFile (j : Job) (h : Host) : Outcome :=
  if !Path.isSource j.path j.extensions then ⟨some (.unsupportedFile j.path), [], [], h⟩
  else
    match h.stat j.path with
    | (.error e, h) => ⟨some (.fileUnreadable e), [], [], h⟩
    | (.ok _, h) =>
      match h.read j.path with
      | .error e => ⟨some (.fileUnreadable e), [], [], h⟩
      | .ok src =>
        let f := j.rules.format src
        let records := j.rules.formatRecords j.path src
        match j.report h j.path src f with
        | .error e => ⟨some e, [], records, h⟩
        | .ok out => j.writeBack h f out records

def runInput (j : Job) (h : Host) : Outcome :=
  match h.readInput with
  | .error e => ⟨some (.inputUnreadable e), [], [], h⟩
  | .ok src =>
    let records := j.rules.formatRecords j.path src
    match j.report h inputName src (j.rules.format src) with
    | .error e => ⟨some e, [], records, h⟩
    | .ok out => ⟨none, out, records, h⟩

/-- Process the file at the job's path, or standard input. Directories are refused. -/
def run (j : Job) (h : Host) : Outcome :=
  if Path.isStandardInput j.path then j.runInput h
  else
    match h.stat j.path with
    | (.error e, h) => ⟨some (.checkPath e), [], [], h⟩
    | (.ok e, h) =>
      if e.isDirectory then ⟨some (.pathIsDirectory j.path), [], [], h⟩ else j.runFile h

end Job

end ImportBlock
