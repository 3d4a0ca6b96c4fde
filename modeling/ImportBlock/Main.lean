import ImportBlock.Command.Run

/-!
# The program

Reads the files that a run may look at, runs the command line on them, and carries out what it did.
-/

namespace ImportBlock.Program

def toText (bytes : ByteArray) : Text := bytes.data.toList

def toBytes (t : Text) : ByteArray := ⟨t.toArray⟩

/-- What stands at a path on the disk. What cannot be read counts as absent. -/
def entryAt (path : Text) : IO (Option Entry) := do
  match String.fromUTF8? (toBytes path) with
  | none => return none
  | some name =>
    let file := (← IO.currentDir) / name
    if ← file.isDir then return some (.directory 0o755)
    else
      try return some (.file (toText (← IO.FS.readBinFile file)) 0o644)
      catch _ => return none

/-- The volume with what stands at the given paths. -/
def volumeOf (paths : List Text) : IO Volume := do
  let found ← paths.filterMapM fun path => do
    return (← entryAt path).map fun e => (path, e)
  return .ofEntries .disk found

/-- Write the files whose content differs between two volumes. -/
def store (before after : Volume) : IO Unit := do
  for (name, e) in after.entries do
    if before.find? name != some e then
      if let some file := String.fromUTF8? (toBytes name) then
        IO.FS.writeBinFile file (toBytes e.content)

/-- The environment variables of the given names. -/
def valuesOf (names : List Text) : IO Environment :=
  names.filterMapM fun name => do
    match String.fromUTF8? (toBytes name) with
    | none => return none
    | some s => return (← IO.getEnv s).map fun v => (name, Text.ofString v)

/-- The environment variables that matter: those of the settings, and those that the name of the
home directory refers to. -/
def environment : IO Environment := do
  let own ← valuesOf (Text.ofString "HOME" :: Key.loggingEnvName :: Key.all.map Key.envName)
  let home := (own.lookup (Text.ofString "HOME")).getD []
  return own ++ (← valuesOf (Environment.namesIn home))

/-- All of standard input, if a word asks for it. -/
def inputFor (words : List Text) : IO Text := do
  if words.any Path.isStandardInput then
    return toText (← (← IO.getStdin).readBinToEnd)
  else return []

end ImportBlock.Program

open ImportBlock ImportBlock.Program in
/-- Run the command line; the exit code is one if it fails. -/
def main (args : List String) : IO UInt32 := do
  let words := args.map Text.ofString
  let env ← environment
  let volume ← volumeOf (Command.paths words .disk env)
  let input ← inputFor words
  let result := Command.execute "(devel)" (.development "unknown" "unknown" "unknown") words env
    (Host.start volume input Faults.none)
  store volume result.host.volume
  (← IO.getStdout).write (toBytes result.out)
  (← IO.getStderr).write (toBytes (result.trace ++ result.err))
  return if result.error.isSome then 1 else 0
