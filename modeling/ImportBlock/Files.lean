import ImportBlock.Text.Characters

/-!
# Files and their surroundings

Paths name the files of a volume. A host is a volume with the standard input of a run, and
says which accesses fail.
-/

/-!
## Paths

Names of files: their lexical normal form, their extension, and which of them name source files.
-/

namespace ImportBlock.Path

def standardInput : Text := "-"

def isStandardInput (path : Text) : Bool := path == standardInput

/-- One component of a path added to the components in front of it, the last one first. `..`
takes back a component; at the root it does nothing, and elsewhere it stays. -/
def push (rooted : Bool) (stack : List Text) (component : Text) : List Text :=
  if component.isEmpty || component == [46] then stack
  else if component == [46, 46] then
    match stack with
    | top :: rest => if top == [46, 46] then component :: stack else rest
    | [] => if rooted then [] else [component]
  else component :: stack

def isRooted (path : Text) : Bool := path.startsWith [47]

/-- The components of a path without `.`, empty ones and those that `..` takes back. -/
def components (path : Text) : List Text :=
  ((path.splitAt 47).foldl (push (isRooted path)) []).reverse

/-- The shortest path with the same meaning, by its text alone. -/
def clean (path : Text) : Text :=
  let joined := Text.join [47] (components path)
  if isRooted path then 47 :: joined else if joined.isEmpty then [46] else joined

/-- A name inside a directory. -/
def inside (directory name : Text) : Text := clean (directory ++ 47 :: name)

/-- The last component from its last dot on; empty if it has no dot. -/
def extension (path : Text) : Text :=
  let last := path.reverse.takeWhile fun b => b != 47
  if last.contains 46 then 46 :: (last.takeWhile fun b => b != 46).reverse else []

/-- An extension as it is compared: without blanks around it and with a dot in front, unless it is
empty. -/
def normalizeExtension (e : Text) : Text :=
  let e := e.trim
  if e.isEmpty || e.startsWith [46] then e else 46 :: e

/-- Does the path end in one of the extensions, up to case? -/
def isSource (path : Text) (extensions : List Text) : Bool :=
  !(extension path).isEmpty
    && extensions.any fun e => (extension path).equalFold (normalizeExtension e)

end ImportBlock.Path

/-!
## Volumes

A volume holds files and directories. On a memory volume a name is looked up by its lexical normal
form, and a directory reads as an empty file. On a disk volume a path is followed component by
component, from the working directory or from the root.
-/

namespace ImportBlock

/-- What stands under a name. -/
inductive Entry
  | file (content : Text) (mode : Nat)
  | directory (mode : Nat)
  deriving DecidableEq, Repr

namespace Entry

def isDirectory : Entry → Bool
  | file _ _ => false
  | directory _ => true

def mode : Entry → Nat
  | file _ m => m
  | directory m => m

/-- What reading yields. -/
def content : Entry → Text
  | file c _ => c
  | directory _ => []

/-- Other content with the same permission bits. A directory has no content to change. -/
def withContent (c : Text) : Entry → Entry
  | file _ m => file c m
  | directory m => directory m

end Entry

/-- Why an access to a file failed. -/
inductive FileError
  /-- A memory volume has nothing under the name. -/
  | absent (name : Text)
  /-- A disk volume has nothing there. -/
  | notFound (action path : Text)
  /-- A path goes on after a file. -/
  | notDirectory (action path : Text)
  /-- A path or one of its components has too many bytes. -/
  | nameTooLong (action path : Text)
  /-- A path holds a zero byte. -/
  | invalidName (action path : Text)
  /-- A directory cannot be read as a file. -/
  | isDirectory (path : Text)
  /-- The access was made to fail. -/
  | injected
  deriving DecidableEq, Repr

def FileError.message : FileError → Text
  | absent name => "open " ++ name ++ ": file does not exist"
  | notFound action path => action ++ " " ++ path ++ ": no such file or directory"
  | notDirectory action path => action ++ " " ++ path ++ ": not a directory"
  | nameTooLong action path => action ++ " " ++ path ++ ": file name too long"
  | invalidName action path => action ++ " " ++ path ++ ": invalid argument"
  | isDirectory path => "read " ++ path ++ ": is a directory"
  | injected => "injected failure"

/-- How names are looked up. -/
inductive VolumeKind
  | memory
  | disk
  deriving DecidableEq, Repr

/-- Files and directories under distinct names. -/
structure Volume where
  kind : VolumeKind
  entries : List (Text × Entry)
  deriving DecidableEq, Repr

namespace Volume

/-- The name under which a memory volume looks up a path. -/
def memoryName (path : Text) : Text :=
  let c := Path.clean path
  if c == [46] || c == [46, 46] then [47] else c

def find? (v : Volume) (name : Text) : Option Entry :=
  (v.entries.find? fun e => e.1 == name).map Prod.snd

/-- The path of a directory or file on a disk volume. -/
def diskName (rooted : Bool) (components : List Text) : Text :=
  if rooted then 47 :: Text.join [47] components else Text.join [47] components

/-- The greatest number of bytes of one component on a disk volume. -/
def componentLimit : Nat := 255

/-- The greatest number of bytes of a path on a disk volume. -/
def pathLimit : Nat := 4095

/-- Follow the components of a path. `above` counts the directories between the working directory
and one it lies in, `stack` holds the components of the present directory, the last one first. -/
def follow (v : Volume) (action path : Text) :
    Nat → List Text → Entry → List Text → Except FileError (Text × Entry)
  | _, stack, here, [] => .ok (diskName (Path.isRooted path) stack.reverse, here)
  | above, stack, here, c :: cs =>
    if !here.isDirectory then .error (.notDirectory action path)
    else if c.isEmpty || c == [46] then follow v action path above stack here cs
    else if c == [46, 46] then
      match stack with
      | [] => follow v action path (if Path.isRooted path then 0 else above + 1) [] here cs
      | _ :: rest => follow v action path above rest (.directory 0o755) cs
    else if componentLimit < c.length then .error (.nameTooLong action path)
    else
      let name := diskName (Path.isRooted path) (c :: stack).reverse
      match if above = 0 then v.find? name else none with
      | some e => follow v action path above (c :: stack) e cs
      | none => .error (.notFound action path)

/-- The name and the entry that a path leads to. `action` says what is attempted. -/
def locate (v : Volume) (action path : Text) : Except FileError (Text × Entry) :=
  match v.kind with
  | .memory =>
    let name := memoryName path
    match v.find? name with
    | some e => .ok (name, e)
    | none => if name == [47] then .ok (name, .directory 0o755) else .error (.absent name)
  | .disk =>
    if path.contains 0 then .error (.invalidName action path)
    else if path.isEmpty then .error (.notFound action path)
    else if pathLimit < path.length then .error (.nameTooLong action path)
    else v.follow action path 0 [] (.directory 0o755) (path.splitAt 47)

/-- What is known about the file or directory at a path. -/
def stat (v : Volume) (path : Text) : Except FileError Entry :=
  (v.locate "stat" path).map Prod.snd

/-- The content of the file at a path. -/
def read (v : Volume) (path : Text) : Except FileError Text := do
  let (_, e) ← v.locate "open" path
  if v.kind = .disk ∧ e.isDirectory then .error (.isDirectory path) else .ok e.content

/-- Change the content of the file at a path. Its permission bits stay. -/
def write (v : Volume) (path content : Text) : Except FileError Volume := do
  let (name, _) ← v.locate "open" path
  return { v with
    entries := v.entries.map fun e => if e.1 == name then (e.1, e.2.withContent content) else e }

/-- Put an entry under a name that has none. -/
def insertNew (v : Volume) (name : Text) (e : Entry) : Volume :=
  if (v.find? name).isSome then v else { v with entries := v.entries ++ [(name, e)] }

/-- The names of the directories around a name, the nearest last. -/
def parents (rooted : Bool) : List Text → List Text → List Text
  | _, [] => []
  | _, [_] => []
  | done, c :: c' :: cs =>
    let done := done ++ [c]
    (if rooted then 47 :: Text.join [47] done else Text.join [47] done)
      :: parents rooted done (c' :: cs)

/-- The name under which a path is stored. -/
def storedName (v : Volume) (path : Text) : Text :=
  match v.kind with
  | .memory => memoryName path
  | .disk => Path.clean path

/-- Put an entry at a path, with the directories around it. An entry that was there is replaced. -/
def insert (v : Volume) (path : Text) (e : Entry) : Volume :=
  let name := v.storedName path
  let v := (parents (Path.isRooted name) [] (Path.components name)).foldl
    (fun v d => v.insertNew d (.directory 0o755)) v
  { v with entries := (v.entries.filter fun p => p.1 != name) ++ [(name, e)] }

/-- A volume with the given entries. -/
def ofEntries (kind : VolumeKind) (entries : List (Text × Entry)) : Volume :=
  entries.foldl (fun v p => v.insert p.1 p.2) ⟨kind, []⟩

end Volume

/-!
## Hosts

A host is what a run of the program works on: a volume, its standard input, and a plan of which
accesses are made to fail.
-/

/-- Which accesses fail. -/
structure Faults where
  /-- The number of the look-up that fails, counted from one; zero for none. -/
  stat : Nat
  /-- Opening a file for reading fails. -/
  read : Bool
  /-- Opening a file for writing fails. -/
  write : Bool
  /-- Writing to standard output fails. -/
  output : Bool
  /-- Reading standard input fails. -/
  input : Bool
  deriving DecidableEq, Repr

def Faults.none : Faults := ⟨0, false, false, false, false⟩

/-- The surroundings of a run. -/
structure Host where
  volume : Volume
  input : Text
  faults : Faults
  /-- The number of look-ups so far. -/
  lookups : Nat
  deriving DecidableEq, Repr

namespace Host

/-- A host before any look-up. -/
def start (volume : Volume) (input : Text) (faults : Faults) : Host := ⟨volume, input, faults, 0⟩

/-- Look up a path. -/
def stat (h : Host) (path : Text) : Except FileError Entry × Host :=
  let h' := { h with lookups := h.lookups + 1 }
  (if h'.lookups = h.faults.stat then .error .injected else h.volume.stat path, h')

/-- The content of the file at a path. -/
def read (h : Host) (path : Text) : Except FileError Text :=
  if h.faults.read then .error .injected else h.volume.read path

/-- Change the content of the file at a path. -/
def write (h : Host) (path content : Text) : Except FileError Host :=
  if h.faults.write then .error .injected
  else (h.volume.write path content).map fun v => { h with volume := v }

def readInput (h : Host) : Except FileError Text :=
  if h.faults.input then .error .injected else .ok h.input

/-- Write to standard output: what arrives there. -/
def print (h : Host) (t : Text) : Except FileError Text :=
  if h.faults.output then .error .injected else .ok t

end Host

end ImportBlock
