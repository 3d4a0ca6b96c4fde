import ImportBlock.Command.Flags

/-!
# Help and completion

What the program says about itself: the help text, and the answers to requests of a shell that
completes a command line.
-/

/-!
## Help
-/

namespace ImportBlock.Command

def programName : Text := "sig"

/-- The flags of the program besides help, in the order of their names. -/
def ownFlags : List Flag :=
  [Key.collapse.toFlag,
    ⟨"color", .switch none, "Colorize the diff output"⟩,
    ⟨"config", .text,
      "Path to a YAML config file (default .sig.yaml in the current or home directory)"⟩,
    ⟨"diff", .switch (some 100), "Print a diff instead of the rewritten source"⟩,
    Key.extensions.toFlag,
    Key.frameworks.toFlag,
    ⟨"in-place", .switch none, "Modify the file in place instead of printing to stdout"⟩,
    Key.interfaceSuffix.toFlag,
    ⟨"list", .switch (some 108), "List the file if its imports are not sorted"⟩,
    Key.logFormat.toFlag,
    Key.logLevel.toFlag,
    ⟨"print-config", .switch none, "Print the effective configuration as YAML and exit"⟩,
    ⟨"verbose", .switch none, "Enable debug logging"⟩,
    ⟨"version", .switch (some 118), "Show version information"⟩]

/-- The flag that asks for help. -/
def helpFlag : Flag := ⟨"help", .switch (some 104), "help for " ++ programName⟩

/-- The flags of the program in the order of their names. -/
def flags : List Flag :=
  let isBefore (f : Flag) : Bool := f.name.le helpFlag.name
  ownFlags.takeWhile isBefore ++ helpFlag :: ownFlags.dropWhile isBefore

/-! ### The help text -/

/-- What the program does. -/
def description : List String :=
  ["sig is a command-line tool that groups and sorts the import block of a Swift file.",
    "",
    "It organizes imports into groups:",
    "1. System frameworks (configurable, UIKit, Foundation, ... by default)",
    "2. Other modules",
    "3. Interface modules (names ending with the interface suffix)",
    "",
    "Each group is sorted alphabetically and separated by a blank line.",
    "",
    "PATH is a single source file, or \"-\" to read from standard input and write",
    "to standard output, which lets editors use sig as a filter."]

/-- The word for what a flag takes. -/
def placeholder : FlagKind → Text
  | .switch _ => []
  | .text => " string"
  | .list => " strings"

/-- The left column of a flag's line: its letter, its name and what it takes. -/
def flagColumn (f : Flag) : Text :=
  let names : Text := if f.letter.isSome then "  " ++ f.label else "      " ++ f.label
  names ++ placeholder f.kind

/-- The value that a flag has if it is not given, where there is one to show. -/
def standardShown : Value → Text
  | .list items => 91 :: Text.join [44] (items.filterMap Value.toText?) ++ [93]
  | .text t => t.quote
  | _ => []

/-- The right column of a flag's line: what it is for, and its value if it is not given. -/
def flagPurpose (f : Flag) : Text :=
  let shown := ((Key.all.find? fun k => k.flag == f.name).map fun k => standardShown k.standard)
  match shown with
  | some (b :: rest) => f.purpose ++ Text.ofString " (default " ++ b :: rest ++ [41]
  | _ => f.purpose

def columnWidth : Nat := (flags.map fun f => (flagColumn f).length).foldl max 0

def flagLine (f : Flag) : Text :=
  let column := flagColumn f
  column ++ List.replicate (columnWidth - column.length + 3) 32 ++ flagPurpose f

def help : Text :=
  let lines : List Text :=
    description.map Text.ofString
      ++ [[], "Usage:", "  sig [flags] PATH", [], "Flags:"] ++ flags.map flagLine
  lines.flatMap fun line => line ++ [10]

end ImportBlock.Command

/-!
## Completion of command lines

A shell asks the program how a word of a command line may go on, by a command line that starts with
the word `__complete`. The last word is the one to complete. Only names of flags are completed; for
anything else the shell offers names of files.
-/

namespace ImportBlock.Command.Completion

/-! ### Requests -/

/-- What a request asks for. -/
inductive Request
  /-- Names with what they are for. -/
  | described
  /-- Names alone. -/
  | bare
  deriving DecidableEq, Repr

def Request.ofWord? (word : Text) : Option Request :=
  if word == Text.ofString "__complete" then some .described
  else if word == Text.ofString "__completeNoDesc" then some .bare
  else none

/-- Does the word after this one belong to it? So it is after a flag without a value, unless it is a
switch. Help is not known here. -/
def takesNext (word : Text) : Bool :=
  !word.contains 61 &&
    if word.startsWith [45, 45] then
      !(ownFlags.any fun f => f.isSwitch && f.name == word.drop 2)
    else
      word.startsWith [45] && word.length == 2
        && !(ownFlags.any fun f => f.letter == (word.drop 1).head?)

/-- The first word that is neither a flag nor the value of one. -/
def firstArgument? : List Text → Option Text
  | [] => none
  | word :: rest =>
    if word == [45, 45] then none
    else if takesNext word then
      match rest with
      | _ :: next :: more => firstArgument? (next :: more)
      | _ => none
    else if word.isEmpty || word.startsWith [45] then firstArgument? rest
    else some word

/-- The words without the first argument. -/
def withoutFirst (argument : Text) : List Text → List Text
  | [] => []
  | word :: rest =>
    if word == [45, 45] then word :: rest
    else if takesNext word then
      match rest with
      | value :: more => word :: value :: withoutFirst argument more
      | [] => [word]
    else if word == argument then rest
    else word :: withoutFirst argument rest

/-- The request of a command line, and the command line to complete. -/
def request? (words : List Text) : Option (Request × List Text) :=
  match firstArgument? words with
  | none => none
  | some word => (Request.ofWord? word).map fun r => (r, withoutFirst word words)

/-! ### The flag of the last word -/

/-- Which flag the last word gives a value to. -/
structure Target where
  /-- The flag, if there is one that takes a value. -/
  flag : Option Flag
  /-- The words before, without that flag. -/
  words : List Text
  /-- The name of a flag that there is not. -/
  unknown : Option Text
  deriving DecidableEq, Repr

def flagOf? (name : Text) : Option Flag :=
  match name with
  | [letter] => flags.find? fun f => f.letter == some letter
  | _ => flags.find? fun f => f.name == name

/-- Has the word the form of a flag? -/
def isFlagWord (word : Text) : Bool :=
  match word with
  | 45 :: 45 :: _ :: _ => true
  | 45 :: b :: _ => b != 45
  | _ => false

/-- The name in a word with an equals sign, or the last letter before it. -/
def nameBefore (word : Text) : Text :=
  let front := (Text.cutAt 61 word).1
  if front.startsWith [45, 45] then front.drop 2 else front.drop (front.length - 1)

/-- The name of the flag that is the last of the words, if it has no value. -/
def openName? (words : List Text) : Option Text :=
  match words.getLast? with
  | none => none
  | some word =>
    if isFlagWord word && !word.contains 61 then
      some (if word.startsWith [45, 45] then word.drop 2 else word.drop (word.length - 1))
    else none

/-- The target of the last word after the others. -/
def targetOf (words : List Text) (last : Text) : Target :=
  if last.startsWith [45] && !last.contains 61 then ⟨none, words, none⟩
  else
    let own := if last.startsWith [45] then nameBefore last else []
    if !own.isEmpty then
      match flagOf? own with
      | some f => ⟨some f, words, none⟩
      | none => ⟨none, words, some own⟩
    else
      match openName? words with
      | none => ⟨none, words, none⟩
      | some name =>
        match flagOf? name with
        | none => ⟨none, words, some name⟩
        | some f =>
          if f.isSwitch then ⟨none, words, none⟩ else ⟨some f, words.dropLast, none⟩

/-! ### Answers -/

/-- What the shell does besides offering the answer. -/
inductive Directive
  | files
  | noFiles
  deriving DecidableEq, Repr

def Directive.number : Directive → Nat
  | files => 0
  | noFiles => 4

def Directive.name : Directive → Text
  | files => "ShellCompDirectiveDefault"
  | noFiles => "ShellCompDirectiveNoFileComp"

/-- Why a command line cannot be completed. -/
inductive Problem
  | flags (words : List Text) (cause : FlagError)
  | unknownFlag (name : Text)
  deriving DecidableEq, Repr

def Problem.message : Problem → Text
  | flags words cause =>
    Text.ofString "Error while parsing flags from args [" ++ Text.join [32] words
      ++ Text.ofString "]: " ++ cause.message
  | unknownFlag name =>
    Text.ofString "Subcommand '" ++ programName ++ Text.ofString "' does not support flag '"
      ++ name ++ [39]

/-- The words that the last one may become, each with the flag that it names. -/
structure Answer where
  choices : List (Text × Flag)
  directive : Directive
  problem : Option Problem
  deriving DecidableEq, Repr

/-- The spellings of a flag that start with a text. -/
def spellings (start : Text) (f : Flag) : List (Text × Flag) :=
  let long : Text := 45 :: 45 :: f.name
  let short : List Text := f.letter.toList.map fun l => [45, l]
  ((long :: short).filter fun word => word.startsWith start).map fun word => (word, f)

/-- May the flag be given once more? -/
def isRepeatable (f : Flag) : Bool := f.kind == .list

/-- The answer for the last word after the others, whose flags and arguments are `c`. -/
def choose (c : CommandLine) (inFlags : Bool) (target : Target) (last : Text) : Answer :=
  if (c.flags.lookup helpFlag.name).isSome then ⟨[], .noFiles, none⟩
  else if inFlags && target.flag.isNone && last.startsWith [45] && !last.contains 61 then
    let usable := flags.filter fun f => isRepeatable f || (c.flags.lookup f.name).isNone
    ⟨usable.flatMap (spellings last), .noFiles, none⟩
  else ⟨[], .files, none⟩

/-- Complete the last word after the others. After two dashes no word is a flag. -/
def answer (words : List Text) (last : Text) : Answer :=
  let target := targetOf words last
  match CommandLine.read flags target.words with
  | .error e => ⟨[], .files, some (.flags target.words e)⟩
  | .ok c =>
    let inFlags : Bool :=
      match CommandLine.read flags (target.words ++ [[45, 45]]) with
      | .ok more => more.arguments.length ≤ c.arguments.length
      | .error _ => true
    match target.unknown, inFlags with
    | some name, true => ⟨[], .files, some (.unknownFlag name)⟩
    | _, _ => choose c inFlags target last

def Answer.lines (r : Request) (a : Answer) : Text :=
  (a.choices.flatMap fun choice =>
    match r with
    | .described => choice.1 ++ 9 :: choice.2.purpose ++ [10]
    | .bare => choice.1 ++ [10])
    ++ 58 :: Text.ofNat a.directive.number ++ [10]

/-- What is said about an answer. -/
def Answer.remark (a : Answer) : Text :=
  Text.ofString "Completion ended with directive: " ++ a.directive.name ++ [10]

/-- What is said about the problem of an answer. -/
def Answer.trace (a : Answer) : Text :=
  match a.problem with
  | some p => Text.ofString "[Debug] [Error] " ++ p.message ++ [10]
  | none => []

end ImportBlock.Command.Completion
