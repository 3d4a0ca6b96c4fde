import ImportBlock.Yaml.Scalar
import ImportBlock.Yaml.Token

/-!
# Nodes of a document

A node is what a document says before any scalar is interpreted. Plain scalars are resolved, and
tags say what a scalar has to be. No mapping may have one key twice.
-/

namespace ImportBlock.Yaml

/-- What a scalar is marked to be. -/
inductive ScalarTag
  /-- Nothing is said. -/
  | none
  | text
  | null
  | bool
  | int
  | float
  | time
  /-- Bytes in base 64. -/
  | binary
  /-- A key that merges another mapping. -/
  | merge
  /-- Some other tag, which means nothing here. -/
  | other
  deriving DecidableEq, Repr

/-- What a tag says in its short form. -/
def ScalarTag.ofShort (t : Text) : ScalarTag :=
  if t == Text.ofString "!!str" then text
  else if t == Text.ofString "!!null" then null
  else if t == Text.ofString "!!bool" then bool
  else if t == Text.ofString "!!int" then int
  else if t == Text.ofString "!!float" then float
  else if t == Text.ofString "!!timestamp" then time
  else if t == Text.ofString "!!binary" then binary
  else if t == Text.ofString "!!merge" then merge
  else other

/-- The text that the standard tags start with. -/
def standardTags : Text := "tag:yaml.org,2002:"

/-- What a tag says. -/
def ScalarTag.ofTag (t : Text) : ScalarTag :=
  if t.startsWith standardTags then ofShort (33 :: 33 :: t.drop standardTags.length) else ofShort t

/-- A node of a document. -/
inductive Node
  | scalar (tag : ScalarTag) (text : Text)
  | list (items : List Node)
  | map (entries : List (Node × Node))
  /-- A reference to a node with an anchor. -/
  | reference (name : Text) (target : Node)
  /-- A reference to a list or mapping that it lies in. -/
  | loop (name : Text)
  deriving Repr, Inhabited

namespace Node

def absent : Node := scalar .none []

/-! ## Keys -/

/-- Do two keys stand for the same? Scalars are compared by their texts alone, references by their
names, and any two lists or mappings count as the same. -/
def sameKey : Node → Node → Bool
  | scalar _ s, scalar _ t => s == t
  | list _, list _ => true
  | map _, map _ => true
  | reference m _, reference n _ => m == n
  | reference m _, loop n => m == n
  | loop m, reference n _ => m == n
  | loop m, loop n => m == n
  | _, _ => false

def hasDistinctKeys : List Node → Bool
  | [] => true
  | key :: rest => !(rest.any key.sameKey) && hasDistinctKeys rest

/-- Does the key merge its value into the mapping? -/
def isMerge : Node → Bool
  | scalar .merge t => t == Text.ofString "<<"
  | _ => false

/-- The number as one of double precision, if it is one of a word of 64 bits with a sign. -/
def floatOf? (n : Int) : Option Real64 :=
  if -(halfWord : Int) ≤ n && n < halfWord then Real64.ofDecimal? ⟨n < 0, n.natAbs, 0⟩ else none

/-- The value of a scalar. A tag that names a kind of value must fit it. -/
def scalarValue? (tag : ScalarTag) (t : Text) : Option Value :=
  match tag with
  | .none => some (resolve t)
  | .text | .merge | .other => some (.text t)
  | .binary => (Base64.decode? t).map .text
  | _ =>
    match tag, resolve t with
    | .null, .null => some .null
    | .bool, .bool b => some (.bool b)
    | .int, .int n => some (.int n)
    | .float, .float x => some (.float x)
    | .float, .int n => (floatOf? n).map .float
    | .time, .time => some .time
    | _, _ => none

/-- Is the key a text, or one that merges? -/
def isTextKey : Node → Bool
  | scalar .none t => isPlainText t
  | scalar .text _ => true
  | scalar .merge _ => true
  | reference _ target => isTextKey target
  | _ => false

end Node

/-!
## From tokens to nodes

A node is a reference, a scalar or a collection; an anchor and a tag may stand in front of it. A
document is one node, after directives and a line of dashes that may both be missing. Only the first
document of a stream is read, with the token behind it.
-/

/-- The anchors so far, the latest first. A collection that is not complete yet has no node. -/
abbrev Anchors := List (Text × Option Node)

/-- What is left to read. -/
structure Reading where
  tokens : List Token
  anchors : Anchors

/-- Steps that read tokens and may fail. -/
abbrev Reader := StateT Reading Option

/-- The meanings of handles. -/
abbrev Handles := List (Text × Text)

namespace Reader

def peek : Reader Token := fun r =>
  match r.tokens with
  | t :: _ => some (t, r)
  | [] => none

def skip : Reader Unit := fun r => some ((), { r with tokens := r.tokens.drop 1 })

def isNext (ts : List Token) : Reader Bool := return ts.contains (← peek)

/-! ### Anchors and tags -/

/-- The node of a reference. -/
def lookUp (name : Text) : Reader Node := fun r =>
  match r.anchors.lookup name with
  | none => none
  | some (some node) => some (.reference name node, r)
  | some none => some (.loop name, r)

/-- Give a node that was just read its anchor. -/
def name (anchor : Option Text) (node : Node) : Reader Node := fun r =>
  match anchor with
  | none => some (node, r)
  | some a => some (node, { r with anchors := (a, some node) :: r.anchors })

/-- Read a collection with an anchor. Within the collection the anchor is known, but has no node. -/
def within (anchor : Option Text) (read : Reader Node) : Reader Node := fun r =>
  match anchor with
  | none => read r
  | some a =>
    match read { r with anchors := (a, none) :: r.anchors } with
    | none => none
    | some (node, after) =>
      let later := after.anchors.take (after.anchors.length - (r.anchors.length + 1))
      some (node, { after with anchors := later ++ (a, some node) :: r.anchors })

def anchor : Reader (Option Text) := do
  match ← peek with
  | .anchor a => skip; return some a
  | _ => return none

/-- The tag here, if there is one, with the meaning of its handle. -/
def tag (handles : Handles) : Reader (Option Text) := do
  match ← peek with
  | .tag handle suffix =>
    skip
    if handle.isEmpty then return some suffix
    else
      match handles.lookup handle with
      | some meaning => return some (meaning ++ suffix)
      | none => failure
  | _ => return none

/-- The anchor and the tag here, in either order. -/
def properties (handles : Handles) : Reader (Option Text × Option Text) := do
  match ← anchor with
  | some a => return (some a, ← tag handles)
  | none =>
    match ← tag handles with
    | none => return (none, none)
    | some t => return (← anchor, some t)

/-- The tag of a scalar that has none written. -/
def untagged (style : Style) (text : Text) : ScalarTag :=
  if style != .plain then .text else if text == Text.ofString "<<" then .merge else .none

/-- The node of a scalar. One exclamation mark counts as no tag. -/
def scalar (tag : Option Text) (style : Style) (text : Text) : Node :=
  match tag with
  | none => .scalar (untagged style text) text
  | some t => .scalar (if t == [33] then untagged style text else .ofTag t) text

/-! ### Nodes -/

mutual

/-- Read a node. Block collections are read only outside of brackets, and a list that is not
indented only as the value of a key. -/
def node (handles : Handles) : Nat → Bool → Bool → Reader Node
  | 0, _, _ => failure
  | fuel + 1, block, unindented => do
    match ← peek with
    | .reference r => skip; lookUp r
    | _ =>
      let (anchor, tag) ← properties handles
      match ← peek with
      | .scalar style text => skip; name anchor (scalar tag style text)
      | .listStart => skip; within anchor (.list <$> flowItems handles fuel true)
      | .mapStart => skip; within anchor (.map <$> flowEntries handles fuel true)
      | t =>
        if block && t == .blockListStart then
          skip
          within anchor (.list <$> blockItems handles fuel)
        else if block && t == .blockMapStart then
          skip
          within anchor (.map <$> blockEntries handles fuel)
        else if unindented && t == .item then
          within anchor (.list <$> unindentedItems handles fuel)
        else if anchor.isSome || tag.isSome then name anchor (scalar tag .plain [])
        else failure

/-- Read a node, or nothing before one of the given tokens. -/
def nodeBefore (handles : Handles) : Nat → Bool → Bool → List Token → Reader Node
  | 0, _, _, _ => failure
  | fuel + 1, block, unindented, ends => do
    if ← isNext ends then return .absent else node handles fuel block unindented

/-- Read the items of a block list. -/
def blockItems (handles : Handles) : Nat → Reader (List Node)
  | 0 => failure
  | fuel + 1 => do
    match ← peek with
    | .item =>
      skip
      let first ← nodeBefore handles fuel true false [.item, .blockEnd]
      return first :: (← blockItems handles fuel)
    | .blockEnd => skip; return []
    | _ => failure

/-- Read the items of a list that is not indented. -/
def unindentedItems (handles : Handles) : Nat → Reader (List Node)
  | 0 => failure
  | fuel + 1 => do
    match ← peek with
    | .item =>
      skip
      let first ← nodeBefore handles fuel true false [.item, .key, .value, .blockEnd]
      return first :: (← unindentedItems handles fuel)
    | _ => return []

/-- Read the value of an entry, if its colon is there. -/
def entryValue (handles : Handles) : Nat → Bool → List Token → Reader Node
  | 0, _, _ => failure
  | fuel + 1, block, ends => do
    match ← peek with
    | .value => skip; nodeBefore handles fuel block block ends
    | _ => return .absent

/-- Read the entries of a block mapping. -/
def blockEntries (handles : Handles) : Nat → Reader (List (Node × Node))
  | 0 => failure
  | fuel + 1 => do
    match ← peek with
    | .key =>
      skip
      let key ← nodeBefore handles fuel true true [.key, .value, .blockEnd]
      let value ← entryValue handles fuel true [.key, .value, .blockEnd]
      return (key, value) :: (← blockEntries handles fuel)
    | .blockEnd => skip; return []
    | _ => failure

/-- Read the items of a list in brackets. An item with a key mark is a mapping with one entry; a key
that is missing there takes the token in its place with it. -/
def flowItems (handles : Handles) : Nat → Bool → Reader (List Node)
  | 0, _ => failure
  | fuel + 1, first => do
    if ← isNext [.listEnd] then skip; return []
    if !first then
      if ← isNext [.comma] then skip else failure
    match ← peek with
    | .listEnd => skip; return []
    | .key =>
      skip
      let missing ← isNext [.value, .comma, .listEnd]
      let key ← nodeBefore handles fuel false false [.value, .comma, .listEnd]
      if missing then skip
      let value ← entryValue handles fuel false [.comma, .listEnd]
      return .map [(key, value)] :: (← flowItems handles fuel false)
    | _ =>
      let item ← node handles fuel false false
      return item :: (← flowItems handles fuel false)

/-- Read the entries of a mapping in braces. Without a key mark an entry has no value. -/
def flowEntries (handles : Handles) : Nat → Bool → Reader (List (Node × Node))
  | 0, _ => failure
  | fuel + 1, first => do
    if ← isNext [.mapEnd] then skip; return []
    if !first then
      if ← isNext [.comma] then skip else failure
    match ← peek with
    | .mapEnd => skip; return []
    | .key =>
      skip
      let key ← nodeBefore handles fuel false false [.value, .comma, .mapEnd]
      let value ← entryValue handles fuel false [.comma, .mapEnd]
      return (key, value) :: (← flowEntries handles fuel false)
    | _ =>
      let key ← node handles fuel false false
      return (key, .absent) :: (← flowEntries handles fuel false)

end

/-! ### Documents -/

def standardHandles : Handles := [([33], [33]), ([33, 33], standardTags)]

/-- Read directives. There is at most one version, which is 1.1, and a handle gets one meaning. -/
def directives : Nat → Bool → Handles → Reader Handles
  | 0, _, _ => failure
  | fuel + 1, versioned, handles => do
    match ← peek with
    | .version major minor =>
      if versioned || major != 1 || minor != 1 then failure
      skip
      directives fuel true handles
    | .handle h meaning =>
      if (handles.lookup h).isSome then failure
      skip
      directives fuel versioned (handles ++ [(h, meaning)])
    | _ => return handles

/-- Is the token one that stands between documents? -/
def isBetween : Token → Bool
  | .streamEnd | .version _ _ | .handle _ _ | .documentStart | .documentEnd => true
  | _ => false

/-- Read the first document of a stream, and look at the token behind it. An empty stream has
none. -/
def document (fuel : Nat) : Reader (Option Node) := do
  match ← peek with
  | .streamEnd => return none
  | t =>
    let root ←
      if isBetween t && t != .documentEnd then do
        let handles ← directives fuel false []
        if ← isNext [.documentStart] then skip else failure
        if isBetween (← peek) then pure .absent
        else node (handles ++ standardHandles) fuel true false
      else node standardHandles fuel true false
    let _ ← peek
    return some root

end Reader

/-- The first document of a stream of tokens. -/
def document? (ts : List Token) : Option (Option Node) :=
  (Reader.document (4 * ts.length + 8) |>.run ⟨ts, []⟩).map Prod.fst

end ImportBlock.Yaml
