import ImportBlock.Yaml.Node
import ImportBlock.Yaml.Scan

/-!
# The meaning of a document

A node means a value. References are followed to the nodes they name, up to a limit on how much is
visited that way, and mappings are merged into others.
-/

/-!
## Limits on references

A short document can stand for a huge value, since what a reference names is read again each time.
So the nodes that are visited are counted, and a document with too great a part of repetitions is
refused.
-/

namespace ImportBlock.Yaml

/-- How much of a document has been visited. -/
structure Visits where
  /-- The nodes that were visited, each as often as it was. -/
  nodes : Nat
  /-- Those of them that were visited because of a reference. -/
  repeated : Nat
  /-- The number of references that lead to the present node. -/
  depth : Nat
  deriving DecidableEq, Repr

namespace Visits

def none : Visits := ⟨0, 0, 0⟩

/-- The part of repetitions that is allowed among so many visits, in units of 1 / 360000000. It is
99 in 100 up to 400000 visits, and falls evenly to 10 in 100 at 4000000 visits. -/
def allowance (nodes : Nat) : Nat :=
  if nodes ≤ 400000 then 356400000
  else if 4000000 ≤ nodes then 36000000
  else 356400000 - 89 * (nodes - 400000)

/-- Are there too many repetitions? A few are always allowed. -/
def isExcessive (v : Visits) : Bool :=
  100 < v.repeated && 1000 < v.nodes && allowance v.nodes * v.nodes < 360000000 * v.repeated

/-- The visits with one more node. -/
def add (v : Visits) : Visits :=
  { v with nodes := v.nodes + 1, repeated := if v.depth = 0 then v.repeated else v.repeated + 1 }

/-- Without references nothing is excessive. -/
theorem isExcessive_eq_false {v : Visits} (h : v.repeated = 0) : v.isExcessive = false := by
  unfold isExcessive
  rw [h]
  rfl

end Visits

/-- Steps that visit nodes and may fail. -/
abbrev Visitor := StateT Visits Option

namespace Visitor

def visit : Visitor Unit := fun v => if v.add.isExcessive then none else some ((), v.add)

/-- Visit the nodes that a reference leads to. -/
def follow {α : Type} (steps : Visitor α) : Visitor α := fun v =>
  (steps { v with depth := v.depth + 1 }).map fun r => (r.1, { r.2 with depth := v.depth })

end Visitor

/-!
## What nodes mean

The value of a node follows from the values of the nodes in it. A mapping also takes over the
entries of the mappings that are merged into it, unless it has entries of the same names.
-/

/-! ### Mappings -/

/-- The entries of a mapping so far, and the names that no later entry may change: there are such
only while mappings are merged. -/
structure Merged where
  entries : List (Text × Value)
  fixed : Option (List Text)
  deriving Repr, Inhabited

namespace Merged

def empty : Merged := ⟨[], none⟩

/-- May an entry with the name still be added? -/
def admits (m : Merged) (name : Text) : Bool := m.fixed.all fun ns => !ns.contains name

/-- The entries with one more. -/
def put (m : Merged) (name : Text) (v : Value) : Merged :=
  ⟨Value.put name v m.entries, m.fixed.map (name :: ·)⟩

/-- The entries after a mapping was merged into `before`. -/
def unfix (before m : Merged) : Merged := { m with fixed := before.fixed.bind fun _ => m.fixed }

end Merged

/-- A way to add entries to those of a mapping. The flag tells whether the mapping's keys are texts:
it has then no entry for a null key. -/
abbrev Addition := Bool → Merged → Visitor Merged

/-- What can be done with a node. -/
structure Meaning where
  /-- Find its value. -/
  value : Visitor Value
  /-- Add its entries to those of a mapping. Only mappings have entries. -/
  addTo : Option Addition
  /-- Merge it into a mapping. Besides mappings, lists of them can be merged. -/
  mergeInto : Option Addition

namespace Node

/-! ### Keys -/

/-- The value of a key, and the name that it stands for: its text as it is written, if it does not
stand for another text. -/
def key : Node → Visitor (Value × Text)
  | scalar tag t => do
    Visitor.visit
    match scalarValue? tag t with
    | some (.text name) => return (.text name, name)
    | some v => return (v, t)
    | none => failure
  | reference _ target => do
    Visitor.visit
    Visitor.follow (key target)
  | _ => failure

/-- The name that an entry gets, if it counts. -/
def entryName (ofTexts : Bool) (node : Node) : Visitor (Option Text) := do
  match ← key node with
  | (.null, _) => return if ofTexts then none else some []
  | (_, name) => return some name

/-- The name that a key keeps from being merged. In a mapping whose keys are texts, only a key that
is a text by itself keeps its name. -/
def keptName (ofTexts : Bool) (node : Node) : Visitor (Option Text) := do
  match ← key node with
  | (.text name, _) => return some name
  | (.null, _) => return if ofTexts then none else some []
  | (_, name) => return if ofTexts then none else some name

/-! ### Entries -/

/-- Add the entries that are a mapping's own. -/
def ownEntries (ofTexts : Bool) : List (Node × Meaning) → Merged → Visitor Merged
  | [], m => return m
  | (key, node) :: rest, m => do
    if key.isMerge then ownEntries ofTexts rest m
    else
      match ← entryName ofTexts key with
      | none => ownEntries ofTexts rest m
      | some name =>
        if m.admits name then ownEntries ofTexts rest (m.put name (← node.value))
        else ownEntries ofTexts rest m

/-- Fix the names of a mapping's own entries, unless names are fixed already. -/
def fixNames (ofTexts : Bool) (keys : List Node) (m : Merged) : Visitor Merged := do
  match m.fixed with
  | some _ => return m
  | none => return { m with fixed := some ((← keys.mapM (keptName ofTexts)).filterMap id) }

/-- Add the entries of a mapping, and then those that it merges: its own go first. -/
def mapping (entries : List (Node × Meaning)) : Addition := fun ofTexts m => do
  let keys := entries.map Prod.fst
  if !hasDistinctKeys keys then failure
  let own ← ownEntries ofTexts entries m
  match entries.find? fun e => e.1.isMerge with
  | none => return own
  | some (_, node) =>
    match node.mergeInto with
    | none => failure
    | some merge => return m.unfix (← merge ofTexts (← fixNames ofTexts keys own))

/-- Add the entries of several mappings, the first of them first. -/
def mappings : List Meaning → Addition
  | [], _, m => return m
  | node :: rest, ofTexts, m => do
    match node.addTo with
    | none => failure
    | some add => mappings rest ofTexts (← add ofTexts m)

/-! ### Values -/

/-- Follow a reference to add the entries of its target. -/
def followAddition (add : Addition) : Addition := fun ofTexts m => do
  Visitor.visit
  Visitor.follow (add ofTexts m)

mutual

def meaning : Node → Meaning
  | scalar tag t =>
    { value := do
        Visitor.visit
        match scalarValue? tag t with
        | some v => return v
        | none => failure
      addTo := none
      mergeInto := none }
  | list items =>
    { value := do
        Visitor.visit
        return .list (← (meanings items).mapM Meaning.value)
      addTo := none
      mergeInto := some fun ofTexts m => mappings (meanings items) ofTexts m }
  | map entries =>
    let add : Addition := fun ofTexts m => do
      Visitor.visit
      mapping (entryMeanings entries) ofTexts m
    { value := do
        return .map (← add (entries.all fun e => e.1.isTextKey) .empty).entries
      addTo := some add
      mergeInto := some add }
  | reference _ target =>
    { value := do
        Visitor.visit
        Visitor.follow (meaning target).value
      addTo := (meaning target).addTo.map followAddition
      mergeInto := (meaning target).addTo.map followAddition }
  | loop _ => ⟨failure, none, none⟩

/-- What items mean. -/
def meanings : List Node → List Meaning
  | [] => []
  | n :: rest => meaning n :: meanings rest

/-- The keys of entries, and what their values mean. -/
def entryMeanings : List (Node × Node) → List (Node × Meaning)
  | [] => []
  | (key, n) :: rest => (key, meaning n) :: entryMeanings rest

end

/-- The value of the node at the top of a document; the document is visited as well. The keys of a
mapping there are texts. -/
def value? (node : Node) : Option Value :=
  let steps : Visitor Value := do
    Visitor.visit
    match node.meaning.addTo with
    | some add => return .map (← add true .empty).entries
    | none => node.meaning.value
  (steps.run .none).map Prod.fst

end Node

/-!
## Documents
-/

/-- Read the first document of a text. An empty text stands for null. -/
def read? (t : Text) : Option Value :=
  match document? (tokens (.ofText t)) with
  | none => none
  | some none => some .null
  | some (some node) => node.value?

end ImportBlock.Yaml
