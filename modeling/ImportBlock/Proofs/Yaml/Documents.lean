import ImportBlock.Proofs.Yaml.Nodes
import ImportBlock.Proofs.Yaml.PrintedTexts
import ImportBlock.Proofs.Yaml.Rows

/-!
# Printed documents

What is printed behind the colon of a key is read back if its characters are read as tokens, the
tokens as a node, and the node stands for the value that was printed (`ValueReadsBack`). This holds
of texts and truth values, of lists of texts and of mappings, and so a document whose entries are
read back is read back as a whole (`read?_entries`).
-/

namespace ImportBlock.Yaml

/-- The text is read as a value behind a key, in a mapping at a column. -/
def ValueReadsBack (depth column : ℕ) (printed : Text) (v : Value) : Prop :=
  ∃ z us n, Spells printed z ∧ Scan.ValueReads depth column z us ∧ Parses us n ∧ n.Means v

theorem Denotes.exists_node {us : List Token} {v : Value} (h : Denotes us v) :
    ∃ n, Parses us n ∧ n.Means v := by
  cases h with
  | scalar hvalue => exact ⟨_, parses_scalar _ _, means_scalar hvalue⟩
  | binary hdecode =>
    refine ⟨_, parses_binary _ _, means_scalar ?_⟩
    rw [Node.scalarValue?, hdecode]
    rfl

variable {depth column : ℕ}

/-! ## Scalars -/

theorem ScalarReads.value {printed : Text} {v : Value} (h : ScalarReads column printed v) :
    ValueReadsBack depth column (32 :: printed) v := by
  obtain ⟨x, us, hspells, hreads, hdenotes⟩ := h
  obtain ⟨n, hparses, hmeans⟩ := hdenotes.exists_node
  have hspace : Spells [32] [32] := Spells.literal [32] rfl
  exact ⟨_, us, n, hspace.append hspells, hreads.value, hparses, hmeans⟩

theorem valueReadsBack_bool (b : Bool) :
    ValueReadsBack depth column (32 :: if b then "true\n" else "false\n") (.bool b) := by
  cases b with
  | true =>
    have hspells : Spells "true" [116, 114, 117, 101] := Spells.literal "true" rfl
    exact (scalarReads_plain hspells (by decide) (by decide) rfl).value
  | false =>
    have hspells : Spells "false" [102, 97, 108, 115, 101] :=
      Spells.literal "false" rfl
    exact (scalarReads_plain hspells (by decide) (by decide) rfl).value

/-! ## Lists -/

theorem valueReadsBack_emptyList :
    ValueReadsBack depth column " []\n" (.list []) :=
  ⟨_, _, _, Spells.literal " []\n" rfl, Scan.valueReads_emptyList, parses_emptyList,
    means_list .nil⟩

theorem exists_items {items : List Text} {print : Text → Text}
    (h : ∀ t ∈ items, ScalarReads column (print t) (.text t)) :
    ∃ ps : List (List ℕ × List Token × Node), ps.length = items.length ∧
      (∀ p ∈ ps, Scan.ReadsAs column p.1 p.2.1 ∧ Parses p.2.1 p.2.2) ∧
      Spells (items.flatMap fun t => spaces column ++ 45 :: 32 :: print t)
        (Scan.rowChars column (ps.map fun p => (45 :: 32 :: p.1, .item :: p.2.1))) ∧
      List.Forall₂ Node.Means (ps.map fun p => p.2.2) (items.map .text) := by
  induction items with
  | nil => exact ⟨[], rfl, by simp, Spells.nil, .nil⟩
  | cons t items ih =>
    rw [List.forall_mem_cons] at h
    obtain ⟨ps, hlength, hps, hspells, hmeans⟩ := ih h.2
    obtain ⟨x, us, hx, hreads, hdenotes⟩ := h.1
    obtain ⟨n, hparses, hn⟩ := hdenotes.exists_node
    refine ⟨(x, us, n) :: ps, by simp [hlength],
      List.forall_mem_cons.mpr ⟨⟨hreads, hparses⟩, hps⟩, ?_, .cons hn hmeans⟩
    have hdash : Spells [45, 32] [45, 32] := Spells.literal [45, 32] rfl
    exact ((spells_spaces column).append (hdash.append hx)).append hspells

theorem valueReadsBack_list {column' : ℕ} (hcolumn : column < column') {items : List Text}
    {print : Text → Text} (hne : items ≠ [])
    (h : ∀ t ∈ items, ScalarReads column' (print t) (.text t)) :
    ValueReadsBack (depth + 1) column
      (10 :: items.flatMap fun t => spaces column' ++ 45 :: 32 :: print t)
      (.list (items.map .text)) := by
  obtain ⟨ps, hlength, hps, hspells, hmeans⟩ := exists_items h
  have hps_ne : ps ≠ [] := by
    rintro rfl
    exact hne (List.length_eq_zero_iff.mp hlength.symm)
  have hfeed : Spells [10] [10] := Spells.literal [10] rfl
  have hrows : ∀ row ∈ ps.map fun p => (45 :: 32 :: p.1, Token.item :: p.2.1),
      Scan.RowReads .blockListStart depth column' row.1 row.2 := by
    intro row hrow
    obtain ⟨p, hp, rfl⟩ := List.mem_map.mp hrow
    exact (hps p hp).1.item (by omega)
  have hnodes : ∀ q ∈ ps.map Prod.snd, Parses q.1 q.2 := by
    intro q hq
    obtain ⟨p, hp, rfl⟩ := List.mem_map.mp hq
    exact (hps p hp).2
  have hreads := Scan.valueReads_rows hcolumn hrows (by simpa using hps_ne)
  have hparses := parses_list hnodes
  refine ⟨_, _, _, hfeed.append hspells, hreads, ?_, means_list hmeans⟩
  rw [List.flatMap_map] at hparses ⊢
  rw [List.map_map] at hparses
  exact hparses

/-! ## Mappings -/

/-- A name that can stand in front of a colon as it is. -/
def IsField (name : Text) : Prop := IsName (name.map UInt8.toNat) ∧ IsKey name

theorem IsField.spells {name : Text} (h : IsField name) : Spells name (name.map UInt8.toNat) := by
  refine Spells.ascii fun b hb => ?_
  have hchar := h.1.chars b.toNat (List.mem_map_of_mem hb)
  unfold IsAscii
  omega

/-- An entry of a mapping at a column: its name, and what is printed behind the colon. -/
def entryText (column : ℕ) (name printed : Text) : Text := spaces column ++ (name ++ 58 :: printed)

/-- An entry as it is written and read. -/
structure Field where
  name : Text
  chars : List ℕ
  tokens : List Token
  node : Node
  value : Value

namespace Field

/-- The row of the entry, and its tokens. -/
def row (f : Field) : List ℕ × List Token :=
  (f.name.map UInt8.toNat ++ 58 :: f.chars, entryTokens f.name f.tokens)

/-- The entry is read as it is written. -/
structure Reads (depth column : ℕ) (f : Field) : Prop where
  name : IsField f.name
  chars : Scan.ValueReads depth column f.chars f.tokens
  tokens : Parses f.tokens f.node
  node : f.node.Means f.value

variable {fs : List Field} (h : ∀ f ∈ fs, f.Reads depth column)

include h

theorem rowReads : ∀ p ∈ fs.map row, Scan.RowReads .blockMapStart depth column p.1 p.2 := by
  intro p hp
  obtain ⟨f, hf, rfl⟩ := List.mem_map.mp hp
  have hentry := (h f hf).chars.entry (h f hf).name.1
  rwa [← (h f hf).name.spells.1] at hentry

theorem parses : Parses (.blockMapStart :: (fs.map row).flatMap Prod.snd ++ [.blockEnd])
    (mapNode (fs.map fun f => (f.name, f.node))) := by
  have hnodes : ∀ p ∈ fs.map fun f => (f.name, f.tokens, f.node), Parses p.2.1 p.2.2 := by
    intro p hp
    obtain ⟨f, hf, rfl⟩ := List.mem_map.mp hp
    exact (h f hf).tokens
  have hparses := parses_map hnodes
  rw [List.flatMap_map, List.map_map] at hparses
  rw [List.flatMap_map, mapNode, List.map_map]
  exact hparses

theorem meansEntry : List.Forall₂ MeansEntry (fs.map fun f => (f.name, f.node))
    (fs.map fun f => (f.name, f.value)) := by
  rw [List.forall₂_map_left_iff, List.forall₂_map_right_iff, List.forall₂_same]
  exact fun f hf => ⟨rfl, (h f hf).node⟩

end Field

theorem exists_fields {entries : List (Text × Text × Value)}
    (h : ∀ e ∈ entries, IsField e.1 ∧ ValueReadsBack depth column e.2.1 e.2.2) :
    ∃ fs : List Field, (∀ f ∈ fs, f.Reads depth column) ∧
      Spells (entries.flatMap fun e => entryText column e.1 e.2.1)
        (Scan.rowChars column (fs.map Field.row)) ∧
      (fs.map fun f => (f.name, f.value)) = entries.map fun e => (e.1, e.2.2) := by
  induction entries with
  | nil => exact ⟨[], by simp, Spells.nil, rfl⟩
  | cons e entries ih =>
    rw [List.forall_mem_cons] at h
    obtain ⟨fs, hfs, hspells, hvalues⟩ := ih h.2
    obtain ⟨hname, z, us, n, hz, hreads, hparses, hmeans⟩ := h.1
    refine ⟨⟨e.1, z, us, n, e.2.2⟩ :: fs,
      List.forall_mem_cons.mpr ⟨⟨hname, hreads, hparses, hmeans⟩, hfs⟩, ?_, ?_⟩
    · have hcolon : Spells [58] [58] := Spells.literal [58] rfl
      exact ((spells_spaces column).append (hname.spells.append (hcolon.append hz))).append hspells
    · rw [List.map_cons, List.map_cons, hvalues]

section Entries

variable {entries : List (Text × Text × Value)} (hne : entries ≠ [])
  (hnodup : entries.Pairwise fun d e => d.1 ≠ e.1)

include hne hnodup

theorem valueReadsBack_map {column' : ℕ} (hcolumn : column < column')
    (h : ∀ e ∈ entries, IsField e.1 ∧ ValueReadsBack depth column' e.2.1 e.2.2) :
    ValueReadsBack (depth + 1) column (10 :: entries.flatMap fun e => entryText column' e.1 e.2.1)
      (.map (entries.map fun e => (e.1, e.2.2))) := by
  obtain ⟨fs, hfs, hspells, hvalues⟩ := exists_fields h
  have hfs_ne : fs ≠ [] := by
    rintro rfl
    exact hne (by simpa using hvalues)
  have hfeed : Spells [10] [10] := Spells.literal [10] rfl
  have hmeans := Field.meansEntry hfs
  rw [hvalues] at hmeans
  refine ⟨_, _, _, hfeed.append hspells,
    Scan.valueReads_rows hcolumn (Field.rowReads hfs) (by simpa using hfs_ne), Field.parses hfs,
    means_map hmeans ?_ ?_⟩
  · intro w hw
    obtain ⟨e, he, rfl⟩ := List.mem_map.mp hw
    exact (h e he).1.2
  · rw [List.pairwise_map]
    exact hnodup

/-- A document whose entries are read back is read back. -/
theorem read?_entries (hdepth : depth < Scan.maxDepth)
    (h : ∀ e ∈ entries, IsField e.1 ∧ ValueReadsBack depth 0 e.2.1 e.2.2) :
    read? (entries.flatMap fun e => entryText 0 e.1 e.2.1) =
      some (.map (entries.map fun e => (e.1, e.2.2))) := by
  obtain ⟨fs, hfs, hspells, hvalues⟩ := exists_fields h
  obtain ⟨f, fs, rfl⟩ := List.exists_cons_of_ne_nil (show fs ≠ [] by
    rintro rfl
    exact hne (by simpa using hvalues))
  -- the stream starts with the first character of a name
  obtain ⟨n, hn, cs, hchars⟩ : ∃ n, n < 0x80 ∧ ∃ cs,
      Scan.rowChars 0 ((f :: fs).map Field.row) = n :: cs := by
    have hname := (hfs f List.mem_cons_self).name.1
    obtain ⟨n, more, hcons⟩ := List.exists_cons_of_ne_nil hname.ne_nil
    have hfirst := hname.chars n (by rw [hcons]; exact List.mem_cons_self)
    refine ⟨n, by omega, more ++ 58 :: f.chars ++ Scan.rowChars 0 (fs.map Field.row), ?_⟩
    rw [Scan.rowChars, List.map_cons, List.flatMap_cons, Field.row, hcons]
    rfl
  rw [hchars] at hspells
  obtain ⟨hstream, hbroken, hreach⟩ := Stream.ofText_of_spells hspells hn
  have hrows := Field.rowReads hfs
  have htokens := tokens_of_rows hrows (List.cons_ne_nil _ _) hdepth (hstream.trans hchars.symm)
    hbroken hreach
  have hdocument : document? (tokens (.ofText (entries.flatMap fun e => entryText 0 e.1 e.2.1))) =
      some (some (mapNode ((f :: fs).map fun f => (f.name, f.node)))) := by
    have hparses := document?_eq (Field.parses hfs) rfl
    rw [List.append_assoc] at hparses
    rw [htokens]
    exact hparses
  have hmeans := Field.meansEntry hfs
  rw [hvalues] at hmeans
  unfold read?
  simp only [hdocument]
  refine value?_mapNode hmeans ?_ (List.pairwise_map.mpr hnodup)
  intro w hw
  obtain ⟨e, he, rfl⟩ := List.mem_map.mp hw
  exact (h e he).1.2

end Entries

end ImportBlock.Yaml
