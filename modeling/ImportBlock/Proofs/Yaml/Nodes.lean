import ImportBlock.Proofs.Yaml.PlainScalars
import ImportBlock.Yaml.Document
import Mathlib.Data.List.Forall2

/-!
# Nodes and their values

Tokens are read as a node whatever follows them (`Parses`): those of scalars, of lists and of
mappings whose parts are read. A node stands for a value if visiting it leads there (`Node.Means`).
Without references nothing is refused as excessive, and with distinct keys nothing is replaced, so
lists and mappings of nodes that stand for values stand for the list and the mapping of these
values (`means_list`, `means_map`).
-/

namespace ImportBlock.Yaml

open Reader

/-! ## Scalars -/

/-- Tokens that are read as a node, whatever follows them. -/
structure Parses (us : List Token) (n : Node) : Prop where
  first : ∃ t rest, us = t :: rest ∧ t ∉ [Token.item, .key, .value, .blockEnd]
  node : ∀ (fuel : ℕ) (unindented : Bool) (rest : List Token) (anchors : Anchors),
    us.length < fuel →
    Reader.node standardHandles fuel true unindented ⟨us ++ rest, anchors⟩ =
      some (n, ⟨rest, anchors⟩)

theorem parses_scalar (style : Style) (u : Text) :
    Parses [.scalar style u] (.scalar (untagged style u) u) where
  first := ⟨_, _, rfl, by simp⟩
  node fuel unindented rest anchors hfuel := by
    obtain ⟨fuel, rfl⟩ : ∃ f, fuel = f + 1 := ⟨fuel - 1, by omega⟩
    rw [Reader.node]
    rfl

theorem parses_binary (style : Style) (u : Text) :
    Parses [.tag [33, 33] "binary", .scalar style u] (.scalar .binary u) where
  first := ⟨_, _, rfl, by simp⟩
  node fuel unindented rest anchors hfuel := by
    obtain ⟨fuel, rfl⟩ : ∃ f, fuel = f + 1 := ⟨fuel - 1, by omega⟩
    rw [Reader.node]
    rfl

theorem parses_emptyList : Parses [.listStart, .listEnd] (.list []) where
  first := ⟨_, _, rfl, by simp⟩
  node fuel unindented rest anchors hfuel := by
    simp only [List.length_cons] at hfuel
    obtain ⟨fuel, rfl⟩ : ∃ f, fuel = f + 1 + 1 := ⟨fuel - 2, by omega⟩
    rw [Reader.node]
    rfl

/-! ## Collections -/

theorem Reader.bind_eq {α β : Type} {x : Reader α} {f : α → Reader β} {r r' : Reading} {a : α}
    (h : x r = some (a, r')) : (x >>= f) r = f a r' := by
  show (x r).bind _ = _
  rw [h]
  rfl

theorem Reader.peek_cons (t : Token) (ts : List Token) (anchors : Anchors) :
    peek ⟨t :: ts, anchors⟩ = some (t, ⟨t :: ts, anchors⟩) := rfl

theorem Reader.skip_cons (t : Token) (ts : List Token) (anchors : Anchors) :
    skip ⟨t :: ts, anchors⟩ = some ((), ⟨ts, anchors⟩) := rfl

section Collections

variable {fuel : ℕ} (rest : List Token) (anchors : Anchors)

theorem Parses.nodeBefore {us : List Token} {n : Node} (h : Parses us n)
    (hfuel : us.length + 1 < fuel) {ends : List Token}
    (hends : ends ⊆ [.item, .key, .value, .blockEnd]) (unindented : Bool) :
    Reader.nodeBefore standardHandles fuel true unindented ends ⟨us ++ rest, anchors⟩ =
      some (n, ⟨rest, anchors⟩) := by
  obtain ⟨fuel, rfl⟩ : ∃ f, fuel = f + 1 := ⟨fuel - 1, by omega⟩
  obtain ⟨t, more, rfl, ht⟩ := h.first
  have hnext : ends.contains t = false := by
    rw [List.contains_eq_mem, decide_eq_false_iff_not]
    exact fun hmem => ht (hends hmem)
  have hisNext : isNext ends ⟨t :: more ++ rest, anchors⟩ =
      some (false, ⟨t :: more ++ rest, anchors⟩) := by
    rw [← hnext]
    rfl
  rw [Reader.nodeBefore, Reader.bind_eq hisNext]
  exact h.node _ _ _ _ (by omega)

/-- The items of a list are read one after the other. -/
theorem blockItems_eq {items : List (List Token × Node)} (h : ∀ p ∈ items, Parses p.1 p.2)
    (hfuel : (items.flatMap fun p => .item :: p.1).length + 1 < fuel) :
    blockItems standardHandles fuel
        ⟨(items.flatMap fun p => .item :: p.1) ++ .blockEnd :: rest, anchors⟩ =
      some (items.map Prod.snd, ⟨rest, anchors⟩) := by
  induction items generalizing fuel with
  | nil =>
    obtain ⟨fuel, rfl⟩ : ∃ f, fuel = f + 1 := ⟨fuel - 1, by omega⟩
    rw [blockItems]
    rfl
  | cons p items ih =>
    rw [List.forall_mem_cons] at h
    rw [List.flatMap_cons, List.length_append, List.length_cons] at hfuel
    obtain ⟨fuel, rfl⟩ : ∃ f, fuel = f + 1 := ⟨fuel - 1, by omega⟩
    rw [List.flatMap_cons, List.append_assoc, List.cons_append, blockItems,
      Reader.bind_eq (Reader.peek_cons _ _ _)]
    dsimp only
    rw [Reader.bind_eq (Reader.skip_cons _ _ _),
      Reader.bind_eq (h.1.nodeBefore _ _ (by omega) (by simp) false),
      Reader.bind_eq (ih h.2 (by omega))]
    rfl

/-- The tokens of an entry. -/
def entryTokens (name : Text) (us : List Token) : List Token :=
  .key :: .scalar .plain name :: .value :: us

/-- The node of a key. -/
def keyNode (name : Text) : Node := .scalar (untagged .plain name) name

/-- The entries of a mapping are read one after the other. -/
theorem blockEntries_eq {rows : List (Text × List Token × Node)}
    (h : ∀ p ∈ rows, Parses p.2.1 p.2.2)
    (hfuel : (rows.flatMap fun p => entryTokens p.1 p.2.1).length < fuel) :
    blockEntries standardHandles fuel
        ⟨(rows.flatMap fun p => entryTokens p.1 p.2.1) ++ .blockEnd :: rest, anchors⟩ =
      some (rows.map fun p => (keyNode p.1, p.2.2), ⟨rest, anchors⟩) := by
  induction rows generalizing fuel with
  | nil =>
    obtain ⟨fuel, rfl⟩ : ∃ f, fuel = f + 1 := ⟨fuel - 1, by omega⟩
    rw [blockEntries]
    rfl
  | cons p rows ih =>
    rw [List.forall_mem_cons] at h
    rw [List.flatMap_cons, List.length_append] at hfuel
    simp only [entryTokens, List.length_cons] at hfuel
    obtain ⟨fuel, rfl⟩ : ∃ f, fuel = f + 1 + 1 := ⟨fuel - 2, by omega⟩
    have hends : [Token.key, .value, .blockEnd] ⊆ [.item, .key, .value, .blockEnd] := by simp
    let more := (rows.flatMap fun p => entryTokens p.1 p.2.1) ++ .blockEnd :: rest
    have hkey := (parses_scalar .plain p.1).nodeBefore (.value :: (p.2.1 ++ more)) anchors
      (show _ < fuel + 1 by rw [List.length_singleton]; omega) hends true
    have hvalue : entryValue standardHandles (fuel + 1) true [.key, .value, .blockEnd]
        ⟨.value :: (p.2.1 ++ more), anchors⟩ = some (p.2.2, ⟨more, anchors⟩) := by
      rw [entryValue, Reader.bind_eq (Reader.peek_cons _ _ _)]
      dsimp only
      rw [Reader.bind_eq (Reader.skip_cons _ _ _)]
      exact h.1.nodeBefore _ _ (by omega) hends true
    rw [List.singleton_append] at hkey
    rw [List.flatMap_cons, List.append_assoc, entryTokens, List.cons_append, List.cons_append,
      List.cons_append, blockEntries, Reader.bind_eq (Reader.peek_cons _ _ _)]
    dsimp only
    rw [Reader.bind_eq (Reader.skip_cons _ _ _), Reader.bind_eq hkey, Reader.bind_eq hvalue,
      Reader.bind_eq (ih h.2 (by simp only [entryTokens]; omega))]
    rfl

theorem parses_list {items : List (List Token × Node)} (h : ∀ p ∈ items, Parses p.1 p.2) :
    Parses (.blockListStart :: (items.flatMap fun p => .item :: p.1) ++ [.blockEnd])
      (.list (items.map Prod.snd)) where
  first := ⟨_, _, rfl, by simp⟩
  node fuel unindented rest anchors hfuel := by
    obtain ⟨fuel, rfl⟩ : ∃ f, fuel = f + 1 := ⟨fuel - 1, by omega⟩
    have hless : (items.flatMap fun p => .item :: p.1).length + 1 < fuel := by
      simp only [List.length_append, List.length_cons, List.length_nil] at hfuel
      omega
    rw [Reader.node, List.append_assoc, List.singleton_append, List.cons_append]
    show (Node.list <$> blockItems standardHandles fuel)
      ⟨(items.flatMap fun p => .item :: p.1) ++ .blockEnd :: rest, anchors⟩ = _
    rw [map_eq_pure_bind, Reader.bind_eq (blockItems_eq rest anchors h hless)]
    rfl

theorem parses_map {rows : List (Text × List Token × Node)} (h : ∀ p ∈ rows, Parses p.2.1 p.2.2) :
    Parses (.blockMapStart :: (rows.flatMap fun p => entryTokens p.1 p.2.1) ++ [.blockEnd])
      (.map (rows.map fun p => (keyNode p.1, p.2.2))) where
  first := ⟨_, _, rfl, by simp⟩
  node fuel unindented rest anchors hfuel := by
    obtain ⟨fuel, rfl⟩ : ∃ f, fuel = f + 1 := ⟨fuel - 1, by omega⟩
    have hless : (rows.flatMap fun p => entryTokens p.1 p.2.1).length < fuel := by
      simp only [List.length_append, List.length_cons, List.length_nil] at hfuel
      omega
    rw [Reader.node, List.append_assoc, List.singleton_append, List.cons_append]
    show (Node.map <$> blockEntries standardHandles fuel)
      ⟨(rows.flatMap fun p => entryTokens p.1 p.2.1) ++ .blockEnd :: rest, anchors⟩ = _
    rw [map_eq_pure_bind, Reader.bind_eq (blockEntries_eq rest anchors h hless)]
    rfl

end Collections

theorem document?_eq {us : List Token} {n : Node} (h : Parses us n)
    (hfirst : us.head? = some .blockMapStart) : document? (us ++ [.streamEnd]) = some (some n) := by
  obtain ⟨us, rfl⟩ := List.head?_eq_some_iff.mp hfirst
  generalize hfuel : 4 * (Token.blockMapStart :: us ++ [Token.streamEnd]).length + 8 = fuel
  have hless : (Token.blockMapStart :: us).length < fuel := by
    rw [List.length_append] at hfuel
    omega
  have hnode := h.node fuel false [.streamEnd] [] hless
  have hdocument : Reader.document fuel ⟨.blockMapStart :: us ++ [.streamEnd], []⟩ =
      some (some n, ⟨[.streamEnd], []⟩) := by
    rw [List.cons_append] at hnode ⊢
    rw [Reader.document, Reader.bind_eq (Reader.peek_cons _ _ _)]
    show (Reader.node standardHandles fuel true false >>= _) _ = _
    rw [Reader.bind_eq hnode]
    rfl
  rw [document?, hfuel]
  show (Reader.document _ _).map Prod.fst = _
  rw [hdocument]
  rfl

/-! ## Values -/

/-- Nothing has been visited because of a reference. -/
def Visits.Direct (v : Visits) : Prop := v.repeated = 0 ∧ v.depth = 0

/-- The steps lead to a result, without references. -/
def Visitor.Gives {α : Type} (steps : Visitor α) (a : α) : Prop :=
  ∀ v : Visits, v.Direct → ∃ v', steps v = some (a, v') ∧ v'.Direct

namespace Visitor

variable {α β : Type} {steps : Visitor α} {a : α}

theorem Gives.bind {next : α → Visitor β} {b : β} (h : steps.Gives a) (h' : (next a).Gives b) :
    (steps >>= next).Gives b := by
  intro v hv
  obtain ⟨v', hsteps, hv'⟩ := h v hv
  obtain ⟨v'', hnext, hv''⟩ := h' v' hv'
  refine ⟨v'', ?_, hv''⟩
  show (steps v).bind _ = _
  rw [hsteps]
  exact hnext

theorem gives_pure (a : α) : (pure a : Visitor α).Gives a := fun v hv => ⟨v, rfl, hv⟩

theorem gives_visit : visit.Gives () := by
  intro v hv
  have hadd : v.add.Direct := by
    unfold Visits.add Visits.Direct
    rw [if_pos hv.2]
    exact hv
  refine ⟨v.add, ?_, hadd⟩
  rw [visit, Visits.isExcessive_eq_false hadd.1]
  rfl

end Visitor

/-- The node stands for a value. -/
def Node.Means (n : Node) (v : Value) : Prop := n.meaning.value.Gives v

theorem means_scalar {tag : ScalarTag} {u : Text} {v : Value}
    (h : Node.scalarValue? tag u = some v) : (Node.scalar tag u).Means v := by
  unfold Node.Means
  rw [Node.meaning]
  refine Visitor.gives_visit.bind ?_
  rw [h]
  exact Visitor.gives_pure v

theorem gives_values {ns : List Node} {vs : List Value} (h : List.Forall₂ Node.Means ns vs) :
    ((Node.meanings ns).mapM Meaning.value).Gives vs := by
  induction h with
  | nil => exact Visitor.gives_pure []
  | cons hn _ ih =>
    rw [Node.meanings, List.mapM_cons]
    exact hn.bind (ih.bind (Visitor.gives_pure _))

theorem means_list {ns : List Node} {vs : List Value} (h : List.Forall₂ Node.Means ns vs) :
    (Node.list ns).Means (.list vs) := by
  unfold Node.Means
  rw [Node.meaning]
  exact Visitor.gives_visit.bind ((gives_values h).bind (Visitor.gives_pure _))

/-! ## Mappings -/

/-- The name of a key that is a text by itself and does not merge anything. -/
def IsKey (name : Text) : Prop := isPlainText name = true ∧ name ≠ "<<"

theorem IsKey.keyNode_eq {name : Text} (h : IsKey name) : keyNode name = .scalar .none name := by
  have hmerge : (name == Text.ofString "<<") = false := by simpa using h.2
  simp [keyNode, Reader.untagged, hmerge]

theorem IsKey.isMerge {name : Text} (h : IsKey name) : (keyNode name).isMerge = false := by
  rw [h.keyNode_eq]
  rfl

theorem IsKey.gives_entryName {name : Text} (h : IsKey name) (ofTexts : Bool) :
    (Node.entryName ofTexts (keyNode name)).Gives (some name) := by
  have hkey : (Node.key (keyNode name)).Gives (.text name, name) := by
    rw [h.keyNode_eq, Node.key, Node.scalarValue?, resolve_of_isPlainText h.1]
    exact Visitor.gives_visit.bind (Visitor.gives_pure _)
  unfold Node.entryName
  exact hkey.bind (Visitor.gives_pure _)

/-- The entries of a mapping, by their names. -/
def mapNode (es : List (Text × Node)) : Node := .map (es.map fun e => (keyNode e.1, e.2))

/-- Nodes and values of the same names. -/
def MeansEntry (e : Text × Node) (w : Text × Value) : Prop := e.1 = w.1 ∧ e.2.Means w.2

theorem entryMeanings_eq (es : List (Text × Node)) :
    Node.entryMeanings (es.map fun e => (keyNode e.1, e.2)) =
      es.map fun e => (keyNode e.1, e.2.meaning) := by
  induction es with
  | nil => rfl
  | cons e es ih => rw [List.map_cons, Node.entryMeanings, ih, List.map_cons]

theorem gives_ownEntries {es : List (Text × Node)} {ws : List (Text × Value)}
    (h : List.Forall₂ MeansEntry es ws) (hkeys : ∀ w ∈ ws, IsKey w.1) (ofTexts : Bool)
    (before : List (Text × Value)) (hnodup : (before ++ ws).Pairwise fun v w => v.1 ≠ w.1) :
    (Node.ownEntries ofTexts (es.map fun e => (keyNode e.1, e.2.meaning)) ⟨before, none⟩).Gives
      ⟨before ++ ws, none⟩ := by
  induction h generalizing before with
  | nil =>
    rw [List.append_nil]
    exact Visitor.gives_pure _
  | @cons e w es ws hmeans _ ih =>
    rw [List.forall_mem_cons] at hkeys
    obtain ⟨name, n⟩ := e
    obtain ⟨rfl, hvalue⟩ : name = w.1 ∧ n.Means w.2 := hmeans
    -- the entry is put behind those before it, which have other names
    have hput : Value.put w.1 w.2 before = before ++ [w] := by
      have hother := (List.pairwise_append.mp hnodup).2.2
      rw [Value.put, List.filter_eq_self.mpr]
      intro v hv
      simpa using hother v hv w List.mem_cons_self
    rw [List.map_cons, Node.ownEntries, hkeys.1.isMerge]
    refine (hkeys.1.gives_entryName ofTexts).bind ?_
    refine Visitor.Gives.bind hvalue ?_
    have hmore := ih hkeys.2 (before ++ [w]) (by simpa using hnodup)
    rw [List.append_assoc, List.singleton_append] at hmore
    rw [Merged.put, hput]
    exact hmore

theorem hasDistinctKeys_of_pairwise {names : List Text} (hkeys : ∀ name ∈ names, IsKey name)
    (hnodup : names.Pairwise (· ≠ ·)) : Node.hasDistinctKeys (names.map keyNode) = true := by
  induction hnodup with
  | nil => rfl
  | @cons name names hother _ ih =>
    rw [List.forall_mem_cons] at hkeys
    have hnone : (names.map keyNode).any (keyNode name).sameKey = false := by
      rw [List.any_eq_false]
      intro key hkey
      obtain ⟨other, hmem, rfl⟩ := List.mem_map.mp hkey
      rw [hkeys.1.keyNode_eq, (hkeys.2 other hmem).keyNode_eq]
      simpa [Node.sameKey] using hother other hmem
    rw [List.map_cons, Node.hasDistinctKeys, hnone, ih hkeys.2]
    rfl

theorem MeansEntry.names {es : List (Text × Node)} {ws : List (Text × Value)}
    (h : List.Forall₂ MeansEntry es ws) : es.map Prod.fst = ws.map Prod.fst := by
  induction h with
  | nil => rfl
  | cons hmeans _ ih => rw [List.map_cons, List.map_cons, hmeans.1, ih]

theorem gives_mapping {es : List (Text × Node)} {ws : List (Text × Value)}
    (h : List.Forall₂ MeansEntry es ws) (hkeys : ∀ w ∈ ws, IsKey w.1)
    (hnodup : ws.Pairwise fun v w => v.1 ≠ w.1) (ofTexts : Bool) :
    (Node.mapping (es.map fun e => (keyNode e.1, e.2.meaning)) ofTexts .empty).Gives
      ⟨ws, none⟩ := by
  have hnames : (es.map fun e => (keyNode e.1, e.2.meaning)).map Prod.fst =
      (ws.map Prod.fst).map keyNode := by
    rw [← MeansEntry.names h, List.map_map, List.map_map]
    rfl
  have hall : ∀ name ∈ ws.map Prod.fst, IsKey name := by
    intro name hname
    obtain ⟨w, hw, rfl⟩ := List.mem_map.mp hname
    exact hkeys w hw
  have hdistinct := hasDistinctKeys_of_pairwise hall (List.pairwise_map.mpr hnodup)
  have hmerge : (es.map fun e => (keyNode e.1, e.2.meaning)).find? (fun e => e.1.isMerge) =
      none := by
    rw [List.find?_eq_none]
    intro e he
    have hmem : e.1 ∈ (ws.map Prod.fst).map keyNode := by
      rw [← hnames]
      exact List.mem_map_of_mem he
    obtain ⟨name, hname, heq⟩ := List.mem_map.mp hmem
    rw [← heq, (hall name hname).isMerge]
    exact Bool.false_ne_true
  unfold Node.mapping
  simp only [hnames, hdistinct, hmerge, Bool.not_true, Bool.false_eq_true, if_false]
  exact (gives_ownEntries h hkeys ofTexts [] (by simpa using hnodup)).bind
    (Visitor.gives_pure _)

theorem means_map {es : List (Text × Node)} {ws : List (Text × Value)}
    (h : List.Forall₂ MeansEntry es ws) (hkeys : ∀ w ∈ ws, IsKey w.1)
    (hnodup : ws.Pairwise fun v w => v.1 ≠ w.1) : (mapNode es).Means (.map ws) := by
  unfold Node.Means mapNode
  rw [Node.meaning, entryMeanings_eq]
  exact (Visitor.gives_visit.bind (gives_mapping h hkeys hnodup _)).bind (Visitor.gives_pure _)

/-- At the top of a document, the entries of a mapping are added to none. -/
theorem Node.value?_of_addTo {n : Node} {add : Addition} {m : Merged}
    (haddTo : n.meaning.addTo = some add) (hadd : (add true .empty).Gives m) :
    n.value? = some (.map m.entries) := by
  have hsteps : (Visitor.visit >>= fun _ =>
      add true .empty >>= fun m => pure (Value.map m.entries)).Gives (.map m.entries) :=
    Visitor.gives_visit.bind (hadd.bind (Visitor.gives_pure _))
  obtain ⟨v, hrun, -⟩ := hsteps .none ⟨rfl, rfl⟩
  unfold Node.value?
  simp only [haddTo]
  exact congrArg (Option.map Prod.fst) hrun

theorem value?_mapNode {es : List (Text × Node)} {ws : List (Text × Value)}
    (h : List.Forall₂ MeansEntry es ws) (hkeys : ∀ w ∈ ws, IsKey w.1)
    (hnodup : ws.Pairwise fun v w => v.1 ≠ w.1) : (mapNode es).value? = some (.map ws) := by
  have haddTo : (mapNode es).meaning.addTo = some fun ofTexts m =>
      Visitor.visit >>= fun _ =>
        Node.mapping (es.map fun e => (keyNode e.1, e.2.meaning)) ofTexts m := by
    rw [mapNode, Node.meaning, entryMeanings_eq]
  exact Node.value?_of_addTo haddTo
    (Visitor.gives_visit.bind (gives_mapping h hkeys hnodup true))

end ImportBlock.Yaml
