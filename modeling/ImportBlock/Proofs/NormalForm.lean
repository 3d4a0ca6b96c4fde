import ImportBlock.Source.Block
import Mathlib.Tactic.ByContra
import Mathlib.Tactic.SplitIfs

/-!
# Normal forms of lines

`normalize` cuts a line at blanks, which are recognised on decoded characters, and joins the pieces
with a space byte. The pieces may hold broken UTF-8, so that this can be undone has to be shown:

1. A sequence of bytes decodes the same whatever follows it, and a byte that starts no sequence
   starts none when less follows it (`decode_code?`, `decode_cons`).
2. Decoding therefore commutes with concatenation in front of a byte that continues no sequence
   (`decode_append`), and a field of a line decodes to glyphs without blanks (`solidStretches`).
3. So the fields of the joined text are the fields that were joined (`fields_join`), and a normal
   form is its own normal form (`normalize_normalize`).
-/

namespace ImportBlock

namespace Utf8

/-! ## Sequences of bytes -/

/-- The code point of a text that is one sequence of two, three or four bytes. -/
def code? : Text → Option Nat
  | [a, b] => pair? a b
  | [a, b, c] => triple? a b c
  | [a, b, c, d] => quad? a b c d
  | _ => none

theorem pair?_eq_none_of_lead {a : UInt8} (h : 0xE0 ≤ a) (b : UInt8) : pair? a b = none := by
  have hlow : ¬ a ≤ 0xDF := by
    rw [UInt8.le_iff_toNat_le] at h ⊢
    simp at h ⊢
    omega
  simp [pair?, hlow]

theorem triple?_eq_none_of_lead {a : UInt8} (h : 0xF0 ≤ a) (b c : UInt8) :
    triple? a b c = none := by
  have hlow : ¬ a ≤ 0xEF := by
    rw [UInt8.le_iff_toNat_le] at h ⊢
    simp at h ⊢
    omega
  simp [triple?, hlow]

theorem lead_of_triple? {a b c : UInt8} {n : Nat} (h : triple? a b c = some n) : 0xE0 ≤ a := by
  grind [triple?]

theorem lead_of_quad? {a b c d : UInt8} {n : Nat} (h : quad? a b c d = some n) : 0xF0 ≤ a := by
  grind [quad?]

/-- A well-formed sequence is one glyph, whatever follows it. -/
theorem decode_code? {s : Text} {n : Nat} (h : code? s = some n) (rest : Text) :
    decode (s ++ rest) = ⟨s, some n⟩ :: decode rest := by
  unfold code? at h
  split at h
  · rw [decode.eq_def]
    simp [h]
  · rw [decode.eq_def]
    simp [h, pair?_eq_none_of_lead (lead_of_triple? h)]
  · have hlead := lead_of_quad? h
    rw [decode.eq_def]
    simp [h, pair?_eq_none_of_lead (UInt8.le_trans (by decide) hlead),
      triple?_eq_none_of_lead hlead]
  · cases h

/-- A byte that starts no well-formed sequence is a glyph of its own. -/
theorem decode_cons {a : UInt8} {u : Text} (h : ∀ w, w <+: u → code? (a :: w) = none) :
    decode (a :: u) = single a :: decode u := by
  rw [decode.eq_def]
  rcases u with _ | ⟨b, _ | ⟨c, _ | ⟨d, rest⟩⟩⟩
  · rfl
  · have h₂ : pair? a b = none := h [b] (by simp)
    simp [h₂]
  · have h₂ : pair? a b = none := h [b] (by simp)
    have h₃ : triple? a b c = none := h [b, c] (by simp)
    simp [h₂, h₃]
  · have h₂ : pair? a b = none := h [b] (by simp)
    have h₃ : triple? a b c = none := h [b, c] (by simp)
    have h₄ : quad? a b c d = none := h [b, c, d] (by simp)
    simp [h₂, h₃, h₄]

/-- Induction along the glyphs of a text. -/
theorem glyph_induction {P : Text → Prop} (nil : P [])
    (sequence : ∀ a w n v, code? (a :: w) = some n → P v → P (a :: w ++ v))
    (byte : ∀ a u, (∀ w, w <+: u → code? (a :: w) = none) → P u → P (a :: u)) :
    ∀ t, P t
  | [] => nil
  | a :: u => by
    by_cases h : ∃ w, w <+: u ∧ (code? (a :: w)).isSome
    · obtain ⟨w, ⟨v, rfl⟩, hw⟩ := h
      obtain ⟨n, hn⟩ := Option.isSome_iff_exists.mp hw
      exact sequence a w n v hn (glyph_induction nil sequence byte v)
    · refine byte a u (fun w hw => ?_) (glyph_induction nil sequence byte u)
      by_contra hs
      exact h ⟨w, hw, Option.isSome_iff_ne_none.mpr hs⟩
  termination_by t => t.length

/-! ## Cutting a text between glyphs -/

/-- All bytes of a sequence but the first continue it. -/
theorem isContinuation_of_code? {a : UInt8} {w : Text} {n : Nat} (h : code? (a :: w) = some n) :
    ∀ b ∈ w, isContinuation b = true := by
  have hthree : ∀ b, isSecondOfThree a b = true → isContinuation b = true := by
    intro b hb
    simp only [isSecondOfThree, isContinuation] at hb ⊢
    grind
  have hfour : ∀ b, isSecondOfFour a b = true → isContinuation b = true := by
    intro b hb
    simp only [isSecondOfFour, isContinuation] at hb ⊢
    grind
  match w with
  | [] => simp
  | [b] => grind [code?, pair?]
  | [b, c] => grind [code?, triple?]
  | [b, c, d] => grind [code?, quad?]
  | _ :: _ :: _ :: _ :: _ => simp [code?] at h

/-- A byte that continues no sequence is a border between glyphs. -/
theorem decode_append {rest : Text} (h : ∀ b ∈ rest.head?, isContinuation b = false) (s : Text) :
    decode (s ++ rest) = decode s ++ decode rest := by
  induction s using glyph_induction with
  | nil => rfl
  | sequence a w n v hn ih =>
    rw [List.append_assoc, decode_code? hn, decode_code? hn, ih, List.cons_append]
  | byte a u hu ih =>
    have hlong : ∀ w, w <+: u ++ rest → code? (a :: w) = none := by
      intro w hw
      rcases List.prefix_or_prefix_of_prefix hw (List.prefix_append u rest) with hw' | ⟨x, rfl⟩
      · exact hu w hw'
      · -- `w` reaches into `rest`, whose first byte belongs to no sequence that began before it
        rw [List.prefix_append_right_inj] at hw
        obtain ⟨y, rfl⟩ := hw
        rcases x with _ | ⟨b, x⟩
        · exact hu _ (by simp)
        · rcases hc : code? (a :: (u ++ b :: x)) with _ | n
          · rfl
          · have hb := isContinuation_of_code? hc b (by simp)
            rw [h b (by simp)] at hb
            cases hb
    rw [List.cons_append, decode_cons hlong, decode_cons hu, ih, List.cons_append]

theorem decode_ascii_cons {a : UInt8} (h : a < 0x80) (u : Text) :
    decode (a :: u) = single a :: decode u := by
  apply decode_cons
  intro w _
  have hlow : ∀ b : UInt8, 0x80 ≤ b → ¬ b ≤ a := fun b hb hba =>
    UInt8.not_lt.mpr hb (UInt8.lt_of_le_of_lt hba h)
  match w with
  | [] => rfl
  | [b] => simp [code?, pair?, hlow 0xC2 (by decide)]
  | [b, c] => simp [code?, triple?, hlow 0xE0 (by decide)]
  | [b, c, d] => simp [code?, quad?, hlow 0xF0 (by decide)]
  | _ :: _ :: _ :: _ :: _ => rfl

theorem decode_ne_nil {t : Text} (h : t ≠ []) : decode t ≠ [] := by
  intro hnil
  apply h
  rw [← bytes_decode t, hnil]
  rfl

end Utf8

namespace Text

open Utf8

/-! ## Fields -/

/-- No glyph of the text is a blank. -/
def Solid (t : Text) : Prop := ∀ g ∈ decode t, g.isBlank = false

theorem stretches_cons_of_blank {g : Glyph} (h : g.isBlank = true) (gs : List Glyph) :
    stretches (g :: gs) = [] :: stretches gs := by
  rw [stretches, if_pos h]

theorem stretches_cons_of_not_blank {g : Glyph} {gs : List Glyph} {s : Text} {ss : List Text}
    (h : g.isBlank = false) (hs : stretches gs = s :: ss) :
    stretches (g :: gs) = (g.bytes ++ s) :: ss := by
  rw [stretches, if_neg (by simp [h]), hs]

/-- Glyphs without blanks are one stretch, up to the next blank or the end. -/
theorem stretches_append {gs hs : List Glyph} {s : Text} {ss : List Text}
    (h : ∀ g ∈ gs, g.isBlank = false) (hss : stretches hs = s :: ss) :
    stretches (gs ++ hs) = (bytes gs ++ s) :: ss := by
  induction gs with
  | nil => simpa [bytes] using hss
  | cons g gs ih =>
    have hgs := ih fun g' hg' => h g' (by simp [hg'])
    rw [List.cons_append, stretches_cons_of_not_blank (h g (by simp)) hgs]
    simp [bytes]

/-- The stretches of a text hold no blanks when they are decoded on their own. The first one is a
prefix of the text, which carries the induction over a byte that starts no sequence. -/
def SolidStretches (t : Text) : Prop :=
  ∃ s ss, stretches (decode t) = s :: ss ∧ s <+: t ∧ ∀ u ∈ s :: ss, Solid u

/-- One more glyph in front, if it is decoded before every prefix of what follows. -/
theorem SolidStretches.cons {g : Glyph} {v : Text}
    (hg : ∀ s, s <+: v → decode (g.bytes ++ s) = g :: decode s) (hv : SolidStretches v) :
    SolidStretches (g.bytes ++ v) := by
  obtain ⟨s, ss, hs, hpre, hsolid⟩ := hv
  unfold SolidStretches
  rw [hg v (List.prefix_refl v)]
  rcases hb : g.isBlank with _ | _
  · refine ⟨_, _, stretches_cons_of_not_blank hb hs, ?_, ?_⟩
    · exact (List.prefix_append_right_inj _).mpr hpre
    · intro u hu
      rcases List.mem_cons.mp hu with rfl | hu
      · intro g' hg'
        rw [hg s hpre] at hg'
        rcases List.mem_cons.mp hg' with rfl | hg'
        · exact hb
        · exact hsolid s (by simp) g' hg'
      · exact hsolid u (by simp [hu])
  · refine ⟨_, _, stretches_cons_of_blank hb _, List.nil_prefix, ?_⟩
    rw [hs]
    intro u hu
    rcases List.mem_cons.mp hu with rfl | hu
    · simp [Solid, decode]
    · exact hsolid u hu

theorem solidStretches (t : Text) : SolidStretches t := by
  induction t using glyph_induction with
  | nil => exact ⟨[], [], rfl, List.prefix_refl _, by simp [Solid, decode]⟩
  | sequence a w n v hn ih =>
    exact SolidStretches.cons (g := ⟨a :: w, some n⟩) (fun s _ => decode_code? hn s) ih
  | byte a u hu ih =>
    refine SolidStretches.cons (g := single a) (fun s hs => ?_) ih
    exact decode_cons fun w hw => hu w (hw.trans hs)

/-- A field is not empty and holds no blank. -/
theorem solid_of_mem_fields {t f : Text} (h : f ∈ fields t) : f ≠ [] ∧ Solid f := by
  obtain ⟨hf, hne⟩ := List.mem_filter.mp h
  obtain ⟨s, ss, hs, -, hsolid⟩ := solidStretches t
  rw [hs] at hf
  exact ⟨by simpa using hne, hsolid f hf⟩

theorem Solid.stretches {f : Text} (h : Solid f) : stretches (decode f) = [f] := by
  have hend : Text.stretches [] = [[]] := rfl
  simpa [bytes_decode] using stretches_append h hend

theorem join_singleton (sep t : Text) : join sep [t] = t := by
  simp [join, List.intercalate]

theorem join_cons_cons (sep t t' : Text) (ts : List Text) :
    join sep (t :: t' :: ts) = t ++ sep ++ join sep (t' :: ts) := by
  simp [join, List.intercalate]

/-- A space is a glyph of its own between any two texts. -/
theorem decode_append_space (s t : Text) :
    decode (s ++ [32] ++ t) = decode s ++ single 32 :: decode t := by
  rw [List.append_assoc, List.singleton_append, decode_append (by simp [isContinuation]) s,
    decode_ascii_cons (by decide)]

/-- A text without blanks is the first stretch of a text in which a space follows it. -/
theorem Solid.stretches_append_space {f : Text} (h : Solid f) (t : Text) :
    Text.stretches (decode (f ++ [32] ++ t)) = f :: Text.stretches (decode t) := by
  have hblank : (single 32).isBlank = true := by decide
  rw [decode_append_space, stretches_append h (stretches_cons_of_blank hblank _), bytes_decode,
    List.append_nil]

/-- The stretches of a joined text are the texts that were joined, if these hold no blanks. -/
theorem stretches_join {fs : List Text} (hne : fs ≠ []) (h : ∀ f ∈ fs, Solid f) :
    stretches (decode (join [32] fs)) = fs := by
  match fs, h with
  | [], _ => exact absurd rfl hne
  | [f], h =>
    rw [join_singleton]
    exact (h f (by simp)).stretches
  | f :: f' :: fs, h =>
    rw [join_cons_cons, (h f (by simp)).stretches_append_space,
      stretches_join (List.cons_ne_nil _ _) fun x hx => h x (by simp [hx])]

theorem fields_join {fs : List Text} (h : ∀ f ∈ fs, f ≠ [] ∧ Solid f) :
    fields (join [32] fs) = fs := by
  by_cases hne : fs = []
  · subst hne
    rfl
  · rw [fields, stretches_join hne fun f hf => (h f hf).2, List.filter_eq_self]
    intro f hf
    simpa using (h f hf).1

theorem mem_of_mem_stretches {gs : List Glyph} {s : Text} (hs : s ∈ stretches gs) {b : UInt8}
    (hb : b ∈ s) : b ∈ bytes gs := by
  have hcons : ∀ (g : Glyph) gs, b ∈ bytes (g :: gs) ↔ b ∈ g.bytes ∨ b ∈ bytes gs :=
    fun _ _ => List.mem_append
  fun_induction stretches gs generalizing s with
  | case1 => simp_all
  | case2 g gs hg ih =>
    rcases List.mem_cons.mp hs with rfl | hs
    · simp at hb
    · exact (hcons g gs).mpr (Or.inr (ih hs hb))
  | case3 g gs hg s' ss hss ih =>
    rw [hcons]
    rcases List.mem_cons.mp hs with rfl | hs
    · exact (List.mem_append.mp hb).imp_right (ih (by simp [hss]))
    · exact Or.inr (ih (by simp [hss, hs]) hb)
  | case4 g gs hg hss ih =>
    rw [List.mem_singleton.mp hs] at hb
    exact (hcons g gs).mpr (Or.inl hb)

theorem mem_of_mem_fields {t f : Text} (hf : f ∈ fields t) {b : UInt8} (hb : b ∈ f) : b ∈ t := by
  rw [← bytes_decode t]
  exact mem_of_mem_stretches (List.mem_filter.mp hf).1 hb

theorem mem_join {sep : Text} {ts : List Text} {b : UInt8} (h : b ∈ join sep ts) :
    b ∈ sep ∨ ∃ t ∈ ts, b ∈ t := by
  induction ts with
  | nil => simp [join, List.intercalate] at h
  | cons t ts ih =>
    rcases ts with _ | ⟨t', ts⟩
    · rw [join_singleton] at h
      exact Or.inr ⟨t, by simp, h⟩
    · rw [join_cons_cons, List.append_assoc, List.mem_append, List.mem_append] at h
      rcases h with h | h | h
      · exact Or.inr ⟨t, by simp, h⟩
      · exact Or.inl h
      · rcases ih h with h | ⟨t'', ht, hb⟩
        · exact Or.inl h
        · exact Or.inr ⟨t'', by simp [ht], hb⟩

end Text

namespace Line

/-! ## Lines -/

theorem fields_normalize (line : Text) : (normalize line).fields = line.fields :=
  Text.fields_join fun _ h => Text.solid_of_mem_fields h

@[simp] theorem normalize_normalize (line : Text) :
    normalize (normalize line) = normalize line := by
  rw [normalize, fields_normalize]
  rfl

@[simp] theorem normalize_nil : normalize [] = [] := rfl

theorem mem_normalize {line : Text} {b : UInt8} (h : b ∈ normalize line) : b = 32 ∨ b ∈ line := by
  rcases Text.mem_join h with h | ⟨f, hf, hb⟩
  · exact Or.inl (List.mem_singleton.mp h)
  · exact Or.inr (Text.mem_of_mem_fields hf hb)

@[simp] theorem role_normalize (line : Text) : role (normalize line) = role line := by
  simp [role]

@[simp] theorem role_nil : role [] = .blank := by decide

theorem role_eq_statement_iff {line : Text} :
    role line = .statement ↔ isImport (normalize line) = true := by
  unfold role
  split_ifs <;> simp_all

theorem role_ne_statement_iff {line : Text} :
    role line ≠ .statement ↔ isImport (normalize line) = false := by
  rw [Ne, role_eq_statement_iff, Bool.not_eq_true]

theorem role_eq_blank_iff {line : Text} : role line = .blank ↔ normalize line = [] := by
  have hempty : isImport [] = false := by decide
  unfold role
  split_ifs with h h'
  · have hne : normalize line ≠ [] := fun e => by simp [e, hempty] at h
    simp [hne]
  · simpa using h'
  · simpa using h'

theorem role_eq_code_iff {line : Text} :
    role line = .code ↔ isImport (normalize line) = false ∧ normalize line ≠ [] := by
  unfold role
  split_ifs <;> simp_all

end Line

end ImportBlock
