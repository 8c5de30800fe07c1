import Minutes.Text.Label
import Mathlib.Tactic

/-!
Labels that are read without regard to case. A text begins with at most one of several labels if
none of them begins another.
-/
namespace Minutes.Text
open scoped List

/-- A text is a label, given in small letters, in either case. -/
def Folds (label s : List Char) : Prop := List.Forall₂ (fun l c => foldsTo l c = true) label s

/-- Labels in ASCII none of which begins another. -/
structure Apart (labels : List String) : Prop where
  eq_of_isPrefix : ∀ a ∈ labels, ∀ b ∈ labels, a.toList <+: b.toList → a = b
  ascii : ∀ a ∈ labels, ∀ l ∈ a.toList, l.toNat < 128

theorem foldsTo_iff {l c : Char} :
    foldsTo l c = true ↔
      c.toLower = l ∨ (l = 's' ∧ c = 'ſ') ∨ (l = 'k' ∧ c = Char.ofNat 0x212A) := by
  simp [foldsTo, or_assoc]

/-- No character stands for two letters. -/
theorem foldsTo_unique {l l' c : Char} (hl : l.toNat < 128) (hl' : l'.toNat < 128)
    (h : foldsTo l c = true) (h' : foldsTo l' c = true) : l = l' := by
  rw [foldsTo_iff] at h h'
  have hs : ¬ ('ſ'.toLower).toNat < 128 := by decide
  have hk : ¬ ((Char.ofNat 0x212A).toLower).toNat < 128 := by decide
  have hsk : 'ſ' ≠ Char.ofNat 0x212A := by decide
  rcases h with rfl | ⟨rfl, rfl⟩ | ⟨rfl, rfl⟩
  · rcases h' with h' | ⟨-, rfl⟩ | ⟨-, rfl⟩
    · exact h'
    · exact absurd hl hs
    · exact absurd hl hk
  · rcases h' with rfl | ⟨rfl, -⟩ | ⟨-, h'⟩
    · exact absurd hl' hs
    · rfl
    · exact absurd h' hsk
  · rcases h' with rfl | ⟨-, h'⟩ | ⟨rfl, -⟩
    · exact absurd hl' hk
    · exact absurd h'.symm hsk
    · rfl

theorem afterLabelChars?_eq_some_iff {label s rest : List Char} :
    afterLabelChars? label s = some rest ↔ ∃ head, s = head ++ rest ∧ Folds label head := by
  constructor
  · intro h
    fun_induction afterLabelChars? label s with
    | case1 s =>
      obtain rfl := Option.some.inj h
      exact ⟨[], rfl, .nil⟩
    | case2 => cases h
    | case3 l label c s hc ih =>
      obtain ⟨head, rfl, hhead⟩ := ih h
      exact ⟨c :: head, rfl, .cons hc hhead⟩
    | case4 => cases h
  · rintro ⟨head, rfl, hhead⟩
    induction hhead with
    | nil => simp [afterLabelChars?]
    | cons hc _ ih => simpa [afterLabelChars?, hc] using ih

theorem folds_of_map_toLower {label s : List Char} (h : s.map Char.toLower = label) :
    Folds label s := by
  subst h
  exact List.forall₂_map_left_iff.mpr (List.forall₂_same.mpr fun c _ => foldsTo_iff.mpr (.inl rfl))

/-- But for the long s and the kelvin sign, a label is read from its ASCII letters alone. -/
theorem Folds.map_toLower {label s : List Char} (h : Folds label s) (hk : 'k' ∉ label)
    (hs : 'ſ' ∉ s) : s.map Char.toLower = label := by
  induction h with
  | nil => rfl
  | @cons l c label s hc _ ih =>
    rw [List.mem_cons, not_or] at hk hs
    have hlower : c.toLower = l := by
      rcases foldsTo_iff.mp hc with hc | ⟨-, hc⟩ | ⟨hl, -⟩
      · exact hc
      · exact absurd hc.symm hs.1
      · exact absurd hl.symm hk.1
    rw [List.map_cons, hlower, ih hk.2 hs.2]

theorem Folds.getLast? {label s : List Char} (h : Folds label s) {l : Char}
    (hl : label.getLast? = some l) : ∃ c, s.getLast? = some c ∧ foldsTo l c = true := by
  induction h with
  | nil => cases hl
  | cons hc hrest ih =>
    cases hrest with
    | nil =>
      obtain rfl := Option.some.inj hl
      exact ⟨_, rfl, hc⟩
    | cons => exact ih hl

/-- If one of two labels begins the text that the other is, it begins the other. -/
theorem Folds.isPrefix {label label' s s' : List Char} (h : Folds label s) (h' : Folds label' s')
    (hs : s <+: s') (hlabel : ∀ l ∈ label, l.toNat < 128) (hlabel' : ∀ l ∈ label', l.toNat < 128) :
    label <+: label' := by
  induction h generalizing label' s' with
  | nil => exact List.nil_prefix
  | cons hc _ ih =>
    obtain ⟨rest, rfl⟩ := hs
    obtain ⟨l', label', hc', hrest, rfl⟩ := List.forall₂_cons_right_iff.mp h'
    obtain ⟨hl, hlabel⟩ := List.forall_mem_cons.mp hlabel
    obtain ⟨hl', hlabel'⟩ := List.forall_mem_cons.mp hlabel'
    rw [foldsTo_unique hl hl' hc hc', List.prefix_cons_inj]
    exact ih hrest (List.prefix_append _ rest) hlabel hlabel'

/-- A text begins with one label, and in one way. -/
theorem Apart.eq_of_folds {labels : List String} (hlabels : Apart labels) {a b : String}
    (ha : a ∈ labels) (hb : b ∈ labels) {s s' rest rest' : List Char} (h : Folds a.toList s)
    (h' : Folds b.toList s') (hs : s ++ rest = s' ++ rest') : a = b ∧ s = s' ∧ rest = rest' := by
  have hab : a = b := by
    rcases List.prefix_or_prefix_of_prefix (List.prefix_append s rest)
      (hs ▸ List.prefix_append s' rest') with hp | hp
    · exact hlabels.eq_of_isPrefix a ha b hb
        (h.isPrefix h' hp (hlabels.ascii a ha) (hlabels.ascii b hb))
    · exact (hlabels.eq_of_isPrefix b hb a ha
        (h'.isPrefix h hp (hlabels.ascii b hb) (hlabels.ascii a ha))).symm
  have hlength : s.length = s'.length := by rw [← h.length_eq, ← h'.length_eq, hab]
  exact ⟨hab, List.append_inj hs hlength⟩

/-- What follows a label is told from the text alone. -/
theorem Apart.afterAnyLabel?_eq_some_iff {labels : List String} (hlabels : Apart labels)
    {s rest : List Char} :
    afterAnyLabel? labels s = some rest ↔
      ∃ label ∈ labels, ∃ head, s = head ++ rest ∧ Folds label.toList head := by
  constructor
  · intro h
    obtain ⟨label, hlabel, hafter⟩ := List.exists_of_findSome?_eq_some h
    exact ⟨label, hlabel, afterLabelChars?_eq_some_iff.mp hafter⟩
  · rintro ⟨label, hlabel, head, rfl, hhead⟩
    have hsome : (afterAnyLabel? labels (head ++ rest)).isSome = true := by
      rw [afterAnyLabel?, List.findSome?_isSome_iff]
      have hafter : afterLabel? label (head ++ rest) = some rest :=
        afterLabelChars?_eq_some_iff.mpr ⟨head, rfl, hhead⟩
      exact ⟨label, hlabel, by rw [hafter]; rfl⟩
    obtain ⟨rest', hrest'⟩ := Option.isSome_iff_exists.mp hsome
    obtain ⟨label', hlabel', hafter⟩ := List.exists_of_findSome?_eq_some hrest'
    obtain ⟨head', hs, hhead'⟩ := afterLabelChars?_eq_some_iff.mp hafter
    rw [hrest', (hlabels.eq_of_folds hlabel hlabel' hhead hhead' hs).2.2]

end Minutes.Text
