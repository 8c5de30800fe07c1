import Minutes.Proofs.Text.Words
import Minutes.Roster.Participant

/-!
Small letters. What is lowered stays as it is when it is lowered again, and white space is neither
made nor lost, so that a text may be lowered as a whole or word by word.
-/
namespace Minutes.Text

/-- The capitals of the table lie outside ASCII, and their small letters are characters, of which
only the k of the kelvin sign is in ASCII. -/
theorem caseRanges_bounds : ∀ r ∈ caseRanges, 0x80 ≤ r.first ∧
    (r.target + (r.last - r.first) < 0xD800 ∨
      0xDFFF < r.target ∧ r.target + (r.last - r.first) < 0x110000) ∧
    (0x80 ≤ r.target ∨ r.first = r.last ∧ r.target = 0x6B) ∧
    (r.target + (r.last - r.first) < 0x130 ∨ 0x130 < r.target) := by
  decide +kernel

/-- The capitals of a range, or its small letters, from the first of them on. -/
def CaseRange.codes (r : CaseRange) (first : Nat) : List (Nat × Nat) :=
  if r.step = 1 then [(first, first + (r.last - r.first))]
  else (List.range' first ((r.last - r.first) / r.step + 1) r.step).map fun n => (n, n)

def capitalRanges : List (Nat × Nat) := caseRanges.flatMap fun r => r.codes r.first

def smallRanges : List (Nat × Nat) := caseRanges.flatMap fun r => r.codes r.target

theorem smallRanges_apart_capitalRanges :
    tableMask smallRanges &&& tableMask capitalRanges = 0 := by
  decide +kernel

/-- White space is in none of the other tables. -/
theorem blankRanges_apart :
    ∀ others ∈ [capitalRanges, smallRanges, casedRanges, caseIgnorableRanges],
      tableMask blankRanges &&& tableMask others = 0 := by
  decide +kernel

theorem CaseRange.lower?_eq_some_iff {r : CaseRange} {n m : Nat} :
    r.lower? n = some m ↔
      (r.first ≤ n ∧ n ≤ r.last ∧ (n - r.first) % r.step = 0) ∧ m = r.target + (n - r.first) := by
  unfold lower?
  split_ifs with h
  · simp [h, eq_comm]
  · simp [h]

theorem CaseRange.exists_code {r : CaseRange} {k : Nat} (hk : k ≤ r.last - r.first)
    (hstep : k % r.step = 0) (first : Nat) :
    ∃ code ∈ r.codes first, code.1 ≤ first + k ∧ first + k ≤ code.2 := by
  unfold codes
  split_ifs
  · exact ⟨_, List.mem_singleton_self _, Nat.le_add_right _ _, Nat.add_le_add_left hk first⟩
  · have hmem : first + k ∈ List.range' first ((r.last - r.first) / r.step + 1) r.step := by
      refine List.mem_range'.mpr ⟨k / r.step, Nat.lt_succ_of_le (Nat.div_le_div_right hk), ?_⟩
      rw [Nat.mul_div_cancel' (Nat.dvd_of_mod_eq_zero hstep)]
    exact ⟨_, List.mem_map_of_mem hmem, le_rfl, le_rfl⟩

/-- What a range lowers is among the capitals, and what it is lowered to among the small letters. -/
theorem exists_codes_of_lower? {r : CaseRange} (hr : r ∈ caseRanges) {n m : Nat}
    (h : r.lower? n = some m) : (∃ code ∈ capitalRanges, code.1 ≤ n ∧ n ≤ code.2) ∧
      ∃ code ∈ smallRanges, code.1 ≤ m ∧ m ≤ code.2 := by
  obtain ⟨⟨hfirst, hlast, hstep⟩, rfl⟩ := CaseRange.lower?_eq_some_iff.mp h
  have hk : n - r.first ≤ r.last - r.first := Nat.sub_le_sub_right hlast r.first
  obtain ⟨capital, hc, hcapital⟩ := CaseRange.exists_code hk hstep r.first
  obtain ⟨small, hs, hsmall⟩ := CaseRange.exists_code hk hstep r.target
  rw [Nat.add_sub_cancel' hfirst] at hcapital
  exact ⟨⟨capital, List.mem_flatMap_of_mem hr hc, hcapital⟩,
    small, List.mem_flatMap_of_mem hr hs, hsmall⟩

/-- A small letter of the table has itself as its small letter. -/
theorem lower?_of_lower? {n m : Nat} (h : caseRanges.findSome? (·.lower? n) = some m) :
    caseRanges.findSome? (·.lower? m) = none := by
  obtain ⟨r, hr, hm⟩ := List.exists_of_findSome?_eq_some h
  rw [List.findSome?_eq_none_iff]
  intro s hs
  by_contra hsome
  obtain ⟨k, hk⟩ := Option.ne_none_iff_exists'.mp hsome
  exact not_exists_range_of_apart smallRanges_apart_capitalRanges (exists_codes_of_lower? hr hm).2
    (exists_codes_of_lower? hs hk).1

theorem toNat_ofNat {n : Nat} (h : n.isValidChar) : (Char.ofNat n).toNat = n := by
  rw [Char.ofNat, dif_pos h]
  rfl

theorem of_forall_ascii {p : Char → Prop} (h : ∀ n < 0x80, p (Char.ofNat n)) {c : Char}
    (hc : c.toNat < 0x80) : p c := by
  have hp := h c.toNat hc
  rwa [Char.ofNat_toNat] at hp

/-- How a character is lowered: in ASCII, as the dotted capital, by the table, or not at all. -/
theorem lowerChar_cases (c : Char) :
    c.toNat < 0x80 ∧ lowerChar c = [c.toLower] ∨
    c = 'İ' ∧ lowerChar c = ['i', Char.ofNat 0x307] ∨
    (∃ r ∈ caseRanges, ∃ d : Char, lowerChar c = [d] ∧ r.lower? c.toNat = some d.toNat ∧
      lowerChar d = [d]) ∨
    lowerChar c = [c] ∧ ∀ r ∈ caseRanges, r.lower? c.toNat = none := by
  by_cases hc : c.toNat < 0x80
  · exact .inl ⟨hc, by rw [lowerChar, if_pos hc]⟩
  by_cases hdotted : c = 'İ'
  · exact .inr (.inl ⟨hdotted, by rw [lowerChar, if_neg hc, if_pos hdotted]⟩)
  cases hm : caseRanges.findSome? (·.lower? c.toNat) with
  | none =>
    refine .inr (.inr (.inr ⟨?_, List.findSome?_eq_none_iff.mp hm⟩))
    rw [lowerChar, if_neg hc, if_neg hdotted, hm]
  | some m =>
    obtain ⟨r, hr, hlower⟩ := List.exists_of_findSome?_eq_some hm
    obtain ⟨⟨hfirst, hlast, -⟩, hmr⟩ := CaseRange.lower?_eq_some_iff.mp hlower
    obtain ⟨-, hchar, hsmall, hdot⟩ := caseRanges_bounds r hr
    have hcode : (Char.ofNat m).toNat = m := by
      apply toNat_ofNat
      unfold Nat.isValidChar
      omega
    refine .inr (.inr (.inl ⟨r, hr, Char.ofNat m, ?_, hcode.symm ▸ hlower, ?_⟩))
    · rw [lowerChar, if_neg hc, if_neg hdotted, hm]
    rcases hsmall with hbig | ⟨hone, hk⟩
    · have hne : Char.ofNat m ≠ 'İ' := by
        intro he
        have hm' : m = 0x130 := hcode.symm.trans (congrArg Char.toNat he)
        omega
      have hout : ¬ (Char.ofNat m).toNat < 0x80 := by omega
      rw [lowerChar, if_neg hout, if_neg hne, hcode, lower?_of_lower? hm]
    · obtain rfl : m = 0x6B := by omega
      decide

/-- A character is lowered to characters that lowering leaves as they are. -/
theorem lowerChar_of_mem_lowerChar {c d : Char} (h : d ∈ lowerChar c) : lowerChar d = [d] := by
  rcases lowerChar_cases c with ⟨hc, hl⟩ | ⟨-, hl⟩ | ⟨-, -, e, hl, -, he⟩ | ⟨hl, -⟩
  · obtain rfl := List.mem_singleton.mp (hl ▸ h)
    exact of_forall_ascii (p := fun c => lowerChar c.toLower = [c.toLower]) (by decide) hc
  · have hdots : ∀ d ∈ ['i', Char.ofNat 0x307], lowerChar d = [d] :=
      List.forall_mem_cons.mpr ⟨by decide, List.forall_mem_singleton.mpr (by decide)⟩
    exact hdots d (hl ▸ h)
  · obtain rfl := List.mem_singleton.mp (hl ▸ h)
    exact he
  · obtain rfl := List.mem_singleton.mp (hl ▸ h)
    exact hl

/-- White space is lowered to itself. -/
theorem lowerChar_of_isBlank {c : Char} (h : isBlank c = true) : lowerChar c = [c] := by
  rcases lowerChar_cases c with ⟨hc, hl⟩ | ⟨rfl, -⟩ | ⟨r, hr, _, -, hlower, -⟩ | ⟨hl, -⟩
  · have hlower : c.toLower = c :=
      of_forall_ascii (p := fun c => isBlank c = true → c.toLower = c) (by decide) hc h
    rw [hl, hlower]
  · exact absurd h (by decide)
  · have hapart := blankRanges_apart capitalRanges (by simp)
    exact absurd (exists_codes_of_lower? hr hlower).1
      (not_exists_range_of_apart hapart (inRanges_iff.mp h))
  · exact hl

/-- Only white space is lowered to white space. -/
theorem isBlank_of_mem_lowerChar {c d : Char} (hc : isBlank c = false) (h : d ∈ lowerChar c) :
    isBlank d = false := by
  rcases lowerChar_cases c with ⟨hsmall, hl⟩ | ⟨-, hl⟩ | ⟨r, hr, e, hl, hlower, -⟩ | ⟨hl, -⟩
  · obtain rfl := List.mem_singleton.mp (hl ▸ h)
    exact of_forall_ascii (p := fun c => isBlank c = false → isBlank c.toLower = false)
      (by decide) hsmall hc
  · have hdots : ∀ d ∈ ['i', Char.ofNat 0x307], isBlank d = false :=
      List.forall_mem_cons.mpr ⟨by decide, List.forall_mem_singleton.mpr (by decide)⟩
    exact hdots d (hl ▸ h)
  · obtain rfl := List.mem_singleton.mp (hl ▸ h)
    rw [← Bool.not_eq_true, isBlank, inRanges_iff]
    intro hblank
    have hapart := blankRanges_apart smallRanges (by simp)
    exact not_exists_range_of_apart hapart hblank (exists_codes_of_lower? hr hlower).2
  · obtain rfl := List.mem_singleton.mp (hl ▸ h)
    exact hc

theorem lowerChar_ne_nil (c : Char) : lowerChar c ≠ [] := by
  rcases lowerChar_cases c with ⟨-, hl⟩ | ⟨-, hl⟩ | ⟨_, _, _, hl, _⟩ | ⟨hl, -⟩ <;> simp [hl]

/-- What a lowered text is made of, apart from the two small forms of sigma. -/
theorem mem_lowerAfter {before s : List Char} {d : Char} (h : d ∈ lowerAfter before s) :
    d ∈ ['ς', 'σ'] ∨ ∃ c ∈ s, d ∈ lowerChar c := by
  induction s generalizing before with
  | nil => cases h
  | cons c s ih =>
    rw [lowerAfter] at h
    rcases List.mem_append.mp h with h | h
    · split_ifs at h
      · obtain rfl := List.mem_singleton.mp h
        refine .inl ?_
        unfold lowerSigma
        split_ifs <;> simp
      · exact .inr ⟨c, List.mem_cons_self, h⟩
    · exact (ih h).imp_right fun ⟨e, he, hd⟩ => ⟨e, List.mem_cons_of_mem c he, hd⟩

theorem lowerChar_of_mem_lowered {s : List Char} {d : Char} (h : d ∈ lowered s) :
    lowerChar d = [d] := by
  rcases mem_lowerAfter h with h | ⟨c, -, h⟩
  · have hsigmas : ∀ d ∈ ['ς', 'σ'], lowerChar d = [d] :=
      List.forall_mem_cons.mpr ⟨by decide, List.forall_mem_singleton.mpr (by decide)⟩
    exact hsigmas d h
  · exact lowerChar_of_mem_lowerChar h

theorem lowerAfter_of_small {s : List Char} (h : ∀ c ∈ s, lowerChar c = [c]) (before : List Char) :
    lowerAfter before s = s := by
  induction s generalizing before with
  | nil => rfl
  | cons c s ih =>
    have hc := h c List.mem_cons_self
    have hsigma : c ≠ 'Σ' := by
      rintro rfl
      exact absurd hc (by decide)
    rw [lowerAfter, if_neg hsigma, hc, ih fun d hd => h d (List.mem_cons_of_mem c hd)]
    rfl

/-- What is lowered stays as it is. -/
@[simp] theorem lowered_lowered (s : List Char) : lowered (lowered s) = lowered s :=
  lowerAfter_of_small (fun _ hd => lowerChar_of_mem_lowered hd) []

/-- White space ends a word, also for the letters that look beyond their neighbours. -/
theorem startsCased_append_cons {c : Char} (hc : isBlank c = true) (s t : List Char) :
    startsCased (s ++ c :: t) = startsCased s := by
  have hcased : isCased c = false :=
    inRanges_eq_false_of_apart (blankRanges_apart casedRanges (by simp)) hc
  have hignorable : isCaseIgnorable c = false :=
    inRanges_eq_false_of_apart (blankRanges_apart caseIgnorableRanges (by simp)) hc
  unfold startsCased
  induction s with
  | nil => simp [hcased, hignorable]
  | cons d s ih => by_cases hd : isCaseIgnorable d = true <;> simp [hd, ih]

theorem lowerAfter_append_cons {c : Char} (hc : isBlank c = true) (before s t : List Char) :
    lowerAfter before (s ++ c :: t) =
      lowerAfter before s ++ lowerAfter (s.reverse ++ before) (c :: t) := by
  induction s generalizing before with
  | nil => rfl
  | cons d s ih =>
    have hsigma : lowerSigma before (s ++ c :: t) = lowerSigma before s := by
      rw [lowerSigma, lowerSigma, startsCased_append_cons hc]
    rw [List.cons_append, lowerAfter, lowerAfter, hsigma, ih, List.append_assoc]
    simp

theorem lowerAfter_append_cons_before {c : Char} (hc : isBlank c = true) (u before t : List Char) :
    lowerAfter (u ++ c :: before) t = lowerAfter u t := by
  induction t generalizing u with
  | nil => rfl
  | cons d t ih =>
    have hsigma : lowerSigma (u ++ c :: before) t = lowerSigma u t := by
      rw [lowerSigma, lowerSigma, startsCased_append_cons hc]
    rw [lowerAfter, lowerAfter, hsigma, ← ih (d :: u)]
    rfl

/-- White space parts a text into two that are lowered each on its own. -/
theorem lowered_append_cons {c : Char} (hc : isBlank c = true) (s t : List Char) :
    lowered (s ++ c :: t) = lowered s ++ c :: lowered t := by
  have hsigma : c ≠ 'Σ' := by
    rintro rfl
    exact absurd hc (by decide)
  rw [lowered, lowerAfter_append_cons hc, lowerAfter, if_neg hsigma, lowerChar_of_isBlank hc]
  exact congrArg (lowered s ++ c :: ·) (lowerAfter_append_cons_before hc [] _ t)

theorem isWord_lowered {w : List Char} (h : IsWord w) : IsWord (lowered w) := by
  constructor
  · obtain ⟨c, s, rfl⟩ := List.exists_cons_of_ne_nil h.1
    rw [lowered, lowerAfter]
    split_ifs
    · simp
    · simp [lowerChar_ne_nil]
  · intro d hd
    rcases mem_lowerAfter hd with hd | ⟨c, hc, hd⟩
    · have hsigmas : ∀ d ∈ ['ς', 'σ'], isBlank d = false :=
        List.forall_mem_cons.mpr ⟨by decide, List.forall_mem_singleton.mpr (by decide)⟩
      exact hsigmas d hd
    · exact isBlank_of_mem_lowerChar (h.2 c hc) hd

/-- Lowered as a whole or word by word, a text has the same words. -/
theorem words_lowered (s : List Char) : words (lowered s) = (words s).map lowered := by
  have hrun (w : List Char) (hw : ∀ c ∈ w, isBlank c = false) :
      words (lowered w) = (words w).map lowered := by
    by_cases hne : w = []
    · simp [hne, lowered, lowerAfter]
    · rw [words_of_isWord ⟨hne, hw⟩, words_of_isWord (isWord_lowered ⟨hne, hw⟩)]
      rfl
  -- the first word grows by one character at a time, until white space ends it
  suffices h : ∀ w : List Char, (∀ c ∈ w, isBlank c = false) →
      words (lowered (w ++ s)) = (words (w ++ s)).map lowered from h [] (by simp)
  induction s with
  | nil =>
    intro w hw
    rw [List.append_nil]
    exact hrun w hw
  | cons c s ih =>
    intro w hw
    cases hc : isBlank c with
    | true =>
      have hs := ih [] (by simp)
      rw [List.nil_append] at hs
      rw [lowered_append_cons hc, words_append_cons hc, words_append_cons hc, hrun w hw, hs,
        List.map_append]
    | false =>
      have hnext : ∀ d ∈ w ++ [c], isBlank d = false := by
        simpa [or_imp, forall_and] using ⟨hw, hc⟩
      simpa using ih (w ++ [c]) hnext

end Minutes.Text

namespace Minutes

@[simp] theorem lowerCase_lowerCase (s : String) : lowerCase (lowerCase s) = lowerCase s := by
  simp [lowerCase]

theorem words_lowerCase (s : String) : words (lowerCase s) = (words s).map lowerCase := by
  simp [words, lowerCase, Text.words_lowered, Function.comp_def]

@[simp] theorem words_trim (s : String) : words (trim s) = words s := by
  simp [words]

end Minutes
