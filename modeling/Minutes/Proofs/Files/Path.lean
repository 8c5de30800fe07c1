import Minutes.Files.Store
import Mathlib.Tactic

/-!
The pieces of a path that is put together, and where they lead. A name that follows the path of a
folder is one step from that folder.
-/
namespace Minutes.Files

namespace Path

theorem pieces_append (p q : Path) : pieces (p ++ "/" ++ q) = pieces p ++ pieces q := by
  have hslash : (p ++ "/" ++ q).toList = p.toList ++ '/' :: q.toList := by simp
  rw [pieces, hslash, List.splitOn_append_cons_self, List.map_append]
  rfl

theorem pieces_of_notMem {name : Path} (h : '/' ∉ name.toList) : pieces name = [name] := by
  rw [pieces, List.splitOn_eq_singleton h]
  simp

theorem endsInSlash_iff {p : Path} : p.endsInSlash = true ↔ ∃ q : Path, p = q ++ "/" := by
  unfold endsInSlash
  rw [beq_iff_eq, List.getLast?_eq_some_iff]
  constructor
  · rintro ⟨s, hs⟩
    refine ⟨String.ofList s, String.toList_inj.mp ?_⟩
    simp [hs]
  · rintro ⟨q, rfl⟩
    exact ⟨q.toList, by simp⟩

/-- A path with a slash in it is put together from two others, the second of them a name. -/
theorem exists_append_of_mem {p : Path} (h : '/' ∈ p.toList) :
    ∃ q name : Path, p = q ++ "/" ++ name ∧ '/' ∉ name.toList := by
  obtain ⟨after, before, hsplit, hafter⟩ := List.eq_append_cons_of_mem (List.mem_reverse.mpr h)
  refine ⟨String.ofList before.reverse, String.ofList after.reverse, String.toList_inj.mp ?_, ?_⟩
  · have hp := congrArg List.reverse hsplit
    rw [List.reverse_reverse] at hp
    simp [hp]
  · simpa using hafter

/-- The last piece of a path is empty only if the path ends in a slash. -/
theorem getLast?_pieces_ne {p : Path} (hp : p ≠ "") (h : p.endsInSlash = false) :
    (pieces p).getLast? ≠ some "" := by
  intro hlast
  by_cases hs : '/' ∈ p.toList
  · obtain ⟨q, name, rfl, hname⟩ := exists_append_of_mem hs
    rw [pieces_append, pieces_of_notMem hname] at hlast
    obtain rfl : name = "" := by simpa using hlast
    have hslash := endsInSlash_iff.mpr ⟨q, String.append_empty⟩
    rw [h] at hslash
    cases hslash
  · rw [pieces_of_notMem hs] at hlast
    exact hp (by simpa using hlast)

theorem isAbsolute_of_notMem {name : Path} (h : '/' ∉ name.toList) : name.isAbsolute = false := by
  unfold isAbsolute
  rw [beq_eq_false_iff_ne]
  intro hhead
  exact h (List.mem_of_head? hhead)

theorem empty_join (p : Path) : join "" p = p := by
  rw [join, beq_self_eq_true, Bool.or_true, if_pos rfl]

theorem join_of_isAbsolute {p : Path} (h : p.isAbsolute = true) (folder : Path) :
    join folder p = p := by
  rw [join, h, Bool.true_or, if_pos rfl]

section
variable {folder name : Path}

theorem isAbsolute_join (hf : folder ≠ "") (hn : '/' ∉ name.toList) :
    (folder.join name).isAbsolute = folder.isAbsolute := by
  obtain ⟨c, s, hs⟩ := List.exists_cons_of_ne_nil (mt String.toList_eq_nil_iff.mp hf)
  simp only [join, isAbsolute_of_notMem hn, Bool.false_or, beq_iff_eq, hf, if_false]
  split_ifs <;> simp [isAbsolute, hs]

/-- A name after a path takes the place of the empty piece after a slash. -/
theorem pieces_join (hf : folder ≠ "") (hn : '/' ∉ name.toList) :
    ∃ names, pieces (folder.join name) = names ++ [name] ∧
      (pieces folder = names ∨ pieces folder = names ++ [""]) := by
  simp only [join, isAbsolute_of_notMem hn, Bool.false_or, beq_iff_eq, hf, if_false]
  split_ifs with hslash
  · obtain ⟨q, rfl⟩ := endsInSlash_iff.mp hslash
    refine ⟨pieces q, ?_, .inr ?_⟩
    · rw [pieces_append, pieces_of_notMem hn]
    · have hq := pieces_append q ""
      rw [String.append_empty] at hq
      have hempty : pieces "" = [""] := pieces_of_notMem (by simp)
      rw [hq, hempty]
  · exact ⟨pieces folder, by rw [pieces_append, pieces_of_notMem hn], .inl rfl⟩
/-- The pieces of a path are put together again to the path. -/
theorem intercalate_pieces (p : Path) : "/".intercalate (pieces p) = p := by
  refine String.toList_inj.mp ?_
  rw [String.toList_intercalate, pieces, List.map_map]
  have hid : String.toList ∘ String.ofList = id := funext fun s => String.toList_ofList
  rw [hid, List.map_id]
  exact List.intercalate_splitOn '/'

/-- A plain name: it has no slash in it, and is neither empty nor a single point. -/
def IsName (name : Path) : Prop := name ≠ "" ∧ name ≠ "." ∧ '/' ∉ name.toList

instance (name : Path) : Decidable (IsName name) := inferInstanceAs (Decidable (_ ∧ _ ∧ _))

/-- A path that ends in a name has no empty piece at its end. -/
theorem pieces_join_join (base : Path) {last : Path} (hn : IsName name) (hl : '/' ∉ last.toList) :
    ∃ names, pieces (base.join name) = names ++ [name] ∧
      pieces ((base.join name).join last) = names ++ [name, last] := by
  have hends : ∃ names, pieces (base.join name) = names ++ [name] := by
    by_cases hb : base = ""
    · refine ⟨[], ?_⟩
      rw [hb, empty_join]
      exact pieces_of_notMem hn.2.2
    · obtain ⟨names, hpieces, -⟩ := pieces_join hb hn.2.2
      exact ⟨names, hpieces⟩
  obtain ⟨names, hpieces⟩ := hends
  have hne : base.join name ≠ "" := by
    intro h
    rw [h, pieces_of_notMem (by simp)] at hpieces
    have hlast := congrArg List.getLast? hpieces
    exact hn.1 (by simpa using hlast.symm)
  refine ⟨names, hpieces, ?_⟩
  obtain ⟨names', hjoin, hfolder | hfolder⟩ := pieces_join hne hl
  · rw [hjoin, ← hfolder, hpieces, List.append_assoc]
    rfl
  · have hlast := congrArg List.getLast? (hpieces.symm.trans hfolder)
    exact absurd (by simpa using hlast) hn.1

/-- The folder of a file in a folder with a plain name is that folder. -/
theorem parent?_join_join {base last : Path} (hn : IsName name) (hl : IsName last) :
    ((base.join name).join last).parent? = some (base.join name) := by
  obtain ⟨names, hfolder, hfile⟩ := pieces_join_join base hn hl.2.2
  have hrest : settled (name :: names.reverse) = name :: names.reverse := by
    cases names.reverse with
    | nil => simp [settled, hn.1]
    | cons piece pieces => simp [settled, hn.1, hn.2.1]
  have hall : settled (last :: name :: names.reverse) = last :: name :: names.reverse := by
    simp [settled, hl.1, hl.2.1]
  have hnames : (name :: names.reverse).reverse = pieces (base.join name) := by
    rw [hfolder, List.reverse_cons, List.reverse_reverse]
  have hreverse : (names ++ [name, last]).reverse = last :: name :: names.reverse := by simp
  rw [parent?, hfile, hreverse, hall]
  simp only [hrest, hnames, intercalate_pieces]

end

end Path

namespace Store
variable {store : Store} {p : Path} {l : Location}

/-- What comes of two steps comes of the second, on what came of the first. -/
theorem bind_eq_ok {x : Except ε α} {f : α → Except ε β} {b : β} (h : x >>= f = .ok b) :
    ∃ a, x = .ok a ∧ f a = .ok b := by
  cases x with
  | error fault => cases h
  | ok a => exact ⟨a, rfl, h⟩

/-- A path can be followed if it is not empty, has no null character and is not too long. -/
theorem pieces_eq_ok_iff {names : List String} : pieces p = .ok names ↔
    '\x00' ∉ p.toList ∧ p ≠ "" ∧ p.utf8ByteSize < pathLimit ∧ p.pieces = names := by
  unfold pieces
  split_ifs with hnul hempty hlong
  · have hmem : '\x00' ∈ p.toList := by simpa using hnul
    simp [hmem]
  · simp [hempty]
  · simp [Nat.not_lt_of_le hlong]
  · have hmem : '\x00' ∉ p.toList := by simpa using hnul
    simp [hmem, hempty, Nat.lt_of_not_le hlong]

theorem target_eq_ok (h : store.target p = .ok l) :
    p ≠ "" ∧ p.pieces.foldlM store.step (store.origin p) = .ok l := by
  unfold target at h
  cases hp : pieces p with
  | error fault =>
    rw [hp] at h
    cases h
  | ok names =>
    obtain ⟨-, hne, -, rfl⟩ := pieces_eq_ok_iff.mp hp
    rw [hp] at h
    exact ⟨hne, h⟩

theorem foldlM_concat {names : List String} {name : String} {m : Location}
    (h : (names ++ [name]).foldlM store.step l = .ok m) :
    ∃ k, names.foldlM store.step l = .ok k ∧ store.step k name = .ok m := by
  rw [List.foldlM_append] at h
  obtain ⟨k, hk, hstep⟩ := bind_eq_ok h
  rw [List.foldlM_cons] at hstep
  obtain ⟨m', hm, hnil⟩ := bind_eq_ok hstep
  exact ⟨k, hk, hm.trans hnil⟩

/-- A path is only followed on from a folder. -/
theorem isFolder_of_step {name : String} {m : Location} (h : store.step l name = .ok m) :
    store.isFolder l = true := by
  unfold step at h
  unfold isFolder
  split at h
  · cases h
  · cases h
  · rename_i hl
    simp [hl]

theorem eq_of_step_empty {m : Location} (h : store.step l "" = .ok m) : m = l := by
  unfold step at h
  split at h
  · cases h
  · cases h
  · exact (Except.ok.inj h).symm

/-- A name that follows the path of a folder leads one step further. -/
theorem step_of_target_join {folder : Path} {name : String} {m : Location}
    (h : store.target folder = .ok l) (hn : '/' ∉ name.toList)
    (hj : store.target (folder.join name) = .ok m) : store.step l name = .ok m := by
  obtain ⟨hf, hfold⟩ := target_eq_ok h
  obtain ⟨-, hjoin⟩ := target_eq_ok hj
  obtain ⟨names, hpieces, hfolder⟩ := Path.pieces_join hf hn
  have horigin : store.origin (folder.join name) = store.origin folder := by
    rw [origin, origin, Path.isAbsolute_join hf hn]
  rw [hpieces, horigin] at hjoin
  obtain ⟨k, hk, hstep⟩ := foldlM_concat hjoin
  rcases hfolder with hfolder | hfolder
  · rw [hfolder, hk] at hfold
    rwa [← Except.ok.inj hfold]
  · rw [hfolder] at hfold
    obtain ⟨k', hk', hl⟩ := foldlM_concat hfold
    obtain rfl : k = k' := Except.ok.inj (hk.symm.trans hk')
    rwa [eq_of_step_empty hl]

end Store
end Minutes.Files
