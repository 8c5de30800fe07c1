import Minutes.Proofs.Files.Write

/-!
What making the folders of a path changes: only places on the way of the path, where nothing was.
-/
namespace Minutes.Files

/-- The location one piece of a path further. -/
def Location.walk (l : Location) (name : String) : Location :=
  if name = "" ∨ name = "." then l else if name = ".." then l.dropLast else l ++ [name]

namespace Store

/-- The places that a path passes, the last of them included. -/
def OnWay (store : Store) (p : Path) (l : Location) : Prop :=
  ∃ names, names <+: p.pieces ∧ names.foldl Location.walk (store.origin p) = l

variable {store made : Store} {l : Location}

theorem entry?_makeFoldersFrom {names : List String}
    (h : store.makeFoldersFrom l names = .ok made) (k : Location) :
    made.entry? k = store.entry? k ∨
      store.entry? k = none ∧ made.entry? k = some .folder ∧
        ∃ first, first <+: names ∧ first.foldl Location.walk l = k := by
  induction names generalizing store l with
  | nil =>
    obtain rfl : store = made := Except.ok.inj h
    exact .inl rfl
  | cons name names ih =>
    -- What the later names make lies on the way from where the first name leads.
    have hlater {m : Location} {between : Store} (hm : Location.walk l name = m)
        (h : between.makeFoldersFrom m names = .ok made) :
        made.entry? k = between.entry? k ∨ between.entry? k = none ∧
          made.entry? k = some .folder ∧
            ∃ first, first <+: name :: names ∧ first.foldl Location.walk l = k := by
      rcases ih h with hk | ⟨hnone, hfolder, first, hfirst⟩
      · exact .inl hk
      · refine .inr ⟨hnone, hfolder, name :: first, (List.prefix_cons_inj name).mpr hfirst.1, ?_⟩
        rw [List.foldl_cons, hm]
        exact hfirst.2
    unfold makeFoldersFrom at h
    by_cases hstay : name = "" ∨ name = "."
    · rw [if_pos hstay] at h
      exact hlater (if_pos hstay) h
    rw [if_neg hstay] at h
    by_cases hup : name = ".."
    · rw [if_pos hup] at h
      exact hlater (by rw [Location.walk, if_neg hstay, if_pos hup]) h
    have hwalk : Location.walk l name = l ++ [name] := by
      rw [Location.walk, if_neg hstay, if_neg hup]
    rw [if_neg hup] at h
    split at h
    · cases h
    split at h
    · cases h
    · exact hlater hwalk h
    · rename_i hnone
      have hput : Store.entry? (store.put (l ++ [name]) .folder) k =
          if k = l ++ [name] then some .folder else store.entry? k :=
        entry?_put (List.concat_ne_nil name l) .folder k
      by_cases hk : k = l ++ [name]
      · refine .inr ⟨hk ▸ hnone, ?_, [name], by simp, by rw [hk, ← hwalk]; rfl⟩
        rw [if_pos hk] at hput
        rcases ih h with hmade | ⟨-, hfolder, -⟩
        · rw [hmade, hput]
        · exact hfolder
      · rw [if_neg hk] at hput
        rw [← hput]
        exact hlater hwalk h

theorem entry?_makeFolders {p : Path} (h : store.makeFolders p = .ok made) (k : Location) :
    made.entry? k = store.entry? k ∨
      store.entry? k = none ∧ made.entry? k = some .folder ∧ store.OnWay p k := by
  unfold makeFolders at h
  split_ifs at h
  · obtain rfl : store = made := Except.ok.inj h
    exact .inl rfl
  · obtain ⟨names, hnames, h⟩ := bind_eq_ok h
    obtain ⟨-, -, -, rfl⟩ := pieces_eq_ok_iff.mp hnames
    exact entry?_makeFoldersFrom h k

end Store
end Minutes.Files
