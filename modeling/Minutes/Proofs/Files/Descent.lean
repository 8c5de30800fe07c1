import Minutes.Proofs.Files.Write

/-!
From a folder down to what it holds. A listing has each folder in a folder once, and the path of a
folder that goes on with the name of an entry leads to that entry, if it is not too long.
-/
namespace Minutes.Files

/-- A name that an entry of a folder can have. -/
def IsFileName (name : String) : Prop :=
  Path.IsName name ∧ name ≠ ".." ∧ '\x00' ∉ name.toList ∧ name.utf8ByteSize ≤ Store.nameLimit

instance (name : String) : Decidable (IsFileName name) := inferInstanceAs (Decidable (_ ∧ _))

theorem Path.join_ne_empty (folder : Path) {name : String} (h : name ≠ "") :
    folder.join name ≠ "" := by
  unfold join
  split_ifs <;> simp [h]

namespace Store

/-- Whatever a store holds can be named. -/
def IsNamed (store : Store) : Prop := ∀ entry ∈ store.entries, ∀ name ∈ entry.1, IsFileName name

instance (store : Store) : Decidable store.IsNamed :=
  inferInstanceAs (Decidable (∀ entry ∈ store.entries, ∀ name ∈ entry.1, IsFileName name))

variable {store : Store} {l : Location} {name : String}

theorem mem_entries_of_eq_some {e : Entry} (hl : l ≠ []) (h : store.entry? l = some e) :
    (l, e) ∈ store.entries := by
  rw [ entry?, if_neg hl] at h
  obtain ⟨before, after, hentries, -⟩ := List.lookup_eq_some_iff.mp h
  rw [hentries]
  exact List.mem_append_right before List.mem_cons_self

theorem IsNamed.isFileName {e : Entry} (h : store.IsNamed)
    (he : store.entry? (l ++ [name]) = some e) : IsFileName name :=
  h _ (mem_entries_of_eq_some (List.concat_ne_nil name l) he) name (by simp)

/-- What a listing takes from an entry is the last name of its place, which is in the folder. -/
theorem eq_concat_of_listed {entry : Location × Entry}
    (h : (if entry.2 = .folder ∧ store.isFolder l = true ∧ entry.1.dropLast = l then
      entry.1.getLast? else none) = some name) :
    entry = (l ++ [name], .folder) ∧ store.isFolder l = true := by
  split_ifs at h with hentry
  obtain ⟨hfolder, hl, rfl⟩ := hentry
  exact ⟨Prod.ext (List.dropLast_append_getLast? name h).symm hfolder, hl⟩

theorem mem_folderNames_iff : name ∈ store.folderNames l ↔
    store.isFolder l = true ∧ store.entry? (l ++ [name]) = some .folder := by
  rw [folderNames, List.mem_filterMap]
  constructor
  · rintro ⟨entry, hmem, hname⟩
    obtain ⟨rfl, hl⟩ := eq_concat_of_listed hname
    exact ⟨hl, entry?_of_mem hmem (List.concat_ne_nil name l)⟩
  · rintro ⟨hl, he⟩
    exact ⟨_, mem_entries_of_eq_some (List.concat_ne_nil name l) he, by simp [hl]⟩

/-- No folder is listed twice. -/
theorem nodup_folderNames (store : Store) (l : Location) : (store.folderNames l).Nodup := by
  have hplaces := store.distinct
  rw [List.Nodup, List.pairwise_map] at hplaces
  refine List.Pairwise.filterMap _ ?_ hplaces
  intro entry other hne name hname name' hname' heq
  obtain ⟨rfl, -⟩ := eq_concat_of_listed hname
  obtain ⟨rfl, -⟩ := eq_concat_of_listed hname'
  exact hne (by rw [heq])

theorem step_of_isFileName (hl : store.isFolder l = true) (hname : IsFileName name) :
    store.step l name = .ok (l ++ [name]) := by
  have hfolder : store.entry? l = some .folder := by simpa [isFolder] using hl
  obtain ⟨⟨hempty, hpoint, -⟩, hup, -, hshort⟩ := hname
  simp [step, hfolder, hempty, hpoint, hup, Nat.not_lt_of_le hshort]

/-- The path of a folder that goes on with a name leads one step further down. -/
theorem target_join {folder : Path} (h : store.target folder = .ok l)
    (hl : store.isFolder l = true) (hname : IsFileName name)
    (hlength : (folder.join name).utf8ByteSize < pathLimit) :
    store.target (folder.join name) = .ok (l ++ [name]) := by
  have hslash : '/' ∉ name.toList := hname.1.2.2
  obtain ⟨names, hpieces, hfold⟩ := bind_eq_ok h
  obtain ⟨hnul, hne, -, rfl⟩ := pieces_eq_ok_iff.mp hpieces
  obtain ⟨names, hjoin, hfolder⟩ := Path.pieces_join hne hslash
  -- a slash at the end of the folder leaves an empty piece, which leads nowhere else
  have hnames : names.foldlM store.step (store.origin folder) = .ok l := by
    rcases hfolder with hfolder | hfolder
    · rwa [hfolder] at hfold
    · rw [hfolder] at hfold
      obtain ⟨k, hk, hstep⟩ := foldlM_concat hfold
      rwa [eq_of_step_empty hstep]
  have horigin : store.origin (folder.join name) = store.origin folder := by
    rw [origin, origin, Path.isAbsolute_join hne hslash]
  have hwhole : pieces (folder.join name) = .ok (names ++ [name]) := by
    refine pieces_eq_ok_iff.mpr ⟨?_, ?_, hlength, hjoin⟩
    · simp only [Path.join, Path.isAbsolute_of_notMem hslash, Bool.false_or, beq_iff_eq, hne,
        if_false]
      split_ifs <;> simp [hnul, hname.2.2.1]
    · intro hempty
      rw [hempty, Path.pieces_of_notMem (by simp)] at hjoin
      have hlast := congrArg List.getLast? hjoin
      exact hname.1.1 (by simpa using hlast.symm)
  rw [target, hwhole, horigin]
  change (names ++ [name]).foldlM store.step (store.origin folder) = _
  rw [List.foldlM_append, hnames]
  change store.step l name >>= pure = _
  rw [step_of_isFileName hl hname]
  rfl

theorem utf8ByteSize_add_le_join {folder : Path} (hf : folder ≠ "") (hname : '/' ∉ name.toList) :
    folder.utf8ByteSize + name.utf8ByteSize ≤ (folder.join name).utf8ByteSize := by
  simp only [Path.join, Path.isAbsolute_of_notMem hname, Bool.false_or, beq_iff_eq, hf, if_false]
  split_ifs <;> simp only [String.utf8ByteSize_append] <;> omega

theorem utf8ByteSize_of_target {p : Path} (h : store.target p = .ok l) :
    p.utf8ByteSize < pathLimit := by
  obtain ⟨names, hpieces, -⟩ := bind_eq_ok h
  exact (pieces_eq_ok_iff.mp hpieces).2.2.1

/-- The order in which a store keeps its entries does not matter for what is where. -/
theorem same_of_perm {other : Store} (hstart : other.start = store.start)
    (h : other.entries.Perm store.entries) : Same other store where
  start := hstart
  entry? := by
    intro l
    by_cases hl : l = []
    · simp [ entry?, hl]
    · ext e
      constructor
      · exact fun he => entry?_of_mem (h.subset (mem_entries_of_eq_some hl he)) hl
      · exact fun he => entry?_of_mem (h.symm.subset (mem_entries_of_eq_some hl he)) hl

theorem Same.find {other : Store} (h : Same other store) (p : Path) :
    other.find p = store.find p := by
  have hentry : other.entry? = store.entry? := funext h.entry?
  have hstep : other.step = store.step := by
    unfold step
    rw [hentry]
  unfold Store.find target origin
  rw [hstep, hentry, h.start]

theorem IsNamed.of_perm {other : Store} (h : other.entries.Perm store.entries)
    (hnamed : store.IsNamed) : other.IsNamed :=
  fun entry hentry => hnamed entry (h.subset hentry)

end Store
end Minutes.Files
