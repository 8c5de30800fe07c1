import Minutes.Proofs.Files.Path

/-!
What writing a file changes. It puts a text in one place, where no folder is, so every path leads
where it led before, and finds what it found before unless it leads to that place.
-/
namespace Minutes.Files

namespace Store

/-- Two stores hold the same files and folders. -/
structure Same (a b : Store) : Prop where
  start : a.start = b.start
  entry? : ∀ l, a.entry? l = b.entry? l

theorem Same.refl (store : Store) : Same store store := ⟨rfl, fun _ => rfl⟩

/-- Two paths lead to one place, whether or not something is there. -/
def SamePlace (store : Store) (p q : Path) : Prop :=
  ∃ l, store.target p = .ok l ∧ store.target q = .ok l

instance (store : Store) (p q : Path) : Decidable (store.SamePlace p q) :=
  match hp : store.target p, hq : store.target q with
  | .ok k, .ok l =>
    if h : k = l then isTrue ⟨k, hp, h ▸ hq⟩
    else isFalse fun ⟨_, hk, hl⟩ =>
      h ((Except.ok.inj (hp.symm.trans hk)).trans (Except.ok.inj (hq.symm.trans hl)).symm)
  | .error _, _ => isFalse fun ⟨_, hk, _⟩ => nomatch hp.symm.trans hk
  | _, .error _ => isFalse fun ⟨_, _, hl⟩ => nomatch hq.symm.trans hl

/-- What a path names, without where it is and without a fault. -/
def entryAt? (store : Store) (p : Path) : Option Entry := (store.find p).toOption.map (·.2)

/-- No path of a list leads to a place. -/
def Avoids (store : Store) (paths : List Path) (l : Location) : Prop :=
  ∀ p ∈ paths, store.target p ≠ .ok l

theorem toOption_eq_some_iff {x : Except ε α} {a : α} : x.toOption = some a ↔ x = .ok a := by
  cases x with
  | error fault => exact ⟨nofun, nofun⟩
  | ok b => exact ⟨fun h => congrArg Except.ok (Option.some.inj h), fun h => by rw [h]; rfl⟩

theorem toOption_bind (x : Except ε α) (f : α → Except ε β) :
    (x >>= f).toOption = x.toOption.bind fun a => (f a).toOption := by
  cases x <;> rfl

section
variable {a b : Store} {p q : Path} (h : a.entryAt? p = b.entryAt? q)
include h

theorem exists?_congr : a.exists? p = b.exists? q := by
  have hexists (store : Store) (p : Path) : store.exists? p = (store.entryAt? p).isSome := by
    unfold exists? locate? entryAt?
    cases store.find p <;> rfl
  rw [hexists, hexists, h]

theorem isFile_congr : a.isFile p = b.isFile q := by
  have hisFile (store : Store) (p : Path) :
      store.isFile p = (store.entryAt? p).any fun e => decide (e ≠ .folder) := by
    unfold isFile entryAt?
    rcases store.find p with fault | ⟨l, e⟩
    · rfl
    · cases e <;> rfl
  rw [hisFile, hisFile, h]

theorem toOption_read_congr : (a.read p).toOption = (b.read q).toOption := by
  have hread (store : Store) (p : Path) :
      (store.read p).toOption = (store.entryAt? p).bind fun e => (Entry.text e).toOption := by
    unfold read entryAt?
    rw [toOption_bind, Option.bind_map]
    rfl
  rw [hread, hread, h]

end

variable {store : Store} {l : Location} {bytes : ByteArray}

theorem find_eq_ok_iff {p : Path} {e : Entry} :
    store.find p = .ok (l, e) ↔ store.target p = .ok l ∧ store.entry? l = some e := by
  constructor
  · intro h
    obtain ⟨k, hk, h⟩ := bind_eq_ok h
    split at h
    · rename_i found hfound
      obtain ⟨rfl, rfl⟩ := Prod.mk.inj (Except.ok.inj h)
      exact ⟨hk, hfound⟩
    · cases h
  · rintro ⟨hp, he⟩
    simp [find, hp, he, bind, Except.bind]

theorem find_of_target {p : Path} {e : Entry} (hp : store.target p = .ok l)
    (he : store.entry? l = some e) : store.find p = .ok (l, e) :=
  find_eq_ok_iff.mpr ⟨hp, he⟩

theorem target_of_find {p : Path} {e : Entry} (h : store.find p = .ok (l, e)) :
    store.target p = .ok l :=
  (find_eq_ok_iff.mp h).1

theorem text_eq_ok_iff {e : Entry} {text : String} :
    Entry.text e = .ok text ↔ e = .file text.toUTF8 := by
  constructor
  · intro h
    unfold Entry.text at h
    split at h
    · cases h
    · rename_i content
      by_cases hvalid : content.IsValidUTF8
      · rw [String.fromUTF8?, dif_pos hvalid] at h
        obtain rfl := Except.ok.inj h
        rfl
      · rw [String.fromUTF8?, dif_neg hvalid] at h
        cases h
  · rintro rfl
    have hdecode : String.fromUTF8? text.toUTF8 = some text := dif_pos text.isValidUTF8
    rw [Entry.text, hdecode]

/-- A text is read where a file with the bytes of the text is. -/
theorem read_eq_ok_iff {p : Path} {text : String} : store.read p = .ok text ↔
    ∃ l, store.target p = .ok l ∧ store.entry? l = some (.file text.toUTF8) := by
  constructor
  · intro h
    obtain ⟨⟨l, e⟩, hfind, htext⟩ := bind_eq_ok h
    obtain rfl := text_eq_ok_iff.mp htext
    exact ⟨l, find_eq_ok_iff.mp hfind⟩
  · rintro ⟨l, hl⟩
    rw [read, find_eq_ok_iff.mpr hl]
    exact text_eq_ok_iff.mpr rfl

theorem isFile_of_read {p : Path} {text : String} (h : store.read p = .ok text) :
    store.isFile p = true := by
  obtain ⟨l, hl⟩ := read_eq_ok_iff.mp h
  simp [isFile, find_eq_ok_iff.mpr hl]

theorem exists?_of_read {p : Path} {text : String} (h : store.read p = .ok text) :
    store.exists? p = true := by
  obtain ⟨l, hl⟩ := read_eq_ok_iff.mp h
  simp [exists?, locate?, find_eq_ok_iff.mpr hl, Except.map, Except.toOption]

theorem ne_nil_of_not_isFolder (hl : store.isFolder l = false) : l ≠ [] := by
  rintro rfl
  simp [isFolder, entry?] at hl

theorem lookup_filter_ne {k : Location} (h : k ≠ l) (entries : List (Location × Entry)) :
    (entries.filter (·.1 ≠ l)).lookup k = entries.lookup k := by
  induction entries with
  | nil => rfl
  | cons entry entries ih =>
    by_cases he : entry.1 = l
    · have hk : (k == entry.1) = false := by
        rw [he]
        exact beq_false_of_ne h
      rw [List.filter_cons_of_neg (by simpa using he), ih, List.lookup_cons, hk]
    · rw [List.filter_cons_of_pos (by simpa using he), List.lookup_cons, List.lookup_cons, ih]

/-- What a list with distinct keys has, its look-up finds. -/
theorem lookup_of_mem {α β : Type} [BEq α] [LawfulBEq α] {k : α} {b : β} {entries : List (α × β)}
    (hdistinct : (entries.map (·.1)).Nodup) (h : (k, b) ∈ entries) :
    entries.lookup k = some b := by
  obtain ⟨before, after, rfl⟩ := List.append_of_mem h
  refine List.lookup_eq_some_iff.mpr ⟨before, after, rfl, fun entry hentry => ?_⟩
  rw [List.map_append] at hdistinct
  have hne := (List.nodup_append.mp hdistinct).2.2 _ (List.mem_map_of_mem hentry) k
    List.mem_cons_self
  simpa using hne.symm

theorem entry?_of_mem {k : Location} {e : Entry} (h : (k, e) ∈ store.entries) (hk : k ≠ []) :
    store.entry? k = some e := by
  rw [ entry?, if_neg hk]
  exact lookup_of_mem store.distinct h

/-- An entry that is put in a place is what is there then, and changes nothing elsewhere. -/
theorem entry?_put (hl : l ≠ []) (e : Entry) (k : Location) :
    Store.entry? (store.put l e) k = if k = l then some e else store.entry? k := by
  simp only [ entry?, put]
  by_cases hk : k = []
  · simp [hk, hl.symm]
  · simp only [hk, if_false]
    split_ifs with h
    · rw [h, List.lookup_cons_self]
    · rw [List.lookup_cons, beq_false_of_ne h]
      exact lookup_filter_ne h store.entries

theorem put_put (a b : Entry) : (store.put l a).put l b = store.put l b := by
  simp [put, List.filter_filter]

theorem same_put_put {m : Location} (hl : l ≠ []) (hm : m ≠ []) (hne : l ≠ m) (a b : Entry) :
    Same ((store.put l a).put m b) ((store.put m b).put l a) := by
  refine ⟨rfl, fun k => ?_⟩
  simp only [entry?_put hl, entry?_put hm]
  by_cases hkl : k = l
  · have hkm : k ≠ m := by
      rw [hkl]
      exact hne
    simp [hkl, hne]
  · simp [hkl]

section File
variable (hl : store.isFolder l = false)
include hl

/-- A file that is put in a place makes and removes no folder. -/
theorem isFolder_put (k : Location) :
    (store.put l (.file bytes)).isFolder k = store.isFolder k := by
  simp only [isFolder, entry?_put (ne_nil_of_not_isFolder hl)]
  split_ifs with h
  · subst h
    unfold isFolder at hl
    rw [hl]
    rfl
  · rfl

theorem step_put {k : Location} (hk : k ≠ l) (name : String) :
    (store.put l (.file bytes)).step k name = store.step k name := by
  simp only [step, entry?_put (ne_nil_of_not_isFolder hl), hk, if_false]

/-- From a place where a file is put nothing can be reached, before and after. -/
theorem toOption_step (name : String) : (store.step l name).toOption = none := by
  cases h : store.step l name with
  | error fault => rfl
  | ok m =>
    rw [isFolder_of_step h] at hl
    cases hl

theorem toOption_foldlM_step_put (names : List String) (k : Location) :
    (names.foldlM (store.put l (.file bytes)).step k).toOption =
      (names.foldlM store.step k).toOption := by
  induction names generalizing k with
  | nil => rfl
  | cons name names ih =>
    by_cases hk : k = l
    · subst hk
      have hbefore := toOption_step hl name
      have hput : (store.put k (.file bytes)).isFolder k = false := by rw [isFolder_put hl, hl]
      have hafter := toOption_step hput name
      rw [List.foldlM_cons, List.foldlM_cons]
      cases hs : store.step k name with
      | ok m =>
        rw [hs] at hbefore
        cases hbefore
      | error fault =>
        cases hs' : (store.put k (.file bytes)).step k name with
        | ok m =>
          rw [hs'] at hafter
          cases hafter
        | error fault' => rfl
    · rw [List.foldlM_cons, List.foldlM_cons, step_put hl hk]
      cases store.step k name with
      | ok m => exact ih m
      | error fault => rfl

/-- Every path leads where it led before. -/
theorem toOption_target_put (p : Path) :
    ((store.put l (.file bytes)).target p).toOption = (store.target p).toOption := by
  unfold target
  cases pieces p with
  | error fault => rfl
  | ok names => exact toOption_foldlM_step_put hl names (store.origin p)

theorem target_put_eq_ok_iff {p : Path} {k : Location} :
    (store.put l (.file bytes)).target p = .ok k ↔ store.target p = .ok k := by
  rw [← toOption_eq_some_iff, ← toOption_eq_some_iff, toOption_target_put hl]

theorem toOption_writable_put (p : Path) :
    ((store.put l (.file bytes)).writable p).toOption = (store.writable p).toOption := by
  unfold writable
  rw [toOption_bind, toOption_bind]
  refine Option.bind_congr fun names _ => ?_
  rw [toOption_bind, toOption_bind, toOption_foldlM_step_put hl]
  refine Option.bind_congr fun k _ => ?_
  rw [isFolder_put hl]

/-- A path that leads elsewhere finds what it found before. -/
theorem toOption_find_put {p : Path} (hp : store.target p ≠ .ok l) :
    ((store.put l (.file bytes)).find p).toOption = (store.find p).toOption := by
  unfold find
  rw [toOption_bind, toOption_bind, toOption_target_put hl]
  refine Option.bind_congr fun k hk => ?_
  have hkl : k ≠ l := by
    rintro rfl
    exact hp (toOption_eq_some_iff.mp hk)
  rw [entry?_put (ne_nil_of_not_isFolder hl), if_neg hkl]

theorem entryAt?_put {p : Path} (hp : store.target p ≠ .ok l) :
    (store.put l (.file bytes)).entryAt? p = store.entryAt? p := by
  rw [entryAt?, entryAt?, toOption_find_put hl hp]

/-- A file elsewhere is read as before, with any fault that it has. -/
theorem read_put {p : Path} (hp : store.target p ≠ .ok l) (hfile : store.isFile p = true) :
    (store.put l (.file bytes)).read p = store.read p := by
  have hfind : ((store.put l (.file bytes)).find p).toOption = (store.find p).toOption :=
    toOption_find_put hl hp
  unfold isFile at hfile
  cases h : store.find p with
  | error fault =>
    rw [h] at hfile
    cases hfile
  | ok found =>
    rw [h] at hfind
    rw [read, read, h, toOption_eq_some_iff.mp hfind]

/-- A path that leads to the place finds the file. -/
theorem find_put {p : Path} (hp : store.target p = .ok l) :
    (store.put l (.file bytes)).find p = .ok (l, .file bytes) := by
  have hentry : Store.entry? (store.put l (.file bytes)) l = some (.file bytes) := by
    rw [entry?_put (ne_nil_of_not_isFolder hl), if_pos rfl]
  exact find_of_target ((target_put_eq_ok_iff hl).mpr hp) hentry

/-- A text that is put in a file is read from there. -/
theorem read_put_text {p : Path} (hp : store.target p = .ok l) (text : String) :
    (store.put l (.file text.toUTF8)).read p = .ok text :=
  read_eq_ok_iff.mpr ⟨l, find_eq_ok_iff.mp (find_put hl hp)⟩

/-- A file that is put in a place is no folder of a listing. -/
theorem folderNames_put (k : Location) :
    (store.put l (.file bytes)).folderNames k = store.folderNames k := by
  have hfile : ∀ e ∈ store.entries, e.1 = l → e.2 ≠ .folder := by
    rintro ⟨place, e⟩ he rfl rfl
    have hentry := entry?_of_mem he (ne_nil_of_not_isFolder hl)
    simp [isFolder, hentry] at hl
  simp only [folderNames, isFolder_put hl]
  have hput : (store.put l (.file bytes)).entries =
      (l, .file bytes) :: store.entries.filter (·.1 ≠ l) := rfl
  rw [hput, List.filterMap_cons_none (by simp), List.filterMap_filter]
  refine List.filterMap_congr fun e he => ?_
  by_cases hel : e.1 = l
  · simp [hel, hfile e he hel]
  · simp [hel]

end File

/-- A file can be written where its path leads, if no folder is there. -/
theorem target_of_writable {p : Path} (h : store.writable p = .ok l) :
    store.target p = .ok l ∧ store.isFolder l = false := by
  unfold writable at h
  obtain ⟨names, hnames, h⟩ := bind_eq_ok h
  obtain ⟨k, hfold, h⟩ := bind_eq_ok h
  split_ifs at h with hrefused
  obtain rfl : k = l := Except.ok.inj h
  obtain ⟨hfolder, hslash⟩ := not_or.mp hrefused
  obtain ⟨-, hne, -, rfl⟩ := pieces_eq_ok_iff.mp hnames
  have hlast := Path.getLast?_pieces_ne hne (Bool.eq_false_of_not_eq_true hslash)
  have hkept : p.pieces.reverse.dropWhile (· = "") = p.pieces.reverse := by
    cases hr : p.pieces.reverse with
    | nil => rfl
    | cons name names =>
      have hname : name ≠ "" := by
        rintro rfl
        rw [← List.head?_reverse, hr] at hlast
        exact hlast rfl
      rw [List.dropWhile_cons_of_neg (by simpa using hname)]
  rw [hkept, List.reverse_reverse] at hfold
  refine ⟨?_, Bool.eq_false_of_not_eq_true hfolder⟩
  unfold target
  rw [hnames]
  exact hfold

theorem write_eq_ok {p : Path} {text : String} {written : Store}
    (h : store.write p text = .ok written) :
    ∃ l, store.writable p = .ok l ∧ written = store.put l (.file text.toUTF8) := by
  unfold write at h
  cases hw : store.writable p with
  | error fault =>
    rw [hw] at h
    cases h
  | ok l =>
    rw [hw] at h
    exact ⟨l, rfl, (Except.ok.inj h).symm⟩

end Store
end Minutes.Files
