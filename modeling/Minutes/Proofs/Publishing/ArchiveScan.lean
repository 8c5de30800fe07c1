import Minutes.Proofs.Calendar.WrittenOrder
import Minutes.Proofs.Files.Descent
import Minutes.Proofs.Publishing.IndexLinks

/-!
What a scan of the archive finds: every folder with a transcript, once, and in the descending order
of the names, in whatever order they are listed.
-/
namespace Minutes
open Files

namespace Archive
variable {store : Store} {c : Compiler} {root : Path} {l : Location} {name : String}

theorem target_transcript (hnamed : store.IsNamed) (hroot : store.find root = .ok (l, .folder))
    (hname : name ∈ store.folderNames l)
    (hlength : ((root.join name).join transcriptName).utf8ByteSize < Store.pathLimit) :
    store.target ((root.join name).join transcriptName) = .ok (l ++ [name, transcriptName]) := by
  obtain ⟨hl, hentry⟩ := Store.mem_folderNames_iff.mp hname
  have hfile : IsFileName transcriptName := by decide
  have hfolder : store.isFolder (l ++ [name]) = true := by simp [Store.isFolder, hentry]
  have hne : root.join name ≠ "" := Path.join_ne_empty root (hnamed.isFileName hentry).1.1
  have hlonger := Store.utf8ByteSize_add_le_join hne hfile.1.2.2
  have htarget := Store.target_join (Store.target_of_find hroot) hl (hnamed.isFileName hentry)
    (by omega)
  have hdown := Store.target_join htarget hfolder hfile hlength
  rwa [List.append_assoc] at hdown

/-- The transcript of a folder is read by its path exactly if it is there, and the path is not too
long. -/
theorem read_transcript_iff (hnamed : store.IsNamed) (hroot : store.find root = .ok (l, .folder))
    (hname : name ∈ store.folderNames l) {text : String} :
    store.read ((root.join name).join transcriptName) = .ok text ↔
      ((root.join name).join transcriptName).utf8ByteSize < Store.pathLimit ∧
        store.entry? (l ++ [name, transcriptName]) = some (.file text.toUTF8) := by
  rw [Store.read_eq_ok_iff]
  constructor
  · rintro ⟨k, htarget, hentry⟩
    have hlength := Store.utf8ByteSize_of_target htarget
    obtain rfl := Except.ok.inj (htarget.symm.trans (target_transcript hnamed hroot hname hlength))
    exact ⟨hlength, hentry⟩
  · rintro ⟨hlength, hentry⟩
    exact ⟨_, target_transcript hnamed hroot hname hlength, hentry⟩

/-- The meetings that the folders of a listing hold. -/
def heldBy (store : Store) (c : Compiler) (root : Path) (names : List String) :
    List MeetingSummary :=
  names.filterMap fun name => (visit store c root name).1

theorem key_heldBy_sublist (names : List String) :
    ((heldBy store c root names).map (·.key)).Sublist names := by
  induction names with
  | nil => exact List.nil_sublist []
  | cons name names ih =>
    cases h : (visit store c root name).1 with
    | none =>
      simp only [heldBy, List.filterMap_cons, h]
      exact ih.cons name
    | some m =>
      obtain ⟨text, -, rfl⟩ := visit_eq_some_iff.mp h
      simp only [heldBy, List.filterMap_cons, h]
      exact ih.cons_cons name

/-- Meetings of different folders that are put in order descend strictly. -/
theorem pairwise_newestFirst {meetings : List MeetingSummary}
    (h : (meetings.map (·.key)).Nodup) :
    (newestFirst meetings).Pairwise fun m later => later.key < m.key := by
  have hle : (newestFirst meetings).Pairwise fun m later => later.key ≤ m.key := by
    have hsorted := @List.pairwise_mergeSort MeetingSummary (fun a b => decide (b.key ≤ a.key))
      (fun a b c hab hbc => by simpa using (of_decide_eq_true hbc).trans (of_decide_eq_true hab))
      (fun a b => by simpa using le_total b.key a.key) meetings
    exact hsorted.imp of_decide_eq_true
  have hne : (newestFirst meetings).Pairwise fun m later => m.key ≠ later.key := by
    have hperm : (newestFirst meetings).Perm meetings := List.mergeSort_perm _ _
    exact List.pairwise_map.mp ((hperm.map _).nodup_iff.mpr h)
  exact hle.imp₂ (fun m later hle hne => lt_of_le_of_ne hle (Ne.symm hne)) hne

theorem scan_eq (hroot : store.find root = .ok (l, .folder)) :
    ∃ found, scan store c root = .ok found ∧
      found.meetings = newestFirst (heldBy store c root (store.folderNames l)) := by
  rw [scan, hroot]
  refine ⟨_, rfl, ?_⟩
  simp only [heldBy, List.filterMap_map]
  rfl

/-- A meeting that the archive in a folder holds: what the index shows of a transcript in one of its
folders, if the path to the transcript is not too long. -/
def Holds (store : Store) (c : Compiler) (root : Path) (l : Location) (m : MeetingSummary) : Prop :=
  ∃ name text, store.entry? (l ++ [name]) = some .folder ∧
    store.entry? (l ++ [name, transcriptName]) = some (.file text.toUTF8) ∧
    ((root.join name).join transcriptName).utf8ByteSize < Store.pathLimit ∧
    m = .of c name text (Date.ofPath? (root.join name))

/-- A scan finds what the archive holds, and nothing twice. -/
theorem exists_scan (hnamed : store.IsNamed) (hroot : store.find root = .ok (l, .folder)) :
    ∃ found, scan store c root = .ok found ∧
      (∀ m, m ∈ found.meetings ↔ Holds store c root l m) ∧
      found.meetings.Pairwise fun m later => later.key < m.key := by
  obtain ⟨found, hscan, hmeetings⟩ := scan_eq (c := c) hroot
  have hl : store.isFolder l = true := by simp [Store.isFolder, (Store.find_eq_ok_iff.mp hroot).2]
  refine ⟨found, hscan, fun m => ?_, ?_⟩
  · rw [hmeetings, newestFirst, List.mem_mergeSort, heldBy, List.mem_filterMap]
    constructor
    · rintro ⟨name, hname, hvisit⟩
      obtain ⟨text, hread, rfl⟩ := visit_eq_some_iff.mp hvisit
      obtain ⟨hlength, hfile⟩ := (read_transcript_iff hnamed hroot hname).mp hread
      exact ⟨name, text, (Store.mem_folderNames_iff.mp hname).2, hfile, hlength, rfl⟩
    · rintro ⟨name, text, hfolder, hfile, hlength, rfl⟩
      have hname := Store.mem_folderNames_iff.mpr ⟨hl, hfolder⟩
      have hread := (read_transcript_iff hnamed hroot hname).mpr ⟨hlength, hfile⟩
      exact ⟨name, hname, visit_eq_some_iff.mpr ⟨text, hread, rfl⟩⟩
  · rw [hmeetings]
    exact pairwise_newestFirst
      ((Store.nodup_folderNames store l).sublist (key_heldBy_sublist _))

/-- Meetings in strictly descending order are known by what is among them. -/
theorem eq_of_mem_iff {meetings others : List MeetingSummary}
    (h : meetings.Pairwise fun m later => later.key < m.key)
    (h' : others.Pairwise fun m later => later.key < m.key)
    (hmem : ∀ m, m ∈ meetings ↔ m ∈ others) : meetings = others := by
  have hnodup {ms : List MeetingSummary} (h : ms.Pairwise fun m later => later.key < m.key) :
      ms.Nodup := h.imp fun hlt heq => absurd hlt (by rw [heq]; exact lt_irrefl _)
  have hperm := (List.perm_ext_iff_of_nodup (hnodup h) (hnodup h')).mpr hmem
  exact hperm.eq_of_pairwise (fun a b _ _ hab hba => absurd hab (lt_asymm hba)) h h'

/-- The folder that paths start from, with slashes after its point. -/
def slashed : Nat → Path
  | 0 => "."
  | n + 1 => slashed n ++ "/"

theorem utf8ByteSize_slashed (n : Nat) : (slashed n).utf8ByteSize = n + 1 := by
  induction n with
  | zero => rfl
  | succ n ih =>
    rw [slashed, String.utf8ByteSize_append, ih]
    rfl

theorem toList_slashed (n : Nat) : (slashed n).toList = '.' :: List.replicate n '/' := by
  induction n with
  | zero => rfl
  | succ n ih =>
    rw [slashed, String.toList_append, ih, List.replicate_succ']
    rfl

theorem slashed_ne_empty (n : Nat) : slashed n ≠ "" := by
  intro hempty
  have hchars := toList_slashed n
  rw [hempty] at hchars
  cases hchars

theorem pieces_slashed (n : Nat) : (slashed n).pieces = "." :: List.replicate n "" := by
  induction n with
  | zero => exact Path.pieces_of_notMem (by decide)
  | succ n ih =>
    have hlast := Path.pieces_append (slashed n) ""
    have hempty : Path.pieces "" = [""] := Path.pieces_of_notMem (by simp)
    rw [String.append_empty, ih, hempty] at hlast
    rw [slashed, hlast, List.replicate_succ']
    rfl

/-- Slashes after the point lead nowhere else. -/
theorem find_slashed {n : Nat} (hn : n + 1 < Store.pathLimit)
    (hstart : store.isFolder store.start = true) :
    store.find (slashed n) = .ok (store.start, .folder) := by
  have hfolder : store.entry? store.start = some .folder := by simpa [Store.isFolder] using hstart
  have hpieces : Store.pieces (slashed n) = .ok ("." :: List.replicate n "") := by
    refine Store.pieces_eq_ok_iff.mpr ⟨?_, slashed_ne_empty n, ?_, pieces_slashed n⟩
    · simp [toList_slashed]
    · rwa [utf8ByteSize_slashed]
  have horigin : store.origin (slashed n) = store.start := by
    simp [Store.origin, Path.isAbsolute, toList_slashed]
  have hstay (name : String) (h : name = "" ∨ name = ".") :
      store.step store.start name = .ok store.start := by
    simp [Store.step, hfolder, h]
  have hfold (m : Nat) : (List.replicate m "").foldlM store.step store.start = .ok store.start := by
    induction m with
    | zero => rfl
    | succ m ih =>
      rw [List.replicate_succ, List.foldlM_cons, hstay "" (.inl rfl)]
      exact ih
  refine Store.find_of_target ?_ hfolder
  rw [Store.target, hpieces, horigin]
  change ("." :: List.replicate n "").foldlM store.step store.start = _
  rw [List.foldlM_cons, hstay "." (.inr rfl)]
  exact hfold n

end Archive
end Minutes
