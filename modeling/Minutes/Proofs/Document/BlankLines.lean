import Mathlib.Data.List.SplitBy
import Minutes.Proofs.Document.LineFeeds
import Minutes.Proofs.Text.Words

/-!
Blank lines in the minutes. Closing up a text cuts each run of line feeds to two, if it has more,
and leaves all else. So a text has no more than one blank line in a row, and parts that are put
together may have been closed up before.
-/
namespace Minutes
namespace Text

/-- Whether two characters are both line feeds, or neither is. -/
def alike (c d : Char) : Bool := (c == '\n') == (d == '\n')

/-- The longest runs of line feeds, and of other characters, that a text is made of. -/
def runs (s : List Char) : List (List Char) := s.splitBy alike

/-- What is left of a run: of three line feeds or more, two. -/
def closedRun (run : List Char) : List Char :=
  if 3 ≤ run.length ∧ run.all (· == '\n') then ['\n', '\n'] else run

theorem alike_eq_true_iff {c d : Char} : alike c d = true ↔ (c = '\n' ↔ d = '\n') := by
  rw [alike, beq_iff_eq, Bool.eq_iff_iff, beq_iff_eq, beq_iff_eq]

/-- A run is of one kind throughout. -/
theorem forall_eq_or_notMem_of_isChain {run : List Char} (h : run.IsChain (alike · ·)) :
    (∀ c ∈ run, c = '\n') ∨ '\n' ∉ run := by
  induction run with
  | nil => exact .inr List.not_mem_nil
  | cons c run ih =>
    cases run with
    | nil => simp [eq_comm, em]
    | cons d run =>
      obtain ⟨hcd, hrun⟩ := List.isChain_cons_cons.mp h
      rw [alike_eq_true_iff] at hcd
      rcases ih hrun with hall | hnone
      · left
        exact List.forall_mem_cons.mpr ⟨hcd.mpr (hall d List.mem_cons_self), hall⟩
      · right
        have hd : d ≠ '\n' := fun hd => hnone (hd ▸ List.mem_cons_self)
        exact List.not_mem_cons_of_ne_of_not_mem (fun hc => hd (hcd.mp hc.symm)) hnone

theorem closedRun_replicate (k : Nat) :
    closedRun (List.replicate k '\n') = List.replicate (min k 2) '\n' := by
  unfold closedRun
  split_ifs with h
  · rw [List.length_replicate] at h
    rw [Nat.min_eq_right (by omega)]
    rfl
  · have hk : k ≤ 2 := by
      by_contra hk
      exact h ⟨by rw [List.length_replicate]; omega, by simp⟩
    rw [Nat.min_eq_left hk]

theorem closedRun_of_notMem {run : List Char} (h : '\n' ∉ run) : closedRun run = run := by
  refine if_neg ?_
  rintro ⟨hlength, hall⟩
  obtain ⟨c, rest, rfl⟩ := List.exists_cons_of_length_pos (by omega : 0 < run.length)
  have hc : c = '\n' := by simpa using List.all_eq_true.mp hall c List.mem_cons_self
  exact h (hc ▸ List.mem_cons_self)

/-- The line feeds before a text are of no account if it does not begin with one. -/
theorem closeUpFrom_of_head? {s : List Char} (h : s.head? ≠ some '\n') (newlines : Nat) :
    closeUpFrom newlines s = closedUp s := by
  cases s with
  | nil => rfl
  | cons c s =>
    have hc : c ≠ '\n' := fun hc => h (congrArg some hc)
    rw [closedUp, closeUpFrom, closeUpFrom, if_neg hc, if_neg hc]

theorem closeUpFrom_replicate_append {newlines : Nat} (h : newlines ≤ 2) (k : Nat)
    {s : List Char} (hs : s.head? ≠ some '\n') :
    closeUpFrom newlines (List.replicate k '\n' ++ s) =
      List.replicate (min k (2 - newlines)) '\n' ++ closedUp s := by
  induction k generalizing newlines with
  | zero => simpa using closeUpFrom_of_head? hs newlines
  | succ k ih =>
    rw [List.replicate_succ, List.cons_append, closeUpFrom, if_pos rfl]
    split_ifs with hlt
    · have hmin : min (k + 1) (2 - newlines) = min k (2 - (newlines + 1)) + 1 := by omega
      rw [ih hlt, hmin, List.replicate_succ, List.cons_append]
    · obtain rfl : newlines = 2 := by omega
      simpa using ih h

theorem closedUp_append_of_head? (s : List Char) {t : List Char} (h : t.head? ≠ some '\n') :
    closedUp (s ++ t) = closedUp s ++ closedUp t := by
  obtain ⟨newlines, hs⟩ := exists_closeUpFrom_append 0 s t
  rw [closedUp, hs, closeUpFrom_of_head? h newlines]
  rfl

/-- A row that is not empty stays as it is, and ends any run. -/
theorem closeUpFrom_row_append {row : List Char} (hne : row ≠ []) (h : '\n' ∉ row)
    (newlines : Nat) (s : List Char) :
    closeUpFrom newlines (row ++ s) = row ++ closedUp s := by
  have hlast : row.getLast hne ≠ '\n' := fun hc => h (hc ▸ List.getLast_mem hne)
  rw [closeUpFrom_append (List.getLast?_eq_some_getLast hne) hlast, closeUpFrom_of_notMem h]
  rfl

/-- Rows that are not empty stay as they are, whatever stands before them. -/
theorem closeUpFrom_rows_append {rows : List (List Char)}
    (h : ∀ row ∈ rows, row ≠ [] ∧ '\n' ∉ row) (newlines : Nat) {s : List Char}
    (hs : s.head? ≠ some '\n') :
    closeUpFrom newlines (rows.flatMap (· ++ ['\n']) ++ s) =
      rows.flatMap (· ++ ['\n']) ++ closedUp s := by
  induction rows generalizing newlines with
  | nil => exact closeUpFrom_of_head? hs newlines
  | cons row rows ih =>
    obtain ⟨⟨hne, hrow⟩, hrows⟩ := List.forall_mem_cons.mp h
    have hnext (t : List Char) : closedUp ('\n' :: t) = '\n' :: closeUpFrom 1 t := rfl
    rw [List.flatMap_cons, List.append_assoc, List.append_assoc, List.append_assoc,
      closeUpFrom_row_append hne hrow, List.singleton_append, hnext, ih hrows]
    simp

/-- Each run is closed up on its own. -/
theorem closedUp_run_append {run rest : List Char} (hne : run ≠ [])
    (hrun : run.IsChain (alike · ·))
    (hbreak : ∀ c ∈ rest.head?, alike (run.getLast hne) c = false) :
    closedUp (run ++ rest) = closedRun run ++ closedUp rest := by
  rcases forall_eq_or_notMem_of_isChain hrun with hall | hnone
  · have hlast : run.getLast hne = '\n' := hall _ (List.getLast_mem hne)
    have hrest : rest.head? ≠ some '\n' := by
      intro hhead
      have hc := hbreak '\n' hhead
      rw [hlast] at hc
      cases hc
    have hreplicate : run = List.replicate run.length '\n' := List.eq_replicate_of_mem hall
    rw [hreplicate, closedRun_replicate]
    exact closeUpFrom_replicate_append (Nat.zero_le 2) _ hrest
  · rw [closedRun_of_notMem hnone]
    exact closeUpFrom_row_append hne hnone 0 rest

theorem closedUp_flatten {runs : List (List Char)} (hne : [] ∉ runs)
    (hruns : ∀ run ∈ runs, run.IsChain (alike · ·))
    (hbreaks : runs.IsChain fun run next =>
      ∃ hrun hnext, alike (run.getLast hrun) (next.head hnext) = false) :
    closedUp runs.flatten = runs.flatMap closedRun := by
  induction runs with
  | nil => rfl
  | cons run runs ih =>
    obtain ⟨hrun, hne⟩ : run ≠ [] ∧ [] ∉ runs := by simpa [eq_comm] using hne
    obtain ⟨hchain, hruns⟩ := List.forall_mem_cons.mp hruns
    have hbreak : ∀ c ∈ runs.flatten.head?, alike (run.getLast hrun) c = false := by
      intro c hc
      cases runs with
      | nil => cases hc
      | cons next runs =>
        obtain ⟨⟨_, hnext, hapart⟩, -⟩ := List.isChain_cons_cons.mp hbreaks
        rw [List.flatten_cons, List.head?_append_of_ne_nil _ hnext,
          List.head?_eq_some_head hnext] at hc
        obtain rfl := Option.some.inj hc
        exact hapart
    rw [List.flatten_cons, closedUp_run_append hrun hchain hbreak, ih hne hruns hbreaks.tail,
      List.flatMap_cons]

/-- A text is closed up run by run. -/
theorem closedUp_eq_flatMap_runs (s : List Char) : closedUp s = (runs s).flatMap closedRun := by
  have h := closedUp_flatten (List.nil_notMem_splitBy alike s)
    (fun _ => List.isChain_of_mem_splitBy) (List.isChain_getLast_head_splitBy alike s)
  rwa [List.flatten_splitBy] at h

/-- With those before it, a text that has been closed up begins with no more than two line feeds. -/
theorem not_replicate_prefix_closeUpFrom {newlines more : Nat} (h : newlines + more = 2)
    (s : List Char) : ¬ List.replicate (more + 1) '\n' <+: closeUpFrom newlines s := by
  induction s generalizing newlines more with
  | nil => simp [closeUpFrom, List.replicate_succ]
  | cons c s ih =>
    rw [closeUpFrom]
    split_ifs with hc hlt
    · cases more with
      | zero => omega
      | succ more =>
        rw [List.replicate_succ, hc, List.cons_prefix_cons]
        rintro ⟨-, hbegins⟩
        exact ih (by omega) hbegins
    · exact ih h
    · rw [List.replicate_succ, List.cons_prefix_cons]
      rintro ⟨heq, -⟩
      exact hc heq.symm

theorem not_replicate_infix_closeUpFrom {newlines : Nat} (h : newlines ≤ 2) (s : List Char) :
    ¬ List.replicate 3 '\n' <:+: closeUpFrom newlines s := by
  induction s generalizing newlines with
  | nil => simp [closeUpFrom, List.replicate_succ]
  | cons c s ih =>
    have hbegins : ¬ List.replicate 3 '\n' <+: closeUpFrom newlines (c :: s) := by
      intro hthree
      obtain ⟨more, hmore⟩ := Nat.exists_eq_add_of_le h
      have hfewer : List.replicate (more + 1) '\n' <+: List.replicate 3 '\n' := by
        rw [List.prefix_replicate_iff, List.length_replicate]
        exact ⟨by omega, rfl⟩
      exact not_replicate_prefix_closeUpFrom hmore.symm (c :: s) (hfewer.trans hthree)
    rw [closeUpFrom] at hbegins ⊢
    split_ifs at hbegins ⊢ with hc hlt
    · rw [List.infix_cons_iff]
      exact not_or.mpr ⟨hbegins, ih hlt⟩
    · exact ih h
    · rw [List.infix_cons_iff]
      exact not_or.mpr ⟨hbegins, ih (Nat.zero_le 2)⟩

/-- What has been closed up after fewer line feeds can be closed up again after more. -/
theorem closeUpFrom_closeUpFrom_append {fewer newlines : Nat} (h : fewer ≤ newlines)
    (htwo : newlines ≤ 2) (s t : List Char) :
    closeUpFrom newlines (closeUpFrom fewer s ++ t) = closeUpFrom newlines (s ++ t) := by
  induction s generalizing fewer newlines with
  | nil => rfl
  | cons c s ih =>
    by_cases hc : c = '\n'
    -- one more line feed is kept both times, or the first time alone, or neither time
    · subst hc
      by_cases hlt : newlines < 2
      · have hfewer : fewer < 2 := by omega
        simp only [closeUpFrom, hlt, hfewer, if_true, List.cons_append]
        rw [ih (by omega) hlt]
      · obtain rfl : newlines = 2 := by omega
        by_cases hfewer : fewer < 2 <;>
          simp only [closeUpFrom, hfewer, if_true, if_false, List.cons_append, Nat.lt_irrefl]
        · exact ih hfewer htwo
        · exact ih h htwo
    · simp only [closeUpFrom, hc, if_false, List.cons_append]
      rw [ih (Nat.le_refl 0) (Nat.zero_le 2)]

theorem closeUpFrom_append_closedUp {newlines : Nat} (h : newlines ≤ 2) (s t : List Char) :
    closeUpFrom newlines (s ++ closedUp t) = closeUpFrom newlines (s ++ t) := by
  induction s generalizing newlines with
  | nil =>
    have ht := closeUpFrom_closeUpFrom_append (Nat.zero_le newlines) h t []
    rwa [List.append_nil, List.append_nil] at ht
  | cons c s ih =>
    rw [List.cons_append, List.cons_append, closeUpFrom, closeUpFrom]
    split_ifs with hc hlt
    · rw [ih hlt]
    · exact ih h
    · rw [ih (Nat.zero_le 2)]

/-- Parts of a text may be closed up before it is. -/
theorem closedUp_append (s t : List Char) :
    closedUp (s ++ t) = closedUp (closedUp s ++ closedUp t) := by
  have hs := closeUpFrom_closeUpFrom_append (Nat.le_refl 0) (Nat.zero_le 2) s (closedUp t)
  exact (hs.trans (closeUpFrom_append_closedUp (Nat.zero_le 2) s t)).symm

end Text

theorem closeUp_append (s t : String) : closeUp (s ++ t) = closeUp (closeUp s ++ closeUp t) := by
  apply String.toList_injective
  simp only [toList_closeUp, String.toList_append]
  exact Text.closedUp_append s.toList t.toList

/-- Closing up a text cuts each of its longest runs of line feeds to two, if it has three or more,
and leaves all else as it is. So plain minutes never have three line feeds in a row, a text is
closed up once and for all, and its parts may be closed up before they are put together. -/
theorem closeUp_cuts_runs :
    (∀ s : String, (closeUp s).toList = (Text.runs s.toList).flatMap Text.closedRun) ∧
    (∀ (c : Compiler) (transcript : String) (date : Option Date) (audio : Bool),
      ¬ ['\n', '\n', '\n'] <:+: (c.compile .text transcript date audio).document.toList) ∧
    (∀ s : String, closeUp (closeUp s) = closeUp s) ∧
    ∀ s t : String, closeUp (s ++ t) = closeUp (closeUp s ++ closeUp t) := by
  refine ⟨fun s => ?_, fun c transcript date audio => ?_, fun s => ?_, closeUp_append⟩
  · rw [toList_closeUp, Text.closedUp_eq_flatMap_runs]
  · have hdocument : (c.compile .text transcript date audio).document =
        closeUp (c.summary (c.hear transcript date audio).record .text ++
          String.join ((c.hear transcript date audio).events.map Plain.event)) := rfl
    rw [hdocument, toList_closeUp]
    exact Text.not_replicate_infix_closeUpFrom (Nat.zero_le 2) _
  · have h := closeUp_append s ""
    have hempty : closeUp "" = "" := by decide
    rw [hempty, String.append_empty, String.append_empty] at h
    exact h.symm

/-- A run that goes on from one part to the next is a single one. -/
example :
    (Text.runs ("a\n\n\n" ++ "\nb\n").toList).map String.ofList = ["a", "\n\n\n\n", "b", "\n"] ∧
    closeUp "a\n\n\n" ++ closeUp "\nb\n" = "a\n\n\nb\n" ∧
    closeUp ("a\n\n\n" ++ "\nb\n") = "a\n\nb\n" := by decide

end Minutes
