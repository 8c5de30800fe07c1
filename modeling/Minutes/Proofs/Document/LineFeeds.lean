import Minutes.Document.Compile
import Mathlib.Tactic

/-!
Line feeds in the minutes. Closing up blank lines leaves some of every run of line feeds, and two
texts are closed up each on its own if no run goes on from one to the other.
-/
namespace Minutes.Text

/-- Of any run, some line feeds stay. -/
theorem newline_mem_closeUpFrom_iff {newlines : Nat} (h : newlines < 2) (s : List Char) :
    '\n' ∈ closeUpFrom newlines s ↔ '\n' ∈ s := by
  induction s generalizing newlines with
  | nil => rfl
  | cons c s ih =>
    unfold closeUpFrom
    split_ifs with hc
    · subst hc
      simp
    · rw [List.mem_cons, List.mem_cons, ih (by decide)]

theorem closeUpFrom_of_notMem {s : List Char} (h : '\n' ∉ s) (newlines : Nat) :
    closeUpFrom newlines s = s := by
  induction s generalizing newlines with
  | nil => rfl
  | cons c s ih =>
    obtain ⟨hc, hs⟩ : '\n' ≠ c ∧ '\n' ∉ s := by simpa using h
    rw [closeUpFrom, if_neg hc.symm, ih hs]

/-- No run goes on after a text that ends with another character. -/
theorem closeUpFrom_append {s : List Char} {c : Char} (hs : s.getLast? = some c) (hc : c ≠ '\n')
    (newlines : Nat) (t : List Char) :
    closeUpFrom newlines (s ++ t) = closeUpFrom newlines s ++ closeUpFrom 0 t := by
  induction s generalizing newlines with
  | nil => cases hs
  | cons d s ih =>
    cases s with
    | nil =>
      obtain rfl : d = c := by simpa using hs
      simp [closeUpFrom, hc]
    | cons e s =>
      rw [List.getLast?_cons_cons] at hs
      rw [List.cons_append, closeUpFrom, closeUpFrom]
      split_ifs
      · rw [ih hs, List.cons_append]
      · exact ih hs newlines
      · rw [ih hs, List.cons_append]

end Minutes.Text

namespace Minutes

theorem newline_mem_closeUp_iff (s : String) :
    '\n' ∈ (closeUp s).toList ↔ '\n' ∈ s.toList := by
  rw [toList_closeUp, Text.closedUp, Text.newline_mem_closeUpFrom_iff (by decide)]

theorem closeUp_of_notMem {s : String} (h : '\n' ∉ s.toList) : closeUp s = s := by
  apply String.toList_injective
  rw [toList_closeUp, Text.closedUp, Text.closeUpFrom_of_notMem h]

theorem Date.newline_notMem_digits (width n : Nat) : '\n' ∉ Date.digits width n := by
  intro h
  rcases List.mem_append.mp h with h | h
  · cases List.eq_of_mem_replicate h
  · have hdigit := Nat.isDigit_of_mem_toDigits (b := 10) (by decide) (by decide) h
    cases hdigit

theorem Date.newline_notMem_iso (d : Date) : '\n' ∉ d.iso.toList := by
  have hyear : '\n' ∉ Date.yearChars d.year := by
    unfold Date.yearChars
    split_ifs <;> simp [Date.newline_notMem_digits]
  simp [Date.iso, hyear, Date.newline_notMem_digits]

theorem Html.newline_mem_printAll {nodes : List Html.Node} (h : Web.newline ∈ nodes) :
    '\n' ∈ (Html.printAll nodes).toList := by
  obtain ⟨before, after, rfl⟩ := List.append_of_mem h
  have hprint : Web.newline.print.toList = ['\n'] := by decide
  rw [Html.printAll_append, Html.printAll]
  simp [hprint]

/-- Minutes have more than one line, on a page and in plain text. -/
theorem Compiler.newline_mem_document (c : Compiler) (mode : Mode) (hearing : Hearing) :
    '\n' ∈ (c.document mode hearing).toList := by
  cases mode with
  | html =>
    have hsummary : '\n' ∈ (Web.summary c.today c.roster hearing.record).toList :=
      Html.newline_mem_printAll (by simp [Web.summaryNodes])
    simp [Compiler.document, Mode.finish, Compiler.summary, hsummary]
  | text =>
    rw [Compiler.document, Mode.finish, newline_mem_closeUp_iff]
    simp [Compiler.summary, Plain.summary]

end Minutes
