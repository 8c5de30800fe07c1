import Minutes.Command.Run
import Mathlib.Tactic

/-!
How readings end. A reading adds notes and never looks at them, so two readings that agree step by
step end alike, whatever has been noted before.
-/
namespace Minutes.Command

/-- Two readings end in results that are related, or both in a failure. -/
inductive Alike (R : α → β → Prop) : Except Failure α → Except Failure β → Prop
  | ok {a : α} {b : β} (h : R a b) : Alike R (.ok a) (.ok b)
  | error (f g : Failure) : Alike R (.error f) (.error g)

theorem Alike.toOption_eq {x y : Except Failure α} (h : Alike Eq x y) :
    x.toOption = y.toOption := by
  cases h with
  | ok heq => rw [heq]
  | error f g => rfl

namespace Noted

/-- How a reading ends, and all notes after those that were there. -/
def run (x : Noted α) (notes : List Note) : Except Failure α × List Note := x notes

def Returns (x : Noted α) (a : α) : Prop := ∃ notes, (x.run notes).1 = .ok a

def Agree (R : α → β → Prop) (x : Noted α) (y : Noted β) : Prop :=
  ∀ notes notes', Alike R (x.run notes).1 (y.run notes').1

theorem run_bind (x : Noted α) (f : α → Noted β) (notes : List Note) :
    run (x >>= f) notes =
      match x.run notes with
      | (.ok a, notes) => (f a).run notes
      | (.error failure, notes) => (.error failure, notes) := by
  show (match x notes with | (r, notes) => ExceptT.bindCont f r notes) = _
  unfold run
  rcases x notes with ⟨r | a, notes⟩ <;> rfl

theorem run_map (f : α → β) (x : Noted α) (notes : List Note) :
    run (f <$> x) notes = ((x.run notes).1.map f, (x.run notes).2) := by
  rw [map_eq_pure_bind, run_bind]
  rcases x.run notes with ⟨failure | a, notes⟩ <;> rfl

section
variable {x : Noted α} {y : Noted β} {a : α} {b : β}

theorem returns_bind {f : α → Noted β} (h : Returns (x >>= f) b) :
    ∃ a, x.Returns a ∧ (f a).Returns b := by
  obtain ⟨notes, h⟩ := h
  rw [run_bind] at h
  rcases hx : x.run notes with ⟨failure | a, notes'⟩
  · rw [hx] at h
    cases h
  · rw [hx] at h
    exact ⟨a, ⟨notes, by rw [hx]⟩, notes', h⟩

theorem returns_pure {a' : α} (h : Returns (pure a) a') : a' = a := by
  obtain ⟨notes, h⟩ := h
  exact (Except.ok.inj h).symm

theorem returns_map {f : α → β} (h : Returns (f <$> x) b) : ∃ a, x.Returns a ∧ b = f a := by
  rw [map_eq_pure_bind] at h
  obtain ⟨a, ha, hb⟩ := returns_bind h
  exact ⟨a, ha, returns_pure hb⟩

theorem returns_orFail {failure : ε → Failure} {e : Except ε α}
    (h : (orFail failure e).Returns a) : e = .ok a := by
  obtain ⟨notes, h⟩ := h
  cases e with
  | error fault => cases h
  | ok a' => exact congrArg Except.ok (Except.ok.inj h)

theorem not_returns_throw {failure : Failure} : ¬ Returns (throw failure) a := by
  rintro ⟨notes, h⟩
  cases h

variable {R : α → β → Prop}

theorem agree_pure (h : R a b) : Agree R (pure a) (pure b) := fun _ _ => .ok h

theorem agree_throw (f g : Failure) : Agree R (throw f) (throw g) := fun _ _ => .error f g

theorem agree_take (n n' : Note) : Agree Eq (take n) (take n') := fun _ _ => .ok rfl

theorem agree_takeAll (n n' : List Note) : Agree Eq (takeAll n) (takeAll n') := fun _ _ => .ok rfl

/-- It does not matter for the result which fault there is. -/
theorem agree_orFail {f : ε → Failure} {g : δ → Failure} {e : Except ε α} {e' : Except δ α}
    (h : e.toOption = e'.toOption) : Agree Eq (orFail f e) (orFail g e') := by
  intro notes notes'
  cases e <;> cases e' <;> cases h
  · exact .error _ _
  · exact .ok rfl

theorem Agree.bind {S : γ → δ → Prop} {f : α → Noted γ} {g : β → Noted δ} (h : Agree R x y)
    (hfg : ∀ a b, x.Returns a → R a b → Agree S (f a) (g b)) : Agree S (x >>= f) (y >>= g) := by
  intro notes notes'
  have hends := h notes notes'
  rw [run_bind, run_bind]
  rcases hx : x.run notes with ⟨failure | a, after⟩ <;>
    rcases hy : y.run notes' with ⟨failure' | b, after'⟩ <;> rw [hx, hy] at hends <;> cases hends
  · exact .error failure failure'
  · rename_i hab
    exact hfg a b ⟨notes, by rw [hx]⟩ hab after after'

/-- A reading that agrees with another one returns the same whatever has been noted before. -/
theorem Agree.run_of_returns (h : Agree R x y) (hR : ∀ a a' b, R a b → R a' b → a = a')
    (ha : x.Returns a) (notes : List Note) : (x.run notes).1 = .ok a := by
  obtain ⟨before, ha⟩ := ha
  have hends := h before []
  have hends' := h notes []
  rw [ha] at hends
  cases hy : (y.run []).1 <;> rw [hy] at hends hends' <;> cases hends
  rename_i b hb
  cases hx : (x.run notes).1 <;> rw [hx] at hends' <;> cases hends'
  rename_i a' hb'
  rw [hR a' a b hb' hb]

end
end Noted
end Minutes.Command
