import Mathlib
import Ztlnp.Lib.Effects

/-!
# Triples for Programs That Fail

Rules of pre- and postconditions for the two combinators of `Lib.Effects`.

The triples are those of the standard library. A postcondition of a fallible program
has two parts, one for the value and the state of a run that returns and one for the
exception and the state of a run that raises, so a triple says as much about a failure
as about a success.

A pure part is specified by its own triple, which does not see the state. A program
for a component is specified on the component, with the whole put back together in
both parts of the postcondition. Both rules hold for any postcondition, so they can be
applied backwards wherever the combinators occur.

`except_triple_iff` and `triple_iff` say what a triple is about runs. A method whose
runs have been listed already gets its triple from that list.

## Theorems

* `except_ok_spec`, `except_error_spec`: The rules of an outcome.
* `ofExcept_spec`: The rule of a pure part.
* `zoom_spec`: The rule of a program for a component.
* `except_triple_iff`, `triple_iff`: Triples and runs.
* `raised_of_triple`: What a triple says of a run that raised.
* `triple_weaken`: The rule of consequence.
* `triple_of_cases`: A triple from a list of runs.
-/

namespace Ztlnp

open Std.Do

variable {ε σ τ α : Type}

theorem wp_of_ok {x : EStateM ε σ α} {s t : σ} {a : α} (h : x.run s = .ok a t)
    (Q : PostCond α (.except ε (.arg σ .pure))) : wp⟦x⟧ Q s = Q.1 a t := by
  simp only [wp, PredTrans.apply, h]

theorem wp_of_error {x : EStateM ε σ α} {s t : σ} {e : ε} (h : x.run s = .error e t)
    (Q : PostCond α (.except ε (.arg σ .pure))) : wp⟦x⟧ Q s = Q.2.1 e t := by
  simp only [wp, PredTrans.apply, h]

/-- A pure program that is written as its outcome. -/
@[spec]
theorem except_ok_spec (a : α) (Q : PostCond α (.except ε .pure)) :
    ⦃Q.1 a⦄ (Except.ok a : Except ε α) ⦃Q⦄ := fun h => h

@[spec]
theorem except_error_spec (e : ε) (Q : PostCond α (.except ε .pure)) :
    ⦃Q.2.1 e⦄ (Except.error e : Except ε α) ⦃Q⦄ := fun h => h

/-- A pure part does what it does without the state. -/
@[spec]
theorem ofExcept_spec (x : Except ε α) (Q : PostCond α (.except ε (.arg σ .pure))) :
    ⦃fun s => wp⟦x⟧ (fun a => Q.1 a s, fun e => Q.2.1 e s, ())⦄
    (ofExcept x : EStateM ε σ α)
    ⦃Q⦄ := by
  intro s h
  cases x with
  | ok a => exact h
  | error e => exact h

/-- A program for a component, with the component written back on both outcomes. -/
@[spec]
theorem zoom_spec (get : σ → τ) (put : τ → σ → σ) (x : EStateM ε τ α)
    (Q : PostCond α (.except ε (.arg σ .pure))) :
    ⦃fun s => wp⟦x⟧ (fun a t => Q.1 a (put t s), fun e t => Q.2.1 e (put t s), ()) (get s)⦄
    zoom get put x
    ⦃Q⦄ := by
  intro s h
  have hrun := run_zoom get put x s
  cases hx : x.run (get s) with
  | ok a t =>
      rw [hx] at hrun
      rw [wp_of_ok hrun]
      simpa only [wp_of_ok hx] using h
  | error e t =>
      rw [hx] at hrun
      rw [wp_of_error hrun]
      simpa only [wp_of_error hx] using h

/-- A triple of a pure program is a statement about its outcome. -/
theorem except_triple_iff (x : Except ε α) (P : Prop) (Q : α → Prop) (E : ε → Prop) :
    ⦃⌜P⌝⦄ x ⦃post⟨fun a => ⌜Q a⌝, fun e => ⌜E e⌝⟩⦄ ↔
      (P → (∀ a, x = .ok a → Q a) ∧ ∀ e, x = .error e → E e) := by
  cases x with
  | ok a =>
      refine ⟨fun h hP => ⟨fun b hb => ?_, fun e he => ?_⟩, fun h hP => (h hP).1 a rfl⟩
      · cases hb
        exact h hP
      · cases he
  | error e =>
      refine ⟨fun h hP => ⟨fun b hb => ?_, fun y hy => ?_⟩, fun h hP => (h hP).2 e rfl⟩
      · cases hb
      · cases hy
        exact h hP

/-- A triple is a statement about every run that starts where it allows. -/
theorem triple_iff (x : EStateM ε σ α) (P : σ → Prop) (Q : α → σ → Prop) (E : ε → σ → Prop) :
    ⦃fun s => ⌜P s⌝⦄ x ⦃post⟨fun a s => ⌜Q a s⌝, fun e s => ⌜E e s⌝⟩⦄ ↔
      ∀ s, P s → (∀ a t, x.run s = .ok a t → Q a t) ∧ ∀ e t, x.run s = .error e t → E e t := by
  constructor
  · intro h s hP
    have hs := h s hP
    refine ⟨fun a t hx => ?_, fun e t hx => ?_⟩
    · rw [wp_of_ok hx] at hs
      exact hs
    · rw [wp_of_error hx] at hs
      exact hs
  · intro h s hP
    cases hx : x.run s with
    | ok a t =>
        rw [wp_of_ok hx]
        exact (h s hP).1 a t hx
    | error e t =>
        rw [wp_of_error hx]
        exact (h s hP).2 e t hx

/-- What a triple says of a run that raised. -/
theorem raised_of_triple {x : EStateM ε σ α} {P : σ → Prop} {Q : α → σ → Prop}
    {E : ε → σ → Prop} (h : ⦃fun s => ⌜P s⌝⦄ x ⦃post⟨fun a s => ⌜Q a s⌝, fun e s => ⌜E e s⌝⟩⦄)
    {s t : σ} {e : ε} (hP : P s) (hx : x.run s = .error e t) : E e t :=
  ((triple_iff x P Q E).mp h s hP).2 e t hx

/-- The rule of consequence. -/
theorem triple_weaken {x : EStateM ε σ α} {P : σ → Prop} {Q Q' : α → σ → Prop}
    {E E' : ε → σ → Prop} (hQ : ∀ a s, Q a s → Q' a s) (hE : ∀ e s, E e s → E' e s)
    (h : ⦃fun s => ⌜P s⌝⦄ x ⦃post⟨fun a s => ⌜Q a s⌝, fun e s => ⌜E e s⌝⟩⦄) :
    ⦃fun s => ⌜P s⌝⦄ x ⦃post⟨fun a s => ⌜Q' a s⌝, fun e s => ⌜E' e s⌝⟩⦄ := by
  rw [triple_iff] at h ⊢
  intro s hP
  exact ⟨fun a t hx => hQ a t ((h s hP).1 a t hx), fun e t hx => hE e t ((h s hP).2 e t hx)⟩

/-- A triple from a list of the runs that can occur. -/
theorem triple_of_cases {x : EStateM ε σ α} {P : σ → Prop} {Q : α → σ → Prop}
    {E : ε → σ → Prop}
    (h : ∀ s, P s →
      (∃ a t, x.run s = .ok a t ∧ Q a t) ∨ ∃ e t, x.run s = .error e t ∧ E e t) :
    ⦃fun s => ⌜P s⌝⦄ x ⦃post⟨fun a s => ⌜Q a s⌝, fun e s => ⌜E e s⌝⟩⦄ := by
  intro s hP
  rcases h s hP with ⟨a, t, hx, hQ⟩ | ⟨e, t, hx, hE⟩
  · rw [wp_of_ok hx]
    exact hQ
  · rw [wp_of_error hx]
    exact hE

end Ztlnp
