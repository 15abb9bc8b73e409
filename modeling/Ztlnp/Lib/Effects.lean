import Mathlib.Logic.Basic

/-!
# Programs That Fail

Reasoning rules for fallible programs, with and without a state.

`Except` is the monad of a pure function that may raise, `EStateM` that of a
method that mutates an object and may raise halfway. An `EStateM` program
that raises still ends in a state, the one it had reached, so every rule
about it speaks of two outcomes.

The inversion rules take a sequenced program apart at the first point where
it could have stopped. `zoom` runs a program for a component inside one for
the whole, and writes the component back on both outcomes, which is what a
method call on a sub-object does.

## Main definitions

* `ofExcept`: A pure computation, run with a state.
* `zoom`: A program for a component, run inside the whole.
* `EStateM.Result.final`: The state a program ended in.
* `EStateM.Result.returned`: The value of a program that did not raise.

## Theorems

* `EStateM.Result.error_of_returned`, `EStateM.Result.ok_of_returned`: A program
  has raised or has returned.
* `except_bind_eq_ok`: A sequenced pure program succeeds when both parts do.
* `except_mapError_eq_ok`: Replacing the error of a program.
* `mapM_eq_ok`: A loop succeeds when its body always does.
* `run_bind_eq_ok`: The same, with a state.
* `run_ofExcept_eq_ok`: A pure part returns when it succeeds.
* `run_ofExcept_final`: A pure part leaves the state alone.
* `run_zoom_eq_ok`: A zoomed program returns when the inner one does.
* `zoom_bind`, `zoom_ofExcept`: Zooming goes through a program part by part.
-/

namespace EStateM.Result

variable {ε σ α : Type}

/-- The state a program ended in, whether it returned or raised. -/
def final : EStateM.Result ε σ α → σ
  | .ok _ s => s
  | .error _ s => s

/-- The value of a program that returned. -/
def returned : EStateM.Result ε σ α → Option α
  | .ok a _ => some a
  | .error _ _ => none

/-- A program that did not return has raised. -/
theorem error_of_returned {r : EStateM.Result ε σ α} (h : r.returned = none) :
    ∃ x, r = .error x r.final := by
  cases r with
  | ok a s => simp only [returned, reduceCtorEq] at h
  | error x s => exact ⟨x, rfl⟩

/-- A program that did has returned its value. -/
theorem ok_of_returned {r : EStateM.Result ε σ α} {a : α} (h : r.returned = some a) :
    r = .ok a r.final := by
  cases r with
  | ok b s =>
      simp only [returned, Option.some.injEq] at h
      rw [h]
      rfl
  | error x s => simp only [returned, reduceCtorEq] at h

end EStateM.Result

namespace Ztlnp

variable {ε σ τ α β : Type}

theorem except_bind_eq_ok (x : Except ε α) (f : α → Except ε β) (b : β) :
    x >>= f = .ok b ↔ ∃ a, x = .ok a ∧ f a = .ok b := by
  cases x with
  | error e =>
      -- A first part that raised leaves nothing to succeed.
      refine ⟨fun h => ?_, fun ⟨_, h, _⟩ => ?_⟩
      · simp only [bind, Except.bind, reduceCtorEq] at h
      · simp only [reduceCtorEq] at h
  | ok a =>
      refine ⟨fun h => ⟨a, rfl, h⟩, fun ⟨a', h, hf⟩ => ?_⟩
      rw [Except.ok.injEq] at h
      rw [h]
      exact hf

theorem except_mapError_ok (f : ε → σ) (a : α) : (Except.ok a).mapError f = .ok a := rfl

/-- Replacing an error does not touch a result. -/
theorem except_mapError_eq_ok (f : ε → σ) (x : Except ε α) (a : α) :
    x.mapError f = .ok a ↔ x = .ok a := by
  cases x with
  | error e =>
      change (Except.error (f e) : Except σ α) = .ok a ↔ _
      simp only [reduceCtorEq]
  | ok b => rw [except_mapError_ok, Except.ok.injEq, Except.ok.injEq]

/-- A loop whose body returns `g` of an element where `P` holds, and raises
    elsewhere, returns exactly when `P` holds throughout. -/
theorem mapM_eq_ok {f : α → Except ε β} {P : α → Prop} {g : α → β}
    (hf : ∀ a b, f a = .ok b ↔ P a ∧ b = g a) (as : List α) (bs : List β) :
    as.mapM f = .ok bs ↔ (∀ a ∈ as, P a) ∧ bs = as.map g := by
  induction as generalizing bs with
  | nil =>
      rw [List.mapM_nil, List.map_nil]
      exact ⟨fun h => ⟨fun a ha => absurd ha List.not_mem_nil, (Except.ok.inj h).symm⟩,
        fun h => h.2 ▸ rfl⟩
  | cons a as ih =>
      rw [List.mapM_cons, except_bind_eq_ok, List.forall_mem_cons, List.map_cons]
      constructor
      · rintro ⟨b, hb, hrest⟩
        rcases (except_bind_eq_ok _ _ _).mp hrest with ⟨bs', hbs', hret⟩
        rcases (hf a b).mp hb with ⟨ha, rfl⟩
        rcases (ih bs').mp hbs' with ⟨has, rfl⟩
        exact ⟨⟨ha, has⟩, (Except.ok.inj hret).symm⟩
      · rintro ⟨⟨ha, has⟩, rfl⟩
        refine ⟨g a, (hf a (g a)).mpr ⟨ha, rfl⟩, (except_bind_eq_ok _ _ _).mpr ?_⟩
        exact ⟨as.map g, (ih _).mpr ⟨has, rfl⟩, rfl⟩

/-- A property of the value of a pure program, if it has one, can be decided
    by running the program. -/
instance decidableForallOk (x : Except ε α) (P : α → Prop) [∀ a, Decidable (P a)] :
    Decidable (∀ a, x = .ok a → P a) :=
  match x with
  | .ok a => decidable_of_iff (P a)
      ⟨fun h _ ha => Except.ok.inj ha ▸ h, fun h => h a rfl⟩
  | .error _ => .isTrue (fun _ h => nomatch h)

/-- Programs that run alike from every state are the same. -/
theorem program_ext (x y : EStateM ε σ α) (h : ∀ s, x.run s = y.run s) : x = y := funext h

/-- A sequenced program returns exactly when both of its parts do. -/
theorem run_bind_eq_ok (x : EStateM ε σ α) (f : α → EStateM ε σ β) (s t : σ) (b : β) :
    (x >>= f).run s = .ok b t ↔ ∃ a u, x.run s = .ok a u ∧ (f a).run u = .ok b t := by
  rw [EStateM.run_bind]
  cases hx : x.run s with
  | ok a u =>
      simp only [EStateM.Result.ok.injEq]
      exact ⟨fun h => ⟨a, u, ⟨rfl, rfl⟩, h⟩, fun ⟨_, _, ⟨ha, hu⟩, h⟩ => ha ▸ hu ▸ h⟩
  | error e u =>
      simp only [reduceCtorEq, false_and, exists_false]

/-- A pure fallible computation as a program that keeps the state. -/
def ofExcept (x : Except ε α) : EStateM ε σ α := fun s =>
  match x with
  | .ok a => .ok a s
  | .error e => .error e s

@[simp]
theorem run_ofExcept_ok (a : α) (s : σ) :
    (ofExcept (.ok a) : EStateM ε σ α).run s = .ok a s := rfl

@[simp]
theorem run_ofExcept_error (e : ε) (s : σ) :
    (ofExcept (.error e) : EStateM ε σ α).run s = .error e s := rfl

theorem run_ofExcept_eq_ok (x : Except ε α) (s t : σ) (a : α) :
    (ofExcept x : EStateM ε σ α).run s = .ok a t ↔ x = .ok a ∧ t = s := by
  cases x with
  | ok b =>
      simp only [EStateM.run, ofExcept, EStateM.Result.ok.injEq, Except.ok.injEq]
      exact ⟨fun h => ⟨h.1, h.2.symm⟩, fun h => ⟨h.1, h.2.symm⟩⟩
  | error e => simp only [EStateM.run, ofExcept, reduceCtorEq, false_and]

theorem run_ofExcept_final (x : Except ε α) (s : σ) :
    ((ofExcept x : EStateM ε σ α).run s).final = s := by
  cases x with
  | ok a => rfl
  | error e => rfl

/-- Run a program for a component of the state. The component is written back
    on both outcomes. -/
def zoom (get : σ → τ) (put : τ → σ → σ) (x : EStateM ε τ α) : EStateM ε σ α := fun s =>
  match x.run (get s) with
  | .ok a t => .ok a (put t s)
  | .error e t => .error e (put t s)

theorem run_zoom (get : σ → τ) (put : τ → σ → σ) (x : EStateM ε τ α) (s : σ) :
    (zoom get put x).run s = match x.run (get s) with
      | .ok a t => .ok a (put t s)
      | .error e t => .error e (put t s) := rfl

theorem run_zoom_eq_ok (get : σ → τ) (put : τ → σ → σ) (x : EStateM ε τ α) (s s' : σ) (a : α) :
    (zoom get put x).run s = .ok a s' ↔ ∃ t, x.run (get s) = .ok a t ∧ s' = put t s := by
  simp only [EStateM.run, zoom]
  cases hx : x (get s) with
  | ok b t =>
      simp only [EStateM.Result.ok.injEq]
      exact ⟨fun h => ⟨t, ⟨h.1, rfl⟩, h.2.symm⟩, fun ⟨_, ⟨hb, ht⟩, hs⟩ => ⟨hb, ht ▸ hs.symm⟩⟩
  | error e t => simp only [reduceCtorEq, false_and, exists_false]

/-- Zooming a sequence is a sequence of zooms, if the component is read back as
    it was written and only the last write counts. -/
theorem zoom_bind (get : σ → τ) (put : τ → σ → σ) (hget : ∀ t s, get (put t s) = t)
    (hput : ∀ t t' s, put t' (put t s) = put t' s) (x : EStateM ε τ α) (f : α → EStateM ε τ β) :
    zoom get put (x >>= f) = zoom get put x >>= fun a => zoom get put (f a) := by
  refine program_ext _ _ (fun s => ?_)
  simp only [run_zoom, EStateM.run_bind]
  cases x.run (get s) with
  | error e t => rfl
  | ok a t => simp only [hget, hput]

/-- A pure part does not see the component. -/
theorem zoom_ofExcept (get : σ → τ) (put : τ → σ → σ) (hset : ∀ s, put (get s) s = s)
    (x : Except ε α) : zoom get put (ofExcept x) = ofExcept x := by
  refine program_ext _ _ (fun s => ?_)
  rw [run_zoom]
  cases x with
  | ok a => simp only [run_ofExcept_ok, hset]
  | error e => simp only [run_ofExcept_error, hset]

end Ztlnp
