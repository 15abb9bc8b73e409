import Ztlnp.Lib.Runs

/-!
# Two Runs Side by Side

Two runs of one machine that take their steps together.

A statement about what one cannot tell from a run compares two of them. The
inputs come in pairs, the machine takes a step on either side, and a relation
between the two states is carried along. Whether two inputs go together may
depend on the states they are taken in, so the condition is one on the pair of
runs, as `Along` has it.

## Main definitions

* `lockstep`: One step on either side.

## Theorems

* `run_lockstep`: A run of pairs is a pair of runs.
* `lockstep_related`: A relation that steps on paired inputs keep relates the
  two ends.
-/

namespace Ztlnp

variable {σ α : Type} {step : σ → α → σ}

/-- A step on either side. -/
def lockstep (step : σ → α → σ) (s : σ × σ) (a : α × α) : σ × σ := (step s.1 a.1, step s.2 a.2)

/-- A run of pairs is a pair of runs. -/
theorem run_lockstep (s : σ × σ) (as : List (α × α)) :
    as.foldl (lockstep step) s
      = ((as.map Prod.fst).foldl step s.1, (as.map Prod.snd).foldl step s.2) := by
  induction as generalizing s with
  | nil => rfl
  | cons a as ih => exact ih (lockstep step s a)

/-- A relation that is kept by a step on either side, if the inputs go together,
    relates the ends of two runs. -/
theorem lockstep_related (R : σ → σ → Prop) (P : σ × σ → α × α → Prop)
    (hstep : ∀ s t a b, R s t → P (s, t) (a, b) → R (step s a) (step t b)) (s t : σ)
    (as : List (α × α)) (h : R s t) (hrun : Along (lockstep step) P (s, t) as) :
    R ((as.map Prod.fst).foldl step s) ((as.map Prod.snd).foldl step t) := by
  have hends := along_invariant (fun p : σ × σ => R p.1 p.2)
    (fun p a hp ha => hstep p.1 p.2 a.1 a.2 hp ha) (s, t) as h hrun
  rw [run_lockstep] at hends
  exact hends

end Ztlnp
