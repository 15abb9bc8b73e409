import Mathlib.Algebra.BigOperators.Group.Finset.Basic
import Mathlib.Algebra.Order.BigOperators.Group.Finset
import Mathlib.Algebra.Order.Ring.Defs
import Mathlib.Tactic.Ring

/-!
# Retry Timers

A timer that is started again with every attempt, for a longer wait each time.

What is kept beside the time of the last attempt is the wait that governs the
next one, and an attempt makes a new wait out of the old. `Paced` ties the two
to the number of attempts and to the time at which it all began: the wait is
the one that so many attempts make, and the last attempt was made no earlier
than after all the waits before it. It says nothing about how late an attempt
may be, because whoever drives the timer may come round as late as it likes.

The one thing that is asked of the clock is that it does not run back between
the reading that finds a timer due and the reading that starts it again.

## Main definitions

* `Pace`: The first wait, and what an attempt makes of a wait.
* `Pace.wait`, `Pace.span`: The wait after a number of attempts, and all waits
  up to there.
* `Pace.doubling`: Every wait is twice the one before, up to a cap.
* `Paced`: A timer that has kept its pace.

## Theorems

* `Paced.again`: An attempt that is due keeps the pace.
* `Paced.due_le`: When a timer can be due.
* `Pace.doubling_wait`: The waits of a doubling pace.
-/

namespace Ztlnp

variable {τ : Type}

/-- The first wait, and what an attempt makes of a wait. -/
structure Pace (τ : Type) where
  base : τ
  grow : τ → τ

namespace Pace

/-- The wait after a number of attempts. -/
def wait (p : Pace τ) (attempts : Nat) : τ := p.grow^[attempts] p.base

theorem wait_succ (p : Pace τ) (attempts : Nat) :
    p.wait (attempts + 1) = p.grow (p.wait attempts) :=
  Function.iterate_succ_apply' p.grow attempts p.base

/-- The first waits together, as many as there were attempts. -/
def span [AddCommMonoid τ] (p : Pace τ) (attempts : Nat) : τ :=
  ∑ i ∈ Finset.range attempts, p.wait i

theorem span_succ [AddCommMonoid τ] (p : Pace τ) (attempts : Nat) :
    p.span (attempts + 1) = p.span attempts + p.wait attempts :=
  Finset.sum_range_succ p.wait attempts

section Doubling

variable [Semiring τ] [LinearOrder τ] [IsStrictOrderedRing τ]

/-- Every wait is twice the one before, up to a cap that the first wait need not
    respect. -/
def doubling (base cap : τ) : Pace τ := ⟨base, fun t => min (t * 2) cap⟩

/-- After the first attempt the waits are powers of two of the first, up to the
    cap. -/
theorem doubling_wait (base cap : τ) (hcap : 0 ≤ cap) (attempts : Nat) :
    (doubling base cap).wait (attempts + 1) = min (base * 2 ^ (attempts + 1)) cap := by
  induction attempts with
  | zero => rw [Nat.zero_add, pow_one]; rfl
  | succ attempts ih =>
      -- Doubling the cap goes beyond it.
      have hbeyond : cap ≤ cap * 2 := by
        rw [mul_two]
        exact le_add_of_nonneg_left hcap
      rw [wait_succ, ih]
      simp only [doubling]
      rw [min_mul_of_nonneg _ _ zero_le_two, min_assoc, min_eq_right hbeyond, mul_assoc, ← pow_succ]

end Doubling

end Pace

/-- A timer with its wait and its attempts has kept the pace since it was first
    started. -/
structure Paced [AddCommMonoid τ] [LE τ] (p : Pace τ) (born started wait : τ)
    (attempts : Nat) : Prop where
  wait_eq : wait = p.wait attempts
  span_le : born + p.span attempts ≤ started

theorem paced_new [AddCommMonoid τ] [Preorder τ] (p : Pace τ) (born : τ) :
    Paced p born born p.base 0 :=
  ⟨rfl, by rw [Pace.span, Finset.sum_range_zero, add_zero]⟩

section Paced

variable [AddCommMonoid τ] [PartialOrder τ] [IsOrderedAddMonoid τ] {p : Pace τ}
  {born started wait due now : τ} {attempts : Nat}

/-- A timer is due no earlier than after all its waits. -/
theorem Paced.due_le (h : Paced p born started wait attempts) (hdue : started + wait ≤ due) :
    born + p.span (attempts + 1) ≤ due := by
  rw [Pace.span_succ, ← add_assoc, ← h.wait_eq]
  exact (add_le_add_left h.span_le wait).trans hdue

/-- An attempt at a timer that is due keeps the pace. -/
theorem Paced.again (h : Paced p born started wait attempts) (hdue : started + wait ≤ due)
    (hclock : due ≤ now) : Paced p born now (p.grow wait) (attempts + 1) := by
  refine ⟨?_, (h.due_le hdue).trans hclock⟩
  rw [Pace.wait_succ, h.wait_eq]

end Paced

end Ztlnp
