import Mathlib.Data.List.Nodup
import Mathlib.Logic.Function.Basic

/-!
# Tokens That Are Spent Once

Tokens that are drawn for a key, held there for as long as it takes, and then
spent or never spent.

Beside what it holds a purse keeps its past: every token that was ever drawn,
and every token that was ever spent. What is asked of a draw is only that the
token has not been drawn before. That no token is spent twice is then a matter
of where it can be. Spending takes it away from its key, no other key holds
it, and no later draw brings it back.

## Main definitions

* `Purse`: What is held, and what was drawn and spent.
* `Purse.Move`: What can happen to it.
* `Purse.Sound`: The invariant, with single use as a part of it.

## Theorems

* `Purse.sound_empty`, `Purse.move_sound`: Every move keeps the invariant.
-/

namespace Ztlnp

/-- The tokens that are held, and those that were ever drawn and spent. -/
structure Purse (κ τ : Type) where
  held : κ → Option τ
  drawn : List τ
  spent : List τ

namespace Purse

variable {κ τ : Type}

/-- What was spent was spent once. What is held was drawn, is not spent, and is
    held for one key. -/
structure Sound (p : Purse κ τ) : Prop where
  known : ∀ k t, p.held k = some t → t ∈ p.drawn
  unspent : ∀ k t, p.held k = some t → t ∉ p.spent
  apart : ∀ k k' t, p.held k = some t → p.held k' = some t → k = k'
  paid : ∀ t ∈ p.spent, t ∈ p.drawn
  once : p.spent.Nodup

/-- A purse that nothing was ever put into. -/
theorem sound_empty : Sound (⟨fun _ => none, [], []⟩ : Purse κ τ) where
  known _ _ h := absurd h.symm (Option.some_ne_none _)
  unspent _ _ h := absurd h.symm (Option.some_ne_none _)
  apart _ _ _ h := absurd h.symm (Option.some_ne_none _)
  paid _ h := absurd h List.not_mem_nil
  once := List.nodup_nil

variable {p p' : Purse κ τ}

theorem Sound.idle (h : p.Sound) (hmore : ∀ t ∈ p.drawn, t ∈ p'.drawn)
    (hheld : p'.held = p.held) (hspent : p'.spent = p.spent) : p'.Sound where
  known k t hk := hmore t (h.known k t (hheld ▸ hk))
  unspent k t hk := hspent ▸ h.unspent k t (hheld ▸ hk)
  apart k k' t hk hk' := h.apart k k' t (hheld ▸ hk) (hheld ▸ hk')
  paid t ht := hmore t (h.paid t (hspent ▸ ht))
  once := hspent ▸ h.once

variable [DecidableEq κ]

/-- What can happen to a purse. -/
inductive Move (p p' : Purse κ τ) : Prop
  | idle (hheld : p'.held = p.held) (hspent : p'.spent = p.spent)
  | draw (k : κ) (t : τ) (hfresh : t ∉ p.drawn) (hdrawn : t ∈ p'.drawn)
      (hheld : p'.held = Function.update p.held k (some t)) (hspent : p'.spent = p.spent)
  | spend (k : κ) (t : τ) (hget : p.held k = some t)
      (hheld : p'.held = Function.update p.held k none) (hspent : p'.spent = p.spent ++ [t])

/-- A fresh token differs from every token of the past, so it is neither spent
    nor held for another key. -/
theorem Sound.draw (h : p.Sound) (hmore : ∀ t ∈ p.drawn, t ∈ p'.drawn) (k : κ) (t : τ)
    (hfresh : t ∉ p.drawn) (hdrawn : t ∈ p'.drawn)
    (hheld : p'.held = Function.update p.held k (some t)) (hspent : p'.spent = p.spent) :
    p'.Sound := by
  -- Only `k` holds another token than before, and that token is fresh.
  have hcases (i : κ) (u : τ) (hu : p'.held i = some u) :
      (i = k ∧ u = t) ∨ (i ≠ k ∧ p.held i = some u) := by
    rw [hheld] at hu
    by_cases hi : i = k
    · rw [hi, Function.update_self, Option.some.injEq] at hu
      exact Or.inl ⟨hi, hu.symm⟩
    · rw [Function.update_of_ne hi] at hu
      exact Or.inr ⟨hi, hu⟩
  refine ⟨fun i u hu => ?_, fun i u hu => ?_, fun i j u hu hu' => ?_, fun u hu => ?_, ?_⟩
  · rcases hcases i u hu with ⟨_, rfl⟩ | ⟨_, hold⟩
    · exact hdrawn
    · exact hmore u (h.known i u hold)
  · rw [hspent]
    rcases hcases i u hu with ⟨_, rfl⟩ | ⟨_, hold⟩
    · exact fun hc => hfresh (h.paid u hc)
    · exact h.unspent i u hold
  · rcases hcases i u hu with ⟨hi, rfl⟩ | ⟨_, hold⟩
    · rcases hcases j u hu' with ⟨hj, _⟩ | ⟨_, hold⟩
      · rw [hi, hj]
      · exact absurd (h.known j u hold) hfresh
    · rcases hcases j u hu' with ⟨_, rfl⟩ | ⟨_, hold'⟩
      · exact absurd (h.known i u hold) hfresh
      · exact h.apart i j u hold hold'
  · rw [hspent] at hu
    exact hmore u (h.paid u hu)
  · rw [hspent]
    exact h.once

/-- A token that is spent is held by nobody any more. -/
theorem Sound.spend (h : p.Sound) (hmore : ∀ t ∈ p.drawn, t ∈ p'.drawn) (k : κ) (t : τ)
    (hget : p.held k = some t) (hheld : p'.held = Function.update p.held k none)
    (hspent : p'.spent = p.spent ++ [t]) : p'.Sound := by
  -- What is still held was held before, for another key.
  have hold (i : κ) (u : τ) (hu : p'.held i = some u) : i ≠ k ∧ p.held i = some u := by
    rw [hheld] at hu
    by_cases hi : i = k
    · rw [hi, Function.update_self] at hu
      exact absurd hu.symm (Option.some_ne_none u)
    · rw [Function.update_of_ne hi] at hu
      exact ⟨hi, hu⟩
  refine ⟨fun i u hu => ?_, fun i u hu => ?_, fun i j u hu hu' => ?_, fun u hu => ?_, ?_⟩
  · exact hmore u (h.known i u (hold i u hu).2)
  · rcases hold i u hu with ⟨hi, hu⟩
    rw [hspent, List.mem_append, List.mem_singleton]
    rintro (hc | rfl)
    · exact h.unspent i u hu hc
    · exact hi (h.apart i k u hu hget)
  · exact h.apart i j u (hold i u hu).2 (hold j u hu').2
  · rw [hspent] at hu
    rcases List.mem_append.mp hu with hu | hu
    · exact hmore u (h.paid u hu)
    · rw [List.mem_singleton.mp hu]
      exact hmore t (h.known k t hget)
  · rw [hspent, List.nodup_append_comm, List.singleton_append, List.nodup_cons]
    exact ⟨h.unspent k t hget, h.once⟩

/-- Every move keeps the invariant, as long as the record of draws only grows. -/
theorem move_sound (h : p.Sound) (hmore : ∀ t ∈ p.drawn, t ∈ p'.drawn) (hmove : p.Move p') :
    p'.Sound := by
  cases hmove with
  | idle hheld hspent => exact h.idle hmore hheld hspent
  | draw k t hfresh hdrawn hheld hspent => exact h.draw hmore k t hfresh hdrawn hheld hspent
  | spend k t hget hheld hspent => exact h.spend hmore k t hget hheld hspent

end Purse

end Ztlnp
