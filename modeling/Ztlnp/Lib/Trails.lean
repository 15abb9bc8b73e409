import Mathlib.Data.Fintype.Card
import Mathlib.Data.List.Nodup
import Mathlib.Order.Basic

/-!
# Trails

Following a partial function from a start, and when that never comes back.

A trail is the list of places visited by following `next` for a number of
steps, or until there is nowhere to go. A rank that falls along every step
rules out a second visit, because everything on the rest of the trail ranks
below its start. Among finitely many places it then ends, and if it goes on
from everywhere but a goal, it ends at one.

## Main definitions

* `trail`: The places visited in at most a number of steps.

## Theorems

* `trail_rank_le`: Nothing on a trail ranks above its start.
* `trail_nodup`: If the rank falls on every step, no place is visited twice.
* `trail_arrives`: If it also goes on from everywhere but a goal, it comes to
  one.
-/

namespace Ztlnp

variable {ι β : Type}

/-- The places visited from a start, in at most a number of steps. -/
def trail (next : ι → Option ι) : Nat → ι → List ι
  | 0, x => [x]
  | n + 1, x => x :: match next x with
    | none => []
    | some y => trail next n y

variable [Preorder β] {next : ι → Option ι} {rank : ι → β}

theorem trail_rank_le (hrank : ∀ x y, next x = some y → rank y < rank x) (n : Nat) (x z : ι)
    (hz : z ∈ trail next n x) : rank z ≤ rank x := by
  induction n generalizing x with
  | zero =>
      rw [trail, List.mem_singleton] at hz
      rw [hz]
  | succ n ih =>
      rw [trail, List.mem_cons] at hz
      rcases hz with hz | hz
      · rw [hz]
      · cases hnext : next x with
        | none =>
            rw [hnext] at hz
            simp only [List.not_mem_nil] at hz
        | some y =>
            rw [hnext] at hz
            exact (ih y hz).trans (hrank x y hnext).le

/-- A rank that falls on every step lets no place be visited twice. -/
theorem trail_nodup (hrank : ∀ x y, next x = some y → rank y < rank x) (n : Nat) (x : ι) :
    (trail next n x).Nodup := by
  induction n generalizing x with
  | zero => exact List.nodup_singleton x
  | succ n ih =>
      rw [trail]
      cases hnext : next x with
      | none => exact List.nodup_singleton x
      | some y =>
          refine List.nodup_cons.mpr ⟨fun hx => ?_, ih y⟩
          -- The start would rank below itself.
          have hle := trail_rank_le hrank n y x hx
          exact lt_irrefl _ (hle.trans_lt (hrank x y hnext))

variable {goal known : ι → Prop}

/-- A trail that goes on from everywhere but a goal has come to one, or has
    another step to make. -/
theorem trail_goal_or_longer
    (hon : ∀ x, known x → ¬ goal x → ∃ y, next x = some y ∧ (known y ∨ goal y)) (n : Nat) (x : ι)
    (hx : known x ∨ goal x) :
    (∃ z ∈ trail next n x, goal z) ∨ (trail next (n + 1) x).length = n + 2 := by
  -- On the goal or one step further: the length counts the steps made.
  induction n generalizing x with
  | zero =>
      by_cases hgoal : goal x
      · exact Or.inl ⟨x, List.mem_singleton.mpr rfl, hgoal⟩
      · rcases hon x (hx.resolve_right hgoal) hgoal with ⟨y, hy, _⟩
        right
        simp only [trail, hy, List.length_cons, List.length_nil]
  | succ n ih =>
      by_cases hgoal : goal x
      · exact Or.inl ⟨x, List.mem_cons_self, hgoal⟩
      · rcases hon x (hx.resolve_right hgoal) hgoal with ⟨y, hy, hknown⟩
        rcases ih y hknown with ⟨z, hz, hz'⟩ | hlong
        · left
          refine ⟨z, ?_, hz'⟩
          rw [trail, hy]
          exact List.mem_cons_of_mem _ hz
        · right
          rw [trail, hy, List.length_cons, hlong]

/-- Among finitely many places, a trail whose rank falls and that goes on from
    everywhere but a goal comes to one. -/
theorem trail_arrives [Fintype ι] (hrank : ∀ x y, next x = some y → rank y < rank x)
    (hon : ∀ x, known x → ¬ goal x → ∃ y, next x = some y ∧ (known y ∨ goal y)) (x : ι)
    (hx : known x ∨ goal x) : ∃ z ∈ trail next (Fintype.card ι - 1) x, goal z := by
  rcases trail_goal_or_longer hon (Fintype.card ι - 1) x hx with hgoal | hlong
  · exact hgoal
  · -- There are not so many places.
    have hpos : 0 < Fintype.card ι := Fintype.card_pos_iff.mpr ⟨x⟩
    have hle := (trail_nodup hrank (Fintype.card ι - 1 + 1) x).length_le_card
    omega

end Ztlnp
