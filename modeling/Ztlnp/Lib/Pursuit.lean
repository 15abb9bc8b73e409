import Ztlnp.Lib.Dict
import Mathlib.Data.Finset.Card
import Mathlib.Logic.Relation

/-!
# Following a Table of Successors

Going from entry to entry until there is no next one.

A table may lead in a circle, so whoever follows it keeps a set of the places
that were visited and stops at the first one that comes up again. Every round
visits a new entry, and a round for each entry and one more are enough. What is
found is an end if there is one. Otherwise it lies on a circle, and says
nothing about where it was started from.

`Terminates` is the condition that there is an end from everywhere. An entry
that is written keeps it exactly when the successor does not already lead back,
and that is found out by following the table without the old entry.

## Main definitions

* `Steps`: One step along a table.
* `EndsAt`: A table leads from one place to another, and not further.
* `Terminates`: There is an end from everywhere.
* `chase`, `pursue`: Following a table.

## Theorems

* `EndsAt.unique`: There is one end.
* `not_endsAt_of_circle`: There is none on a circle.
* `pursue_total`: Following a table comes to a stop.
* `pursue_eq_some_iff`: If there is an end, that is where.
* `terminates_iff_pursue`: There is an end from everywhere exactly when only
  ends are found.
* `terminates_set_iff`: When a new entry keeps it so.
-/

namespace Ztlnp

variable {κ : Type} [DecidableEq κ] {next : Dict κ κ}

/-- One step along a table of successors. -/
def Steps (next : Dict κ κ) (x y : κ) : Prop := next.get? x = some y

/-- The table leads from one place to another, which has no successor. -/
def EndsAt (next : Dict κ κ) (x e : κ) : Prop :=
  Relation.ReflTransGen (Steps next) x e ∧ next.get? e = none

/-- The table leads to an end from everywhere. -/
def Terminates (next : Dict κ κ) : Prop := ∀ x, ∃ e, EndsAt next x e

/-- Follow a table from a place, and stop where there is no successor or where
    one has been before. The number is that of the rounds left. -/
def chase (next : Dict κ κ) : Nat → Finset κ → κ → Option κ
  | 0, _, _ => none
  | rounds + 1, visited, current =>
    match next.get? current with
    | none => some current
    | some successor =>
      if current ∈ visited then some current
      else chase next rounds (insert current visited) successor

/-- Follow a table from a place, with enough rounds. -/
def pursue (next : Dict κ κ) (x : κ) : Option κ := chase next (next.size + 1) ∅ x

/-- A step towards an end leads to the same end. -/
theorem EndsAt.of_step {x y e : κ} (h : EndsAt next x e) (hstep : Steps next x y) :
    EndsAt next y e := by
  rcases Relation.ReflTransGen.cases_head h.1 with rfl | ⟨z, hz, hpath⟩
  · rw [Steps, h.2] at hstep
    simp only [reduceCtorEq] at hstep
  · rw [Steps] at hstep hz
    rw [hstep, Option.some.injEq] at hz
    rw [hz]
    exact ⟨hpath, h.2⟩

theorem EndsAt.of_reaches {x y e : κ} (h : EndsAt next x e)
    (hpath : Relation.ReflTransGen (Steps next) x y) : EndsAt next y e := by
  induction hpath with
  | refl => exact h
  | tail _ hstep ih => exact ih.of_step hstep

/-- A table leads to at most one end. -/
theorem EndsAt.unique {x e e' : κ} (h : EndsAt next x e) (h' : EndsAt next x e') : e = e' := by
  rcases Relation.ReflTransGen.cases_head (h.of_reaches h'.1).1 with heq | ⟨z, hz, _⟩
  · exact heq.symm
  · rw [Steps, h'.2] at hz
    simp only [reduceCtorEq] at hz

/-- There is no end from a circle. The induction is along the path to the end:
    every place on it would lie on the circle, and the end has no successor. -/
theorem not_endsAt_of_circle {x e : κ} (hcircle : Relation.TransGen (Steps next) x x) :
    ¬ EndsAt next x e := by
  rintro ⟨hpath, hend⟩
  induction hpath using Relation.ReflTransGen.head_induction_on with
  | refl =>
      rcases Relation.TransGen.head'_iff.mp hcircle with ⟨z, hz, _⟩
      rw [Steps, hend] at hz
      simp only [reduceCtorEq] at hz
  | head hstep _ ih =>
      rcases Relation.TransGen.head'_iff.mp hcircle with ⟨z, hz, hback⟩
      refine ih ?_
      have hsame : Steps next _ z := hz
      rw [Steps, show next.get? _ = some _ from hstep, Option.some.injEq] at hsame
      rw [← hsame] at hback
      exact Relation.TransGen.tail' hback hstep

/-- What is found can be reached. It is an end, or lies on a circle. -/
theorem chase_spec (rounds : Nat) (visited : Finset κ) (current r : κ)
    (hvisited : ∀ v ∈ visited, Relation.TransGen (Steps next) v current)
    (hr : chase next rounds visited current = some r) :
    Relation.ReflTransGen (Steps next) current r ∧
      (next.get? r = none ∨ Relation.TransGen (Steps next) r r) := by
  -- Every place visited so far leads to where the chase stands.
  induction rounds generalizing visited current with
  | zero => simp only [chase, reduceCtorEq] at hr
  | succ rounds ih =>
      rw [chase] at hr
      cases hget : next.get? current with
      | none =>
          rw [hget, Option.some.injEq] at hr
          rw [← hr]
          exact ⟨Relation.ReflTransGen.refl, Or.inl hget⟩
      | some successor =>
          rw [hget] at hr
          simp only at hr
          by_cases hmem : current ∈ visited
          · rw [if_pos hmem, Option.some.injEq] at hr
            rw [← hr]
            -- Standing where it was before, it has closed a loop.
            exact ⟨Relation.ReflTransGen.refl, Or.inr (hvisited current hmem)⟩
          · rw [if_neg hmem] at hr
            have hstep : Steps next current successor := hget
            have hvisited' : ∀ v ∈ insert current visited,
                Relation.TransGen (Steps next) v successor := by
              intro v hv
              rcases Finset.mem_insert.mp hv with rfl | hv
              · exact Relation.TransGen.single hstep
              · exact (hvisited v hv).tail hstep
            rcases ih (insert current visited) successor hvisited' hr with ⟨hpath, hend⟩
            exact ⟨Relation.ReflTransGen.head hstep hpath, hend⟩

/-- A round for every entry that was not visited, and one more, are enough. -/
theorem chase_total (rounds : Nat) (visited : Finset κ) (current : κ)
    (hrounds : (next.keys.toFinset \ visited).card < rounds) :
    ∃ r, chase next rounds visited current = some r := by
  -- Each round takes a key out of those that were not visited.
  induction rounds generalizing visited current with
  | zero => exact absurd hrounds (Nat.not_lt_zero _)
  | succ rounds ih =>
      rw [chase]
      cases hget : next.get? current with
      | none => exact ⟨current, rfl⟩
      | some successor =>
          simp only
          by_cases hmem : current ∈ visited
          · exact ⟨current, if_pos hmem⟩
          · rw [if_neg hmem]
            refine ih (insert current visited) successor ?_
            have hkey : current ∈ next.keys.toFinset \ visited := by
              rw [Finset.mem_sdiff, List.mem_toFinset, Dict.mem_keys]
              exact ⟨⟨successor, hget⟩, hmem⟩
            have hfewer : (next.keys.toFinset \ insert current visited).card
                < (next.keys.toFinset \ visited).card := by
              rw [Finset.sdiff_insert]
              exact Finset.card_erase_lt_of_mem hkey
            omega

/-- Following a table comes to a stop. -/
theorem pursue_total (next : Dict κ κ) (x : κ) : ∃ r, pursue next x = some r := by
  refine chase_total _ _ x ?_
  have hnodup : next.keys.Nodup := next.nodup
  rw [Finset.sdiff_empty, List.toFinset_card_of_nodup hnodup, Dict.keys, Dict.size,
    List.length_map]
  exact Nat.lt_succ_self _

theorem pursue_spec (x r : κ) (hr : pursue next x = some r) :
    Relation.ReflTransGen (Steps next) x r ∧
      (next.get? r = none ∨ Relation.TransGen (Steps next) r r) :=
  chase_spec _ ∅ x r (fun v hv => absurd hv (Finset.notMem_empty v)) hr

/-- If there is an end, it is found. -/
theorem pursue_of_endsAt {x e : κ} (h : EndsAt next x e) : pursue next x = some e := by
  rcases pursue_total next x with ⟨r, hr⟩
  rcases pursue_spec x r hr with ⟨hpath, hend | hcircle⟩
  · rw [hr, EndsAt.unique h ⟨hpath, hend⟩]
  · exact absurd (h.of_reaches hpath) (not_endsAt_of_circle hcircle)

/-- In a table that terminates, following it finds the end. -/
theorem pursue_eq_some_iff (hnext : Terminates next) (x e : κ) :
    pursue next x = some e ↔ EndsAt next x e := by
  refine ⟨fun hr => ?_, pursue_of_endsAt⟩
  rcases hnext x with ⟨e', he'⟩
  rw [pursue_of_endsAt he', Option.some.injEq] at hr
  rw [← hr]
  exact he'

/-- There is an end from everywhere exactly when only ends are found. -/
theorem terminates_iff_pursue :
    Terminates next ↔ ∀ x r, pursue next x = some r → next.get? r = none := by
  constructor
  · intro hnext x r hr
    exact ((pursue_eq_some_iff hnext x r).mp hr).2
  · intro h x
    rcases pursue_total next x with ⟨r, hr⟩
    exact ⟨r, (pursue_spec x r hr).1, h x r hr⟩

theorem steps_pop (next : Dict κ κ) (a x y : κ) :
    Steps (next.pop a) x y ↔ x ≠ a ∧ Steps next x y := by
  unfold Steps
  rw [Dict.get?_pop]
  by_cases hx : x = a
  · simp only [hx, if_true, reduceCtorEq, ne_eq, not_true_eq_false, false_and]
  · simp only [hx, if_false, ne_eq, not_false_eq_true, true_and]

theorem steps_set (next : Dict κ κ) (a b x y : κ) (hx : x ≠ a) :
    Steps (next.set a b) x y ↔ Steps next x y := by
  unfold Steps
  rw [Dict.get?_set_ne _ _ hx]

/-- Without one of its entries a table ends no later. -/
theorem terminates_pop (hnext : Terminates next) (a : κ) : Terminates (next.pop a) := by
  intro x
  rcases hnext x with ⟨e, hpath, hend⟩
  induction hpath using Relation.ReflTransGen.head_induction_on with
  | refl =>
      refine ⟨e, Relation.ReflTransGen.refl, ?_⟩
      rw [Dict.get?_pop, hend, ite_self]
  | @head x y hstep _ ih =>
      by_cases hx : x = a
      · exact ⟨x, Relation.ReflTransGen.refl, by rw [hx, Dict.get?_pop_self]⟩
      · rcases ih with ⟨e', he'⟩
        exact ⟨e', Relation.ReflTransGen.head ((steps_pop next a x y).mpr ⟨hx, hstep⟩) he'.1,
          he'.2⟩

/-- A new entry keeps a table from leading in a circle exactly when its
    successor does not lead back to it. -/
theorem terminates_set_iff (hnext : Terminates next) (a b : κ) :
    Terminates (next.set a b) ↔ pursue (next.pop a) b ≠ some a := by
  have hpop := terminates_pop hnext a
  -- Apart from the new entry, the table is the one without the old entry.
  have hpath : ∀ x y, Relation.ReflTransGen (Steps (next.pop a)) x y →
      Relation.ReflTransGen (Steps (next.set a b)) x y := by
    intro x y h
    refine Relation.ReflTransGen.mono (fun u v huv => ?_) x y h
    rcases (steps_pop next a u v).mp huv with ⟨hu, hstep⟩
    exact (steps_set next a b u v hu).mpr hstep
  have hentry : Steps (next.set a b) a b := Dict.get?_set_self _ _ _
  have hend : ∀ x e, e ≠ a → EndsAt (next.pop a) x e → EndsAt (next.set a b) x e := by
    intro x e he h
    refine ⟨hpath x e h.1, ?_⟩
    rw [Dict.get?_set_ne _ _ he, ← Dict.get?_pop_ne next he]
    exact h.2
  constructor
  · intro hset hback
    rcases hset a with ⟨e, he⟩
    have hround := hpath b a ((pursue_eq_some_iff hpop b a).mp hback).1
    exact not_endsAt_of_circle (Relation.TransGen.head' hentry hround) he
  · intro hback x
    rcases hpop b with ⟨f, hf⟩
    have hfa : f ≠ a := by
      rintro rfl
      exact hback (pursue_of_endsAt hf)
    rcases hpop x with ⟨e, he⟩
    by_cases hea : e = a
    · -- What used to end at the entry goes on to where its successor ends.
      have hthrough := (hpath x a (hea ▸ he.1)).tail hentry
      exact ⟨f, hthrough.trans (hend b f hfa hf).1, (hend b f hfa hf).2⟩
    · exact ⟨e, hend x e hea he⟩

end Ztlnp
