import Ztlnp.Core.Router
import Mathlib.Tactic.Linarith
import Mathlib.Tactic.NormNum

/-!
# Ranking of Routes

The routes of one destination at one router, and which of them is the best.

Under a cap on the trust of announcements a route is graded by its hops: one
hop leads to the destination, more than one was announced by a third party,
and there the score is the cap times what the hops leave of it. While the cap
is positive the best route is then the one with the fewest hops. If it is zero
no announced route has a score, and what counts is which route is first in the
list. A direct route still has a score there, so the list must start with one
if it holds any.

Announcements replace routes in place by shorter ones. Both cases agree in
that this never makes the best route longer.

## Main definitions

* `decay`: What is left of trust after a number of hops.
* `RouteEntry.Graded`: How one route is graded.
* `Ranked`: The routes of one destination are graded.
* `Improves`: Every route stands where it stood, or a shorter one does.

## Theorems

* `RouteEntry.Graded.score_lt`: Fewer hops score higher.
* `Ranked.top_zero`: Without trust the best route is as far as the first.
* `Ranked.top_le`: With some trust the best route has the fewest hops.
* `Ranked.top_eq_head`: At the highest hop count the best route is the first.
* `Ranked.top_mono`: Routes that improve in place improve the best one.
* `Ranked.upsertRoute`: Learning a graded route keeps the ranking.
-/

namespace Ztlnp

/-- What trust is left of a route after a number of hops, shared by them. -/
def decay (h : Nat) : Rat := (9 / 10) ^ (h - 1) / h

theorem decay_lt (h h' : Nat) (hpos : 1 ≤ h) (hlt : h < h') : decay h' < decay h := by
  have hh : (0 : Rat) < h := by exact_mod_cast hpos
  have hh' : (h : Rat) < h' := by exact_mod_cast hlt
  have hpow : ((9 : Rat) / 10) ^ (h' - 1) ≤ (9 / 10) ^ (h - 1) :=
    pow_le_pow_of_le_one (by norm_num) (by norm_num) (by omega)
  have hnum : (0 : Rat) < (9 / 10) ^ (h - 1) := pow_pos (by norm_num) _
  unfold decay
  calc ((9 : Rat) / 10) ^ (h' - 1) / h' ≤ (9 / 10) ^ (h - 1) / h' :=
        div_le_div_of_nonneg_right hpow (hh.trans hh').le
    _ < (9 / 10) ^ (h - 1) / h := div_lt_div_of_pos_left hnum hh hh'

theorem decay_three : decay 3 = 27 / 100 := by
  norm_num [decay]

/-- The highest hop count a route can have: announced counts saturate. -/
def maxHops : Nat := 0x10000

/-- How a route is graded under a cap on trust. One hop leads to the
    destination; anything further was announced by a third party. -/
inductive RouteEntry.Graded (c : Rat) (e : RouteEntry) : Prop
  | near (hhop : e.hopCount = 1) (hscore : 27 / 100 * c < e.score ∨ e.score = c)
  | far (hthree : 3 ≤ e.hopCount) (hmax : e.hopCount ≤ maxHops)
      (hscore : e.score = c * decay e.hopCount)

/-- The routes of one destination are graded. Where announcements are not
    trusted at all, a route that still has a score is a direct one, and the
    list starts with one of those. -/
structure Ranked (c : Rat) (es : List RouteEntry) : Prop where
  graded : ∀ e ∈ es, e.Graded c
  headed : c = 0 → ∀ e ∈ es, 0 < e.score → ∀ a ∈ es.head?, a.hopCount = 1

/-- Every route stands where it stood, or a shorter one does. -/
def Improves (es es' : List RouteEntry) : Prop :=
  ∀ (i : Nat) (e : RouteEntry), es[i]? = some e →
    ∃ e' : RouteEntry, es'[i]? = some e' ∧ e'.hopCount ≤ e.hopCount

section Lists

variable {c : Rat} {es es' : List RouteEntry} {b : RouteEntry}

theorem RouteEntry.Graded.hopCount_pos {e : RouteEntry} (h : e.Graded c) : 1 ≤ e.hopCount := by
  cases h with
  | near hhop => omega
  | far hthree => omega

theorem RouteEntry.Graded.hopCount_le {e : RouteEntry} (h : e.Graded c) :
    e.hopCount ≤ maxHops := by
  cases h with
  | near hhop =>
      rw [hhop]
      decide
  | far _ hmax => exact hmax

/-- A route that is not near has the score of its hops. -/
theorem RouteEntry.Graded.far_score {e : RouteEntry} (h : e.Graded c) (hhop : e.hopCount ≠ 1) :
    3 ≤ e.hopCount ∧ e.score = c * decay e.hopCount := by
  cases h with
  | near hone => exact absurd hone hhop
  | far hthree _ hscore => exact ⟨hthree, hscore⟩

/-- Under a cap that leaves some trust, fewer hops always score higher. -/
theorem RouteEntry.Graded.score_lt {e e' : RouteEntry} (hc : 0 < c) (h : e.Graded c)
    (h' : e'.Graded c) (hlt : e.hopCount < e'.hopCount) : e'.score < e.score := by
  have hpos := h.hopCount_pos
  rcases h'.far_score (by omega) with ⟨hthree, hscore'⟩
  have hle : c * decay e'.hopCount ≤ 27 / 100 * c := by
    rw [← decay_three, mul_comm]
    refine mul_le_mul_of_nonneg_right ?_ hc.le
    rcases Nat.eq_or_lt_of_le hthree with heq | hgt
    · rw [heq]
    · exact (decay_lt 3 e'.hopCount (by decide) hgt).le
  cases h with
  | near _ hscore =>
      rw [hscore']
      rcases hscore with hs | hs
      · exact hle.trans_lt hs
      · rw [hs]
        linarith
  | far _ _ hscore =>
      rw [hscore', hscore]
      exact mul_lt_mul_of_pos_left (decay_lt _ _ hpos hlt) hc

/-- If all scores are equal, the first route is the best. -/
theorem argmax_eq_head (v : Rat) (h : ∀ e ∈ es, e.score = v) :
    es.argmax RouteEntry.score = es.head? := by
  cases es with
  | nil => rfl
  | cons a es =>
      rw [List.argmax_cons, List.head?_cons]
      cases hrest : es.argmax RouteEntry.score with
      | none => rfl
      | some m =>
          have hm := h m (List.mem_cons_of_mem a (List.argmax_mem hrest))
          have ha := h a List.mem_cons_self
          simp only [hm, ha, lt_self_iff_false, if_false]

/-- Under a cap of zero the only scores are those of direct routes. -/
theorem Ranked.score_zero (h : Ranked c es) (hc : c = 0)
    (hno : ¬ ∃ e ∈ es, 0 < e.score) : ∀ e ∈ es, e.score = 0 := by
  intro e he
  cases h.graded e he with
  | near _ hscore =>
      rcases hscore with hs | hs
      · rw [hc, mul_zero] at hs
        exact absurd ⟨e, he, hs⟩ hno
      · rw [hs, hc]
  | far _ _ hscore => rw [hscore, hc, zero_mul]

/-- Under a cap of zero the best route is as far as the first. -/
theorem Ranked.top_zero (h : Ranked c es) (hc : c = 0)
    (hb : es.argmax RouteEntry.score = some b) : ∀ a ∈ es.head?, b.hopCount = a.hopCount := by
  intro a ha
  by_cases hpos : ∃ e ∈ es, 0 < e.score
  · -- Some route has a score, so the best has, and only near routes do.
    rcases hpos with ⟨e, he, hscore⟩
    rw [h.headed hc e he hscore a ha]
    by_contra hfar
    have hbscore := ((h.graded b (List.argmax_mem hb)).far_score hfar).2
    have hle := List.le_of_mem_argmax he hb
    rw [hbscore, hc, zero_mul] at hle
    exact absurd hscore (not_lt.mpr hle)
  · rw [argmax_eq_head 0 (h.score_zero hc hpos)] at hb
    rw [Option.mem_def, hb, Option.some.injEq] at ha
    rw [ha]

/-- Under a cap that leaves some trust the best route has the fewest hops. -/
theorem Ranked.top_le (h : Ranked c es) (hc : 0 < c)
    (hb : es.argmax RouteEntry.score = some b) : ∀ e ∈ es, b.hopCount ≤ e.hopCount := by
  intro e he
  by_contra hlt
  have hscore := (h.graded e he).score_lt hc (h.graded b (List.argmax_mem hb)) (not_le.mp hlt)
  exact absurd (List.le_of_mem_argmax he hb) (not_le.mpr hscore)

/-- If the best route is as far as a route can be, it is the first. -/
theorem Ranked.top_eq_head (h : Ranked c es) (hnonneg : 0 ≤ c)
    (hb : es.argmax RouteEntry.score = some b) (hmax : b.hopCount = maxHops) :
    es.head? = some b := by
  rcases hnonneg.eq_or_lt with hc | hc
  · -- No trust: the first route is just as far, so nothing has a score.
    have hno : ¬ ∃ e ∈ es, 0 < e.score := by
      rintro ⟨e, he, hscore⟩
      cases hhead : es.head? with
      | none =>
          rw [List.head?_eq_none_iff] at hhead
          rw [hhead] at he
          simp only [List.not_mem_nil] at he
      | some a =>
          have hone := h.headed hc.symm e he hscore a hhead
          have htop := h.top_zero hc.symm hb a hhead
          rw [hmax, hone] at htop
          exact absurd htop (by decide)
    rw [← argmax_eq_head 0 (h.score_zero hc.symm hno)]
    exact hb
  · -- Some trust: all routes are that far, so all scores are equal.
    rw [← argmax_eq_head (c * decay maxHops), hb]
    intro e he
    have hge := h.top_le hc hb e he
    have hle := (h.graded e he).hopCount_le
    have heq : e.hopCount = maxHops := by
      omega
    have hscore := ((h.graded e he).far_score (by rw [heq]; decide)).2
    rw [hscore, heq]

/-- Routes that improve in place improve the best one. -/
theorem Ranked.top_mono (h : Ranked c es) (h' : Ranked c es') (hnonneg : 0 ≤ c)
    (himp : Improves es es') (hb : es.argmax RouteEntry.score = some b) :
    ∃ b', es'.argmax RouteEntry.score = some b' ∧ b'.hopCount ≤ b.hopCount := by
  rcases List.getElem?_of_mem (List.argmax_mem hb) with ⟨i, hi⟩
  rcases himp i b hi with ⟨e', he', hle⟩
  cases hb' : es'.argmax RouteEntry.score with
  | none =>
      rw [List.argmax_eq_none] at hb'
      rw [hb', List.getElem?_nil] at he'
      simp only [reduceCtorEq] at he'
  | some b' =>
      refine ⟨b', rfl, ?_⟩
      rcases hnonneg.eq_or_lt with hc | hc
      · -- No trust: both best routes are as far as the first ones.
        cases hhead : es.head? with
        | none =>
            rw [List.head?_eq_none_iff] at hhead
            rw [hhead, List.getElem?_nil] at hi
            simp only [reduceCtorEq] at hi
        | some a =>
            have ha := h.top_zero hc.symm hb a hhead
            rw [List.head?_eq_getElem?] at hhead
            rcases himp 0 a hhead with ⟨a', ha', hale⟩
            rw [← List.head?_eq_getElem?] at ha'
            rw [h'.top_zero hc.symm hb' a' ha', ha]
            exact hale
      · exact (h'.top_le hc hb' e' (List.mem_of_getElem? he')).trans hle

/-- A new route improves the list if it is no longer than what it replaces. -/
theorem improves_upsertRoute (entry : RouteEntry)
    (h : ∀ e ∈ es, e.transport = entry.transport → e.nextHopAddr = entry.nextHopAddr →
      entry.hopCount ≤ e.hopCount) : Improves es (upsertRoute entry es) := by
  intro i e hi
  rcases getElem?_upsertRoute entry es i e hi with hsame | ⟨hnew, ht, ha⟩
  · exact ⟨e, hsame, le_rfl⟩
  · exact ⟨entry, hnew, h e (List.mem_of_getElem? hi) ht ha⟩

theorem Improves.refl (es : List RouteEntry) : Improves es es :=
  fun _ e h => ⟨e, h, le_rfl⟩

/-- A new route that is graded, and has no score where announcements are not
    trusted, keeps the list ranked. -/
theorem Ranked.upsertRoute (h : Ranked c es) (entry : RouteEntry) (hentry : entry.Graded c)
    (hzero : c = 0 → ¬ 0 < entry.score) (himp : Improves es (upsertRoute entry es)) :
    Ranked c (upsertRoute entry es) := by
  have hgraded : ∀ e ∈ Ztlnp.upsertRoute entry es, e.Graded c := by
    intro e he
    rcases mem_upsertRoute entry es e he with rfl | hold
    · exact hentry
    · exact h.graded e hold
  refine ⟨hgraded, fun hc e he hscore a ha => ?_⟩
  rcases mem_upsertRoute entry es e he with rfl | hold
  · exact absurd hscore (hzero hc)
  · -- A route with a score was there before, so the list started with a near one.
    cases hhead : es.head? with
    | none =>
        rw [List.head?_eq_none_iff] at hhead
        rw [hhead] at hold
        simp only [List.not_mem_nil] at hold
    | some a₀ =>
        have hone := h.headed hc e hold hscore a₀ hhead
        rw [List.head?_eq_getElem?] at hhead
        rcases himp 0 a₀ hhead with ⟨a', ha', hle⟩
        rw [← List.head?_eq_getElem?, ha, Option.some.injEq] at ha'
        have hpos := (hgraded a (List.mem_of_mem_head? ha)).hopCount_pos
        rw [← ha', hone] at hle
        exact le_antisymm hle hpos

end Lists

end Ztlnp
