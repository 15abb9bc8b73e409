import Mathlib.Data.Fintype.Card
import Mathlib.Logic.Function.Basic
import Mathlib.Logic.Relation

/-!
# Rumours

How news spreads when those who know it are heard by their neighbours, one at a
time and in any order.

News goes no further than along links (`foldl_hearFrom_reaches`). How fast it goes
is a matter of rounds, in which everybody hears every neighbour at least once. A
round with somebody left who could have been told tells one more, so among
finitely many there are no more rounds of that kind than listeners
(`rounds_tell_all`). No shortest path is looked for: what is counted is who knows.

## Main definitions

* `hearFrom`: One listener hears one speaker.
* `IsRound`: Everybody hears every neighbour.

## Theorems

* `hearFrom_iff`: Who knows afterwards.
* `foldl_hearFrom_reaches`: News only goes along links.
* `round_tells`: A round tells the neighbours of those who know.
* `rounds_tell_all`: After enough rounds everybody knows whom a path of links
  joins to somebody that knew.
-/

namespace Ztlnp

variable {ι : Type} {link : ι → ι → Prop}

/-- If nobody is left that a neighbour could tell, a path of links leads to nobody that
    knows but from somebody that knows. -/
theorem known_of_path (known : ι → Bool) (hclosed : ∀ x y, link x y → known y → known x)
    (x z : ι) (hpath : Relation.ReflTransGen link x z) (hz : known z) : known x := by
  induction hpath using Relation.ReflTransGen.head_induction_on with
  | refl => exact hz
  | head hlink _ ih => exact hclosed _ _ hlink ih

/-- Who knows. -/
def knowing [Fintype ι] (known : ι → Bool) : Finset ι := Finset.univ.filter (fun x => known x)

theorem mem_knowing [Fintype ι] (known : ι → Bool) (x : ι) : x ∈ knowing known ↔ known x := by
  rw [knowing, Finset.mem_filter]
  exact and_iff_right (Finset.mem_univ x)

variable [DecidableEq ι]

/-- The first hears the second, and then knows what that one knew. -/
def hearFrom (known : ι → Bool) (e : ι × ι) : ι → Bool :=
  if known e.2 then Function.update known e.1 true else known

theorem hearFrom_iff (known : ι → Bool) (e : ι × ι) (x : ι) :
    hearFrom known e x ↔ known x ∨ (x = e.1 ∧ known e.2) := by
  unfold hearFrom
  by_cases hspeaker : known e.2 = true
  · rw [if_pos hspeaker]
    by_cases hx : x = e.1
    · rw [hx, Function.update_self]
      exact ⟨fun _ => Or.inr ⟨rfl, hspeaker⟩, fun _ => rfl⟩
    · rw [Function.update_of_ne hx]
      exact ⟨Or.inl, fun hor => hor.resolve_right (fun hand => hx hand.1)⟩
  · rw [if_neg hspeaker]
    exact ⟨Or.inl, fun hor => hor.resolve_right (fun hand => hspeaker hand.2)⟩

/-- Nobody forgets. -/
theorem foldl_hearFrom_mono (es : List (ι × ι)) (known : ι → Bool) (x : ι) (hx : known x) :
    es.foldl hearFrom known x := by
  induction es generalizing known with
  | nil => exact hx
  | cons e es ih => exact ih _ ((hearFrom_iff known e x).mpr (Or.inl hx))

/-- Whoever hears somebody that knew to begin with knows in the end. -/
theorem foldl_hearFrom_of_mem (es : List (ι × ι)) (known : ι → Bool) (x y : ι)
    (hmem : (x, y) ∈ es) (hy : known y) : es.foldl hearFrom known x := by
  induction es generalizing known with
  | nil => exact absurd hmem List.not_mem_nil
  | cons e es ih =>
      rcases List.mem_cons.mp hmem with heq | hrest
      · refine foldl_hearFrom_mono es _ x ((hearFrom_iff known e x).mpr (Or.inr ?_))
        rw [← heq]
        exact ⟨rfl, hy⟩
      · exact ih _ hrest ((hearFrom_iff known e y).mpr (Or.inl hy))

/-- Where everybody hears neighbours only, whoever knows is joined by a path of links
    to somebody that knew to begin with. -/
theorem foldl_hearFrom_reaches (es : List (ι × ι)) (known : ι → Bool)
    (hlink : ∀ e ∈ es, link e.1 e.2) (x : ι) (hx : es.foldl hearFrom known x) :
    ∃ z, Relation.ReflTransGen link x z ∧ known z := by
  induction es generalizing known with
  | nil => exact ⟨x, .refl, hx⟩
  | cons e es ih =>
      rcases ih _ (fun b hb => hlink b (List.mem_cons_of_mem e hb)) hx with ⟨z, hpath, hz⟩
      rcases (hearFrom_iff known e z).mp hz with hz | ⟨hze, hspeaker⟩
      · exact ⟨z, hpath, hz⟩
      · -- The path goes on over the link that was just used.
        refine ⟨e.2, hpath.tail ?_, hspeaker⟩
        rw [hze]
        exact hlink e List.mem_cons_self

/-- Everybody hears every neighbour, in some order and perhaps more than once. -/
def IsRound (link : ι → ι → Prop) (es : List (ι × ι)) : Prop := ∀ x y, link x y → (x, y) ∈ es

/-- A round tells the neighbours of those who know. -/
theorem round_tells {es : List (ι × ι)} (hround : IsRound link es) (known : ι → Bool) {x y : ι}
    (hlink : link x y) (hy : known y) : es.foldl hearFrom known x :=
  foldl_hearFrom_of_mem es known x y (hround x y hlink) hy

section Counting

variable [Fintype ι]

/-- A round that tells somebody leaves more that know. -/
theorem knowing_card_lt (es : List (ι × ι)) (known : ι → Bool) (x : ι) (hx : ¬ known x)
    (htold : es.foldl hearFrom known x) :
    (knowing known).card < (knowing (es.foldl hearFrom known)).card := by
  refine Finset.card_lt_card (Finset.ssubset_iff_subset_ne.mpr ⟨fun y hy => ?_, fun heq => ?_⟩)
  · rw [mem_knowing] at hy ⊢
    exact foldl_hearFrom_mono es known y hy
  · rw [← mem_knowing, ← heq, mem_knowing] at htold
    exact hx htold

/-- After some rounds, a place joined to somebody that knew knows, or every round has
    told one more. -/
theorem rounds_tell (rounds : List (List (ι × ι))) (hround : ∀ r ∈ rounds, IsRound link r)
    (known : ι → Bool) (x z : ι) (hpath : Relation.ReflTransGen link x z) (hz : known z) :
    rounds.flatten.foldl hearFrom known x ∨
      (knowing known).card + rounds.length
        ≤ (knowing (rounds.flatten.foldl hearFrom known)).card := by
  induction rounds generalizing known with
  | nil => exact Or.inr le_rfl
  | cons r rounds ih =>
      rw [List.flatten_cons, List.foldl_append, List.length_cons]
      by_cases hclosed : ∀ x y, link x y → known y → known x
      · have hx := known_of_path known hclosed x z hpath hz
        exact Or.inl (foldl_hearFrom_mono _ _ x (foldl_hearFrom_mono r known x hx))
      · push Not at hclosed
        rcases hclosed with ⟨a, b, hlink, hb, ha⟩
        have hmore := knowing_card_lt r known a ha
          (round_tells (hround r List.mem_cons_self) known hlink hb)
        rcases ih (fun s hs => hround s (List.mem_cons_of_mem r hs)) _
          (foldl_hearFrom_mono r known z hz) with hx | hcount
        · exact Or.inl hx
        · right
          omega

/-- With one round fewer than there are places, everybody knows whom a path of links
    joins to somebody that knew. -/
theorem rounds_tell_all (rounds : List (List (ι × ι))) (hround : ∀ r ∈ rounds, IsRound link r)
    (hcount : Fintype.card ι - 1 ≤ rounds.length) (known : ι → Bool) (x z : ι)
    (hpath : Relation.ReflTransGen link x z) (hz : known z) :
    rounds.flatten.foldl hearFrom known x := by
  rcases rounds_tell rounds hround known x z hpath hz with hx | hmore
  · exact hx
  · -- So many have been told that there is nobody else.
    have hpos : 0 < (knowing known).card := Finset.card_pos.mpr ⟨z, (mem_knowing known z).mpr hz⟩
    have huniv : knowing (rounds.flatten.foldl hearFrom known) = Finset.univ :=
      (Finset.card_eq_iff_eq_univ _).mp (le_antisymm (Finset.card_le_univ _) (by omega))
    rw [← mem_knowing, huniv]
    exact Finset.mem_univ x

end Counting

end Ztlnp
