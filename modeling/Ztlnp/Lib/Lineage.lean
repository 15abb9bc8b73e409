import Mathlib.Data.List.Nodup
import Mathlib.Data.List.Perm.Subperm
import Mathlib.Logic.Relation

/-!
# Lineages

Descent along a list of edges, and how many edges a line of descent can have.

An edge says that one element was succeeded by another. Without a condition on
the edges nothing bounds the number of them below one ancestor, since elements
may have several successors and lines may merge. `Lineage` is the condition
under which a rank that is counted up along each edge does bound it: every
element has at most one successor and at most one predecessor. The elements
below a root are then told apart by their ranks (`eq_of_rank_eq`), so there
are no more edges below the root than ranks an edge can start from.

`Chain` is descent with two kinds of edges where only one kind is counted.

## Main definitions

* `Descends`: An element comes from another by successive edges.
* `lineLength`: How many edges start at or below an element.
* `Lineage`: Successors and predecessors are unique and ranks count up.
* `Chain`: Descent that counts the edges of one kind.

## Theorems

* `lineLength_eq_length`: A line that holds every edge.
* `descends_cases`: What descends from a root is the root or has a parent
  below it.
* `Lineage.rank_le`: Ranks do not fall along a line.
* `Lineage.eq_of_rank_eq`: Below a root, equal ranks are equal elements.
* `Lineage.lineLength_le`: A bound on the ranks bounds the line.
* `Lineage.extend`: A new edge at the end of a line keeps the lineage.
* `Chain.mono`: More edges keep a chain.
* `Chain.potential_le`: A potential bounds the count of a chain from below.
-/

namespace Ztlnp

variable {α : Type}

/-- One element comes from another by successive edges. -/
def Descends (edges : List (α × α)) : α → α → Prop :=
  Relation.ReflTransGen (fun a b => (a, b) ∈ edges)

open Classical in
/-- How many edges start at an element or below it. -/
noncomputable def lineLength (edges : List (α × α)) (r : α) : Nat :=
  (edges.filter (fun e => Descends edges r e.1)).length

/-- If every edge starts below an element, all of them count. -/
theorem lineLength_eq_length (edges : List (α × α)) (r : α)
    (h : ∀ e ∈ edges, Descends edges r e.1) : lineLength edges r = edges.length := by
  classical
  unfold lineLength
  rw [List.filter_eq_self.mpr]
  intro e he
  exact decide_eq_true (h e he)

/-- Every element has at most one successor and at most one predecessor, and
    the rank counts the edges up. An edge from an element to itself has no
    rank to count. -/
structure Lineage (edges : List (α × α)) (rank : α → Nat) : Prop where
  sources : (edges.map Prod.fst).Nodup
  targets : (edges.map Prod.snd).Nodup
  ranked : ∀ a b, (a, b) ∈ edges → a ≠ b → rank b = rank a + 1

/-- What descends from a root is the root, or has a parent that does. -/
theorem descends_cases (edges : List (α × α)) (r a : α) (h : Descends edges r a) :
    a = r ∨ ∃ b, b ≠ a ∧ (b, a) ∈ edges ∧ Descends edges r b := by
  induction h with
  | refl => exact Or.inl rfl
  | tail hdesc hedge ih =>
      rename_i b c
      by_cases hbc : b = c
      · rw [← hbc]
        exact ih
      · exact Or.inr ⟨b, hbc, hedge, hdesc⟩

namespace Lineage

variable {edges : List (α × α)} {rank : α → Nat} (L : Lineage edges rank)

include L

theorem parent_unique (a b c : α) (ha : (a, c) ∈ edges) (hb : (b, c) ∈ edges) : a = b := by
  have h := List.inj_on_of_nodup_map L.targets ha hb rfl
  exact congrArg Prod.fst h

theorem child_unique (a b c : α) (hb : (a, b) ∈ edges) (hc : (a, c) ∈ edges) : b = c := by
  have h := List.inj_on_of_nodup_map L.sources hb hc rfl
  exact congrArg Prod.snd h

/-- Ranks do not fall along a line. -/
theorem rank_le (r a : α) (h : Descends edges r a) : rank r ≤ rank a := by
  induction h with
  | refl => exact Nat.le_refl _
  | tail _ hedge ih =>
      rename_i b c _
      by_cases hbc : b = c
      · rw [← hbc]
        exact ih
      · have hrank := L.ranked b c hedge hbc
        omega

/-- Below a root, elements of equal rank are equal. The induction is on the
    rank: parents of equal rank are equal, and have one child. -/
theorem eq_of_rank_eq (r : α) (n : Nat) :
    ∀ a b, Descends edges r a → Descends edges r b → rank a = n → rank b = n → a = b := by
  induction n using Nat.strongRecOn with
  | _ n ih =>
    intro a b ha hb han hbn
    rcases descends_cases edges r a ha with har | ⟨a', hne, hea, hda⟩
    · rcases descends_cases edges r b hb with hbr | ⟨b', hne', heb, hdb⟩
      · rw [har, hbr]
      · -- A child of the line outranks the root.
        have hle := L.rank_le r b' hdb
        have hrank := L.ranked b' b heb hne'
        rw [har] at han
        omega
    · rcases descends_cases edges r b hb with hbr | ⟨b', hne', heb, hdb⟩
      · have hle := L.rank_le r a' hda
        have hrank := L.ranked a' a hea hne
        rw [hbr] at hbn
        omega
      · have hra := L.ranked a' a hea hne
        have hrb := L.ranked b' b heb hne'
        have hsame := ih (rank a') (by omega) a' b' hda hdb rfl (by omega)
        rw [← hsame] at heb
        exact L.child_unique a' a b hea heb

/-- No edge below a root goes from an element to itself. -/
theorem ne_of_descends (r a b : α) (hroot : ∀ c, (c, r) ∉ edges) (hedge : (a, b) ∈ edges)
    (h : Descends edges r a) : a ≠ b := by
  intro hab
  rw [← hab] at hedge
  rcases descends_cases edges r a h with har | ⟨c, hne, hc, _⟩
  · rw [har] at hedge
    exact hroot r hedge
  · exact hne (L.parent_unique c a a hc hedge)

/-- If no edge starts at a rank of `m` or more, a line below a root has at
    most `m` edges. -/
theorem lineLength_le (m : Nat) (hbound : ∀ a b, (a, b) ∈ edges → a ≠ b → rank a < m) (r : α)
    (hroot : ∀ c, (c, r) ∉ edges) : lineLength edges r ≤ m := by
  classical
  set line := edges.filter (fun e => Descends edges r e.1) with hline
  have hmem : ∀ e ∈ line, e ∈ edges ∧ Descends edges r e.1 := by
    intro e he
    rw [hline, List.mem_filter, decide_eq_true_eq] at he
    exact he
  -- The edges of the line start at different elements, and so at different ranks.
  have hsources : (line.map Prod.fst).Nodup :=
    L.sources.sublist (List.Sublist.map Prod.fst List.filter_sublist)
  have hranks : ((line.map Prod.fst).map rank).Nodup := by
    refine List.Nodup.map_on ?_ hsources
    intro a ha b hb hab
    rcases List.mem_map.mp ha with ⟨ea, hea, rfl⟩
    rcases List.mem_map.mp hb with ⟨eb, heb, rfl⟩
    exact L.eq_of_rank_eq r _ _ _ (hmem ea hea).2 (hmem eb heb).2 rfl hab.symm
  have hrange : (line.map Prod.fst).map rank ⊆ List.range m := by
    intro n hn
    rw [List.map_map, List.mem_map] at hn
    rcases hn with ⟨⟨a, b⟩, he, rfl⟩
    have hedge := hmem (a, b) he
    rw [List.mem_range]
    exact hbound a b hedge.1 (L.ne_of_descends r a b hroot hedge.1 hedge.2)
  have hlen := (List.subperm_of_subset hranks hrange).length_le
  rw [List.length_map, List.length_map, List.length_range] at hlen
  exact hlen

/-- An edge from an element without a successor to an element on no edge keeps
    the lineage, with the rank of that element counted up. -/
theorem extend [DecidableEq α] (a b : α) (ha : ∀ c, (a, c) ∉ edges) (hb : ∀ c, (b, c) ∉ edges)
    (hb' : ∀ c, (c, b) ∉ edges) :
    Lineage (edges ++ [(a, b)]) (fun x => if x = b then rank a + 1 else rank x) := by
  refine ⟨?_, ?_, ?_⟩
  · rw [List.map_append, List.nodup_append]
    refine ⟨L.sources, List.nodup_singleton _, ?_⟩
    intro x hx y hy hxy
    rw [List.map_singleton, List.mem_singleton] at hy
    rcases List.mem_map.mp hx with ⟨⟨u, v⟩, huv, rfl⟩
    have hu : u = a := hxy.trans hy
    exact ha v (hu ▸ huv)
  · rw [List.map_append, List.nodup_append]
    refine ⟨L.targets, List.nodup_singleton _, ?_⟩
    intro x hx y hy hxy
    rw [List.map_singleton, List.mem_singleton] at hy
    rcases List.mem_map.mp hx with ⟨⟨u, v⟩, huv, rfl⟩
    have hv : v = b := hxy.trans hy
    exact hb' u (hv ▸ huv)
  · intro x y hxy hne
    rcases List.mem_append.mp hxy with hxy | hxy
    · -- No earlier edge touches the element whose rank is written.
      have hx : x ≠ b := fun hc => hb y (hc ▸ hxy)
      have hy : y ≠ b := fun hc => hb' x (hc ▸ hxy)
      simp only [if_neg hx, if_neg hy]
      exact L.ranked x y hxy hne
    · rw [List.mem_singleton, Prod.mk.injEq] at hxy
      have hx : x ≠ b := fun hc => hne (hc.trans hxy.2.symm)
      simp only [if_pos hxy.2, if_neg hx]
      rw [hxy.1]

end Lineage

/-- Descent along edges of two kinds, with the number of edges of the second
    kind. -/
inductive Chain (free paid : α → α → Prop) (a : α) : Nat → α → Prop
  | refl : Chain free paid a 0 a
  | free (n : Nat) (b c : α) (hab : Chain free paid a n b) (hbc : free b c) :
      Chain free paid a n c
  | paid (n : Nat) (b c : α) (hab : Chain free paid a n b) (hbc : paid b c) :
      Chain free paid a (n + 1) c

/-- More edges keep a chain. -/
theorem Chain.mono {free paid free' paid' : α → α → Prop} (hf : ∀ a b, free a b → free' a b)
    (hp : ∀ a b, paid a b → paid' a b) (a b : α) (n : Nat) (h : Chain free paid a n b) :
    Chain free' paid' a n b := by
  induction h with
  | refl => exact Chain.refl
  | free n b c _ hbc ih => exact Chain.free n b c ih (hf b c hbc)
  | paid n b c _ hbc ih => exact Chain.paid n b c ih (hp b c hbc)

/-- A potential that only counted edges raise, and by one at most, grows along
    a chain by no more than its count. -/
theorem Chain.potential_le {free paid : α → α → Prop} (f : α → Nat)
    (hf : ∀ a b, free a b → f b ≤ f a) (hp : ∀ a b, paid a b → f b ≤ f a + 1) (a b : α) (n : Nat)
    (h : Chain free paid a n b) : f b ≤ f a + n := by
  induction h with
  | refl => omega
  | free n b c _ hbc ih =>
      have hle := hf b c hbc
      omega
  | paid n b c _ hbc ih =>
      have hle := hp b c hbc
      omega

end Ztlnp
