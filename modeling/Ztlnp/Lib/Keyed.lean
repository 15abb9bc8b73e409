import Mathlib.Data.List.Nodup
import Mathlib.Logic.Function.Basic

/-!
# Lists Keyed by Their Elements

A list whose elements carry their own key, where adding an element replaces
the one with its key in place and otherwise goes to the end. This is the loop
with an early return that programs write when a dictionary would need a key
they have not made a type of.

What such a list is for is a partial map from keys to elements. `Represents`
says that a list stands for a map: no key occurs twice, and a key has a value
exactly when the list holds an element with that key. Adding an element is
then an update of the map, so a history of additions can be read off the map
and the search through the list is never unfolded again.

Where the order of the elements matters as well, two facts about filters take
the place of the map. Elements with other keys stay as they were and where
they were, and of the elements with the key just one is left.

## Main definitions

* `Keyed.put`: Adding an element at its key.
* `Keyed.Represents`: A list stands for a partial map.

## Theorems

* `Keyed.filter_put_of_ne`: Elements with other keys stay.
* `Keyed.filter_put_self`: One element with the key is left.
* `Keyed.filter_foldl_put_of_ne`, `Keyed.filter_foldl_put_concat`: The same for
  many elements with one key.
* `Keyed.Represents.put`: Adding an element updates the map.
* `Keyed.Represents.mem`: The elements are the values of their keys.
* `Keyed.Represents.filter_eq_singleton`: Each key has one element at most.
-/

namespace Ztlnp

namespace Keyed

variable {κ α : Type} [DecidableEq κ] (key : α → κ)

/-- Replace the first element with the key of `x` by `x`, or append it. -/
def put (x : α) : List α → List α
  | [] => [x]
  | a :: l => if key a = key x then x :: l else a :: put x l

theorem map_put (x : α) (l : List α) :
    (put key x l).map key = if key x ∈ l.map key then l.map key else l.map key ++ [key x] := by
  induction l with
  | nil => rfl
  | cons a l ih =>
      rw [put, List.map_cons]
      by_cases ha : key a = key x
      · rw [if_pos ha, if_pos (ha ▸ List.mem_cons_self), List.map_cons, ha]
      · rw [if_neg ha, List.map_cons, ih]
        by_cases hl : key x ∈ l.map key
        · rw [if_pos hl, if_pos (List.mem_cons_of_mem _ hl)]
        · rw [if_neg hl, if_neg (fun h => hl (List.mem_of_ne_of_mem (Ne.symm ha) h)),
            List.cons_append]

theorem nodup_put (x : α) {l : List α} (h : (l.map key).Nodup) :
    ((put key x l).map key).Nodup := by
  rw [map_put]
  by_cases hl : key x ∈ l.map key
  · rw [if_pos hl]
    exact h
  · rw [if_neg hl]
    exact List.nodup_append.mpr ⟨h, List.nodup_singleton _, fun a ha b hb hab => by
      rw [List.mem_singleton] at hb
      exact hl (hb ▸ hab ▸ ha)⟩

theorem put_ne_nil (x : α) (l : List α) : put key x l ≠ [] := by
  cases l with
  | nil => exact List.cons_ne_nil _ _
  | cons a l =>
      rw [put]
      by_cases ha : key a = key x
      · rw [if_pos ha]
        exact List.cons_ne_nil _ _
      · rw [if_neg ha]
        exact List.cons_ne_nil _ _

/-- A selection that takes nothing with the key does not notice. -/
theorem filter_put_of_ne (p : α → Bool) (x : α) (l : List α)
    (hp : ∀ a, key a = key x → p a = false) : (put key x l).filter p = l.filter p := by
  have hx : ¬ p x = true := by rw [hp x rfl]; exact Bool.false_ne_true
  induction l with
  | nil => rw [put, List.filter_cons_of_neg hx]
  | cons a l ih =>
      rw [put]
      by_cases ha : key a = key x
      · have hneg : ¬ p a = true := by rw [hp a ha]; exact Bool.false_ne_true
        rw [if_pos ha, List.filter_cons_of_neg hx, List.filter_cons_of_neg hneg]
      · rw [if_neg ha]
        by_cases hpa : p a = true
        · rw [List.filter_cons_of_pos hpa, List.filter_cons_of_pos hpa, ih]
        · rw [List.filter_cons_of_neg hpa, List.filter_cons_of_neg hpa, ih]

/-- Only the element itself is left with its key. -/
theorem filter_put_self (x : α) {l : List α} (h : (l.map key).Nodup) :
    (put key x l).filter (fun a => key a = key x) = [x] := by
  induction l with
  | nil => rw [put, List.filter_cons_of_pos (by simp only [decide_true]), List.filter_nil]
  | cons a l ih =>
      rw [List.map_cons, List.nodup_cons] at h
      rw [put]
      by_cases ha : key a = key x
      · -- Nothing behind the element that is replaced has its key.
        have hrest : l.filter (fun b => key b = key x) = [] := by
          refine List.filter_eq_nil_iff.mpr (fun b hb hkey => h.1 ?_)
          rw [ha, ← of_decide_eq_true hkey]
          exact List.mem_map_of_mem hb
        rw [if_pos ha, List.filter_cons_of_pos (by simp only [decide_true]), hrest]
      · rw [if_neg ha, List.filter_cons_of_neg (by simp only [ha, decide_false,
          Bool.false_eq_true, not_false_eq_true]), ih h.2]

/-- With distinct keys, adding replaces exactly the elements with the key. -/
theorem mem_put (x a : α) {l : List α} (h : (l.map key).Nodup) :
    a ∈ put key x l ↔ a = x ∨ (a ∈ l ∧ key a ≠ key x) := by
  by_cases ha : key a = key x
  · have hself : a ∈ put key x l ↔ a ∈ (put key x l).filter (fun b => key b = key x) := by
      rw [List.mem_filter, decide_eq_true ha]
      exact (and_iff_left rfl).symm
    rw [hself, filter_put_self key x h, List.mem_singleton]
    exact ⟨Or.inl, fun hc => hc.resolve_right (fun hr => hr.2 ha)⟩
  · have hne : decide (key a ≠ key x) = true := decide_eq_true ha
    have hother : ∀ l' : List α, a ∈ l' ↔ a ∈ l'.filter (fun b => key b ≠ key x) := by
      intro l'
      rw [List.mem_filter, hne]
      exact (and_iff_left rfl).symm
    rw [hother, filter_put_of_ne key _ x l (fun b hb => decide_eq_false (fun hc => hc hb)),
      ← hother]
    exact ⟨fun hl => Or.inr ⟨hl, ha⟩, fun hc => hc.elim (fun hx => absurd (hx ▸ rfl) ha) And.left⟩

/-- Adding what is there changes nothing. -/
theorem put_of_mem {x : α} {l : List α} (h : (l.map key).Nodup) (hx : x ∈ l) :
    put key x l = l := by
  induction l with
  | nil => exact absurd hx List.not_mem_nil
  | cons a l ih =>
      rw [List.map_cons, List.nodup_cons] at h
      rw [put]
      rcases List.mem_cons.mp hx with rfl | hx
      · rw [if_pos rfl]
      · have ha : ¬ key a = key x := fun ha => h.1 (ha ▸ List.mem_map_of_mem hx)
        rw [if_neg ha, ih h.2 hx]

section Folds

variable (k : κ)

theorem nodup_foldl_put (xs : List α) {l : List α} (h : (l.map key).Nodup) :
    ((xs.foldl (fun l x => put key x l) l).map key).Nodup := by
  induction xs generalizing l with
  | nil => exact h
  | cons x xs ih => exact ih (nodup_put key x h)

/-- Adding many elements with one key leaves all others. -/
theorem filter_foldl_put_of_ne (xs l : List α) (hxs : ∀ x ∈ xs, key x = k) :
    (xs.foldl (fun l x => put key x l) l).filter (fun a => key a ≠ k)
      = l.filter (fun a => key a ≠ k) := by
  induction xs generalizing l with
  | nil => rfl
  | cons x xs ih =>
      have hx := hxs x List.mem_cons_self
      rw [List.foldl_cons, ih _ (fun y hy => hxs y (List.mem_cons_of_mem x hy)),
        filter_put_of_ne key _ x l (fun a ha => decide_eq_false (fun hc => hc (ha.trans hx)))]

/-- Of many elements added the last is the one that is left with its key. -/
theorem filter_foldl_put_concat (xs : List α) (x : α) {l : List α} (h : (l.map key).Nodup) :
    ((xs ++ [x]).foldl (fun l x => put key x l) l).filter (fun a => key a = key x) = [x] := by
  rw [List.foldl_append]
  exact filter_put_self key x (nodup_foldl_put key xs h)

end Folds

/-- A list stands for a partial map: no key occurs twice, and the value of a
    key is the element of the list with that key. -/
structure Represents (l : List α) (m : κ → Option α) : Prop where
  once : (l.map key).Nodup
  get : ∀ k a, m k = some a ↔ a ∈ l ∧ key a = k

namespace Represents

variable {key} {l : List α} {m : κ → Option α}

omit [DecidableEq κ] in
theorem nil : Represents key [] (fun _ => none) where
  once := List.nodup_nil
  get _ _ := iff_of_false (fun h => by cases h) (fun h => absurd h.1 List.not_mem_nil)

/-- Adding an element updates the map at its key. -/
theorem put (h : Represents key l m) (x : α) :
    Represents key (Keyed.put key x l) (Function.update m (key x) (some x)) where
  once := nodup_put key x h.once
  get k a := by
    rw [mem_put key x a h.once]
    by_cases hk : k = key x
    · rw [hk, Function.update_self, Option.some.injEq]
      exact ⟨fun hx => ⟨Or.inl hx.symm, hx ▸ rfl⟩,
        fun hc => (hc.1.resolve_right (fun hr => hr.2 hc.2)).symm⟩
    · rw [Function.update_of_ne hk, h.get]
      refine ⟨fun ha => ⟨Or.inr ⟨ha.1, fun hc => hk (ha.2.symm.trans hc)⟩, ha.2⟩, fun hc => ?_⟩
      rcases hc with ⟨rfl | ha, hkey⟩
      · exact absurd hkey.symm hk
      · exact ⟨ha.1, hkey⟩

omit [DecidableEq κ] in
theorem mem (h : Represents key l m) (a : α) : a ∈ l ↔ m (key a) = some a := by
  rw [h.get]
  exact (and_iff_left rfl).symm

/-- The elements with the key of a value are that value. -/
theorem filter_eq_singleton (h : Represents key l m) {k : κ} {a : α} (hk : m k = some a) :
    l.filter (fun b => key b = k) = [a] := by
  rcases (h.get k a).mp hk with ⟨hmem, rfl⟩
  have hself : Keyed.put key a l = l := put_of_mem key h.once hmem
  rw [← hself]
  exact filter_put_self key a h.once

end Represents

end Keyed

end Ztlnp
