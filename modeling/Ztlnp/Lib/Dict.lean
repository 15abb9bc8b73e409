import Mathlib.Data.List.Nodup
import Mathlib.Data.Prod.Basic
import Mathlib.Logic.Function.Basic

/-!
# Insertion-Ordered Dictionaries

A dictionary is a list of entries in the order their keys were first
inserted, with no key occurring twice. Overwriting a present key keeps its
position and a new key goes to the end, which is the order a loop over the
dictionary visits.

The key invariant is a field of the structure, so a dictionary with a
repeated key cannot be built and no later proof has to carry the fact. Each
operation is first defined on the bare list, where the recursion is, and then
packaged with the proof that it keeps the keys distinct.

Everything downstream reads a dictionary through `get?`. The lemmas here say
what each operation does to `get?` at the key it names and at every other
key, and nothing else unfolds the list.

## Main definitions

* `Dict`: Entries in insertion order with distinct keys.
* `Dict.get?`: The value at a key.
* `Dict.set`: Writing a value at a key.
* `Dict.pop`: Removing a key.
* `Dict.filter`: Keeping the entries a predicate selects.
* `Dict.mapValues`: Rewriting every value in place.
* `Dict.keys`: The keys in insertion order.
* `Dict.size`: The number of entries.

## Theorems

* `Dict.get?_empty`: Nothing is stored in the empty dictionary.
* `Dict.get?_set_self`, `Dict.get?_set_ne`: Reading after a write.
* `Dict.set_get?_self`: Writing back what is stored changes nothing.
* `Dict.set_set`: The last of two writes wins.
* `Dict.get?_pop_self`, `Dict.get?_pop_ne`: Reading after a removal.
* `Dict.get?_set_eq_update`, `Dict.get?_pop_eq_update`: Both as updates of a function.
* `Dict.get?_filter`: Reading after a filter.
* `Dict.get?_mapValues`: Reading after a rewrite of the values.
* `Dict.filter_mapValues`, `Dict.set_mapValues`: A rewrite of the values goes past
  the other operations.
* `Dict.mem_keys`: The keys are those where something is stored.
* `Dict.filter_entries`: The entries of one key.
* `Dict.keys_eq_nil`: A dictionary without keys is empty.
* `Dict.size_eq_zero`: An empty dictionary is one where every lookup fails.
* `Dict.size_set_new`: A new key adds an entry.
* `Dict.size_pop_lt`: Removing a present key makes it smaller.
-/

namespace Ztlnp

variable {κ α : Type}

/-- Entries in insertion order, no key occurring twice. -/
structure Dict (κ α : Type) where
  entries : List (κ × α)
  nodup : (entries.map Prod.fst).Nodup
deriving DecidableEq

namespace Dict

/-- The dictionary with no entries. -/
def empty : Dict κ α := ⟨[], List.nodup_nil⟩

/-- Keep the entries a predicate selects. -/
def filter (d : Dict κ α) (p : κ → α → Bool) : Dict κ α :=
  ⟨d.entries.filter (fun e => p e.1 e.2),
    d.nodup.sublist (List.Sublist.map Prod.fst List.filter_sublist)⟩

/-- Rewrite every value in place. -/
def mapValues (d : Dict κ α) (f : κ → α → α) : Dict κ α :=
  ⟨d.entries.map (fun e => (e.1, f e.1 e.2)), by
    have h : (d.entries.map (fun e => (e.1, f e.1 e.2))).map Prod.fst
        = d.entries.map Prod.fst := by
      rw [List.map_map]
      rfl
    rw [h]
    exact d.nodup⟩

/-- The keys in insertion order. -/
def keys (d : Dict κ α) : List κ := d.entries.map Prod.fst

/-- The number of entries. -/
def size (d : Dict κ α) : Nat := d.entries.length

/-- A dictionary without keys is empty. -/
theorem keys_eq_nil {d : Dict κ α} : d.keys = [] ↔ d.size = 0 := by
  rw [keys, size, List.map_eq_nil_iff, List.length_eq_zero_iff]

end Dict

variable [DecidableEq κ]

/-- The first value stored under a key in a list of entries. -/
def assocGet : List (κ × α) → κ → Option α
  | [], _ => none
  | (k', v) :: rest, k => if k' = k then some v else assocGet rest k

/-- Overwrite the entry of a key, or append one when there is none. -/
def assocSet : List (κ × α) → κ → α → List (κ × α)
  | [], k, v => [(k, v)]
  | (k', v') :: rest, k, v =>
    if k' = k then (k', v) :: rest else (k', v') :: assocSet rest k v

theorem assocGet_eq_none (l : List (κ × α)) (k : κ) :
    assocGet l k = none ↔ k ∉ l.map Prod.fst := by
  induction l with
  | nil => simp only [assocGet, List.map_nil, List.not_mem_nil, not_false_eq_true]
  | cons e rest ih =>
      rcases e with ⟨k', v⟩
      simp only [assocGet, List.map_cons, List.mem_cons, not_or]
      by_cases h : k' = k
      · rw [if_pos h]
        simp only [reduceCtorEq, h, not_true_eq_false, false_and]
      · rw [if_neg h, ih]
        exact ⟨fun hr => ⟨fun hc => h hc.symm, hr⟩, fun hr => hr.2⟩

/-- With distinct keys, the stored value is the one of the key's entry. -/
theorem assocGet_eq_some (l : List (κ × α)) (hl : (l.map Prod.fst).Nodup) (k : κ) (v : α) :
    assocGet l k = some v ↔ (k, v) ∈ l := by
  induction l with
  | nil => simp only [assocGet, reduceCtorEq, List.not_mem_nil]
  | cons e rest ih =>
      rcases e with ⟨k', v'⟩
      rw [List.map_cons, List.nodup_cons] at hl
      simp only [assocGet, List.mem_cons, Prod.mk.injEq]
      by_cases h : k' = k
      · -- The head has the key, so by distinctness nothing behind it does.
        have hrest : (k, v) ∉ rest := by
          intro hc
          have hmem := List.mem_map_of_mem (f := Prod.fst) hc
          exact hl.1 (h ▸ hmem)
        rw [if_pos h, Option.some.injEq]
        exact ⟨fun hv => Or.inl ⟨h.symm, hv.symm⟩, fun hv => by
          rcases hv with ⟨_, hv⟩ | hv
          · exact hv.symm
          · exact absurd hv hrest⟩
      · rw [if_neg h, ih hl.2]
        exact ⟨Or.inr, fun hv => by
          rcases hv with ⟨hk, _⟩ | hv
          · exact absurd hk.symm h
          · exact hv⟩

theorem assocSet_map_fst (l : List (κ × α)) (k : κ) (v : α) :
    (assocSet l k v).map Prod.fst
      = if k ∈ l.map Prod.fst then l.map Prod.fst else l.map Prod.fst ++ [k] := by
  induction l with
  | nil => rfl
  | cons e rest ih =>
      rcases e with ⟨k', v'⟩
      simp only [assocSet, List.map_cons, List.mem_cons]
      by_cases h : k' = k
      · rw [if_pos h, if_pos (Or.inl h.symm), List.map_cons]
      · rw [if_neg h, List.map_cons, ih]
        -- Whether the key is new is decided by the rest.
        by_cases hr : k ∈ rest.map Prod.fst
        · rw [if_pos hr, if_pos (Or.inr hr)]
        · rw [if_neg hr, if_neg (fun hc => hc.elim (fun hk => h hk.symm) hr), List.cons_append]

theorem assocSet_nodup (l : List (κ × α)) (k : κ) (v : α) (h : (l.map Prod.fst).Nodup) :
    ((assocSet l k v).map Prod.fst).Nodup := by
  rw [assocSet_map_fst]
  by_cases hk : k ∈ l.map Prod.fst
  · rw [if_pos hk]
    exact h
  · -- A new key goes to the end, and it is new.
    rw [if_neg hk]
    exact List.nodup_append.mpr ⟨h, List.nodup_singleton k, fun a ha b hb hab => by
      rw [List.mem_singleton] at hb
      exact hk (hb ▸ hab ▸ ha)⟩

theorem assocGet_set_self (l : List (κ × α)) (k : κ) (v : α) :
    assocGet (assocSet l k v) k = some v := by
  induction l with
  | nil => simp only [assocSet, assocGet, if_true]
  | cons e rest ih =>
      rcases e with ⟨k', v'⟩
      by_cases h : k' = k
      · simp only [assocSet, if_pos h, assocGet]
      · simp only [assocSet, if_neg h, assocGet, ih]

theorem assocGet_set_ne (l : List (κ × α)) (k k' : κ) (v : α) (hne : k' ≠ k) :
    assocGet (assocSet l k v) k' = assocGet l k' := by
  induction l with
  | nil => simp only [assocSet, assocGet, if_neg hne.symm]
  | cons e rest ih =>
      rcases e with ⟨q, w⟩
      by_cases h : q = k
      · have hq : ¬ q = k' := fun hc => hne (hc.symm.trans h)
        simp only [assocSet, if_pos h, assocGet, if_neg hq]
      · simp only [assocSet, if_neg h, assocGet, ih]

theorem assocSet_set (l : List (κ × α)) (k : κ) (v w : α) :
    assocSet (assocSet l k v) k w = assocSet l k w := by
  induction l with
  | nil => simp only [assocSet, if_true]
  | cons e rest ih =>
      rcases e with ⟨q, u⟩
      by_cases hq : q = k
      · simp only [assocSet, if_pos hq]
      · simp only [assocSet, if_neg hq, ih]

theorem assocSet_get_self (l : List (κ × α)) (k : κ) (v : α) (h : assocGet l k = some v) :
    assocSet l k v = l := by
  induction l with
  | nil => simp only [assocGet, reduceCtorEq] at h
  | cons e rest ih =>
      rcases e with ⟨q, w⟩
      by_cases hq : q = k
      · simp only [assocGet, if_pos hq, Option.some.injEq] at h
        simp only [assocSet, if_pos hq, h]
      · simp only [assocGet, if_neg hq] at h
        simp only [assocSet, if_neg hq, ih h]

namespace Dict

/-- The value stored at a key. -/
def get? (d : Dict κ α) (k : κ) : Option α := assocGet d.entries k

/-- Write a value at a key. -/
def set (d : Dict κ α) (k : κ) (v : α) : Dict κ α :=
  ⟨assocSet d.entries k v, assocSet_nodup _ _ _ d.nodup⟩

/-- Remove a key. -/
def pop (d : Dict κ α) (k : κ) : Dict κ α := d.filter (fun k' _ => k' ≠ k)

theorem get?_eq_some (d : Dict κ α) (k : κ) (v : α) :
    d.get? k = some v ↔ (k, v) ∈ d.entries :=
  assocGet_eq_some d.entries d.nodup k v

@[simp]
theorem get?_empty (k : κ) : (empty : Dict κ α).get? k = none := rfl

@[simp]
theorem get?_set_self (d : Dict κ α) (k : κ) (v : α) : (d.set k v).get? k = some v :=
  assocGet_set_self d.entries k v

theorem get?_set_ne (d : Dict κ α) {k k' : κ} (v : α) (h : k' ≠ k) :
    (d.set k v).get? k' = d.get? k' :=
  assocGet_set_ne d.entries k k' v h

/-- Reading after a write, at any key. -/
theorem get?_set (d : Dict κ α) (k k' : κ) (v : α) :
    (d.set k v).get? k' = if k' = k then some v else d.get? k' := by
  by_cases h : k' = k
  · rw [if_pos h, h, get?_set_self]
  · rw [if_neg h, get?_set_ne d v h]

/-- As a function of the key, a write is an update. -/
theorem get?_set_eq_update (d : Dict κ α) (k : κ) (v : α) :
    (d.set k v).get? = Function.update d.get? k (some v) := by
  funext k'
  rw [get?_set, Function.update_apply]

/-- Writing back what is stored changes nothing. -/
theorem set_get?_self (d : Dict κ α) (k : κ) (v : α) (h : d.get? k = some v) :
    d.set k v = d := by
  rcases d with ⟨entries, hd⟩
  simp only [set, Dict.mk.injEq]
  exact assocSet_get_self entries k v h

/-- The last of two writes at one key wins. -/
theorem set_set (d : Dict κ α) (k : κ) (v w : α) : (d.set k v).set k w = d.set k w := by
  simp only [set, Dict.mk.injEq]
  exact assocSet_set d.entries k v w

theorem get?_filter (d : Dict κ α) (p : κ → α → Bool) (k : κ) :
    (d.filter p).get? k = (d.get? k).filter (p k) := by
  cases hg : d.get? k with
  | none =>
      -- A filter invents no keys.
      have hk := (assocGet_eq_none d.entries k).mp hg
      refine (assocGet_eq_none _ k).mpr (fun hc => hk ?_)
      exact (List.Sublist.map Prod.fst List.filter_sublist).subset hc
  | some v =>
      have hmem := (get?_eq_some d k v).mp hg
      by_cases hp : p k v = true
      · rw [Option.filter_some_pos hp, get?_eq_some]
        exact List.mem_filter.mpr ⟨hmem, hp⟩
      · rw [Option.filter_some_neg (Bool.eq_false_iff.mpr hp)]
        -- What the filter would return is the stored value, which it drops.
        refine Option.eq_none_iff_forall_ne_some.mpr (fun w hw => ?_)
        rw [get?_eq_some, filter, List.mem_filter, ← get?_eq_some, hg, Option.some.injEq] at hw
        exact hp (hw.1 ▸ hw.2)

@[simp]
theorem get?_pop_self (d : Dict κ α) (k : κ) : (d.pop k).get? k = none := by
  rw [pop, get?_filter]
  cases d.get? k with
  | none => rfl
  | some v => exact Option.filter_some_neg (by simp only [ne_eq, not_true_eq_false, decide_false])

theorem get?_pop_ne (d : Dict κ α) {k k' : κ} (h : k' ≠ k) : (d.pop k).get? k' = d.get? k' := by
  rw [pop, get?_filter]
  cases d.get? k' with
  | none => rfl
  | some v =>
      exact Option.filter_some_pos (by simp only [ne_eq, h, not_false_eq_true, decide_true])

/-- Reading after a removal, at any key. -/
theorem get?_pop (d : Dict κ α) (k k' : κ) :
    (d.pop k).get? k' = if k' = k then none else d.get? k' := by
  by_cases h : k' = k
  · rw [if_pos h, h, get?_pop_self]
  · rw [if_neg h, get?_pop_ne d h]

theorem get?_pop_eq_update (d : Dict κ α) (k : κ) :
    (d.pop k).get? = Function.update d.get? k none := by
  funext k'
  rw [get?_pop, Function.update_apply]

theorem get?_mapValues (d : Dict κ α) (f : κ → α → α) (k : κ) :
    (d.mapValues f).get? k = (d.get? k).map (f k) := by
  rcases d with ⟨entries, hd⟩
  simp only [get?, mapValues]
  -- Distinctness plays no role, and the induction is on the bare list.
  clear hd
  induction entries with
  | nil => rfl
  | cons e rest ih =>
      rcases e with ⟨q, w⟩
      simp only [List.map_cons, assocGet]
      by_cases hq : q = k
      · rw [if_pos hq, if_pos hq, hq, Option.map_some]
      · rw [if_neg hq, if_neg hq, ih]

omit [DecidableEq κ] in
@[simp]
theorem keys_mapValues (d : Dict κ α) (f : κ → α → α) : (d.mapValues f).keys = d.keys := by
  simp only [keys, mapValues, List.map_map]
  rfl

omit [DecidableEq κ] in
@[simp]
theorem size_mapValues (d : Dict κ α) (f : κ → α → α) : (d.mapValues f).size = d.size :=
  List.length_map _

omit [DecidableEq κ] in
theorem mapValues_mapValues (d : Dict κ α) (f g : κ → α → α) :
    (d.mapValues f).mapValues g = d.mapValues (fun k v => g k (f k v)) := by
  simp only [mapValues, Dict.mk.injEq, List.map_map]
  rfl

omit [DecidableEq κ] in
/-- Filtering after a rewrite is rewriting what a filter leaves that looks at the
    rewritten values. -/
theorem filter_mapValues (d : Dict κ α) (f : κ → α → α) (p : κ → α → Bool) :
    (d.mapValues f).filter p = (d.filter (fun k v => p k (f k v))).mapValues f := by
  simp only [filter, mapValues, Dict.mk.injEq, List.filter_map]
  rfl

/-- A rewritten value may be written before or after the others are. -/
theorem set_mapValues (d : Dict κ α) (f : κ → α → α) (k : κ) (v : α) :
    (d.mapValues f).set k (f k v) = (d.set k v).mapValues f := by
  rcases d with ⟨entries, hd⟩
  simp only [set, mapValues, Dict.mk.injEq]
  clear hd
  induction entries with
  | nil => rfl
  | cons e rest ih =>
      rcases e with ⟨q, w⟩
      simp only [List.map_cons, assocSet]
      by_cases hq : q = k
      · rw [if_pos hq, if_pos hq, hq, List.map_cons]
      · rw [if_neg hq, if_neg hq, ih, List.map_cons]

theorem mem_keys (d : Dict κ α) (k : κ) : k ∈ d.keys ↔ ∃ v, d.get? k = some v := by
  rw [← Option.ne_none_iff_exists', ne_eq, get?, assocGet_eq_none, not_not, keys]

/-- The entries of a key are its value, if it has one. -/
theorem filter_entries (d : Dict κ α) (k : κ) :
    d.entries.filter (fun e => e.1 = k) = (d.get? k).toList.map (fun v => (k, v)) := by
  rcases d with ⟨entries, hd⟩
  simp only [get?]
  induction entries with
  | nil => rfl
  | cons e rest ih =>
      rcases e with ⟨q, w⟩
      rw [List.map_cons, List.nodup_cons] at hd
      by_cases hq : q = k
      · -- The key does not come again.
        have hnone : assocGet rest k = none := by
          rw [assocGet_eq_none, ← hq]
          exact hd.1
        have hrest := ih hd.2
        rw [hnone] at hrest
        rw [assocGet, if_pos hq, List.filter_cons_of_pos (by simp only [hq, decide_true]), hrest,
          hq]
        rfl
      · rw [assocGet, if_neg hq, List.filter_cons_of_neg (by simp only [hq, decide_false,
          Bool.false_eq_true, not_false_eq_true]), ih hd.2]

/-- A dictionary is empty exactly when every lookup fails. -/
theorem size_eq_zero (d : Dict κ α) : d.size = 0 ↔ ∀ k, d.get? k = none := by
  constructor
  · intro hsize k
    have hnil : d.entries = [] := List.eq_nil_of_length_eq_zero hsize
    cases hget : d.get? k with
    | none => rfl
    | some v =>
        have hmem := (get?_eq_some d k v).mp hget
        rw [hnil] at hmem
        simp only [List.not_mem_nil] at hmem
  · intro hnone
    rw [size, List.length_eq_zero_iff, List.eq_nil_iff_forall_not_mem]
    rintro ⟨k, v⟩ hmem
    have hget := (get?_eq_some d k v).mpr hmem
    rw [hnone k] at hget
    simp only [reduceCtorEq] at hget

/-- A new key adds an entry. -/
theorem size_set_new (d : Dict κ α) (k : κ) (v : α) (h : d.get? k = none) :
    (d.set k v).size = d.size + 1 := by
  have hkeys := assocSet_map_fst d.entries k v
  rw [if_neg ((assocGet_eq_none d.entries k).mp h)] at hkeys
  have hlength := congrArg List.length hkeys
  simp only [List.length_append, List.length_map, List.length_singleton] at hlength
  exact hlength

theorem size_pop_lt (d : Dict κ α) (k : κ) (v : α) (h : d.get? k = some v) :
    (d.pop k).size < d.size := by
  rw [get?_eq_some] at h
  refine List.length_filter_lt_length_iff_exists.mpr ⟨(k, v), h, ?_⟩
  simp only [ne_eq, not_true_eq_false, decide_false, Bool.false_eq_true, not_false_eq_true]

end Dict

end Ztlnp
