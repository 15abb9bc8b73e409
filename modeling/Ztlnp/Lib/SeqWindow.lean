import Mathlib.Data.Finset.Lattice.Fold
import Mathlib.Order.Interval.Finset.Nat
import Mathlib.Order.Interval.Finset.Defs
import Mathlib.Order.Lattice.Nat

/-!
# Sliding Windows over Sequence Numbers

Duplicate suppression with bounded memory, against the same thing with
unbounded memory.

The abstract filter remembers everything. It keeps the set of numbers it has
accepted and admits a number that is not among them and not `width` or more
below the largest of them. The concrete filter keeps the largest number and
only the accepted numbers above the lower edge, pruning when the maximum
advances. `Tracks` relates the two, and the step lemmas say that related
filters take the same decision and stay related.

The lower edge is an integer: with nothing accepted the maximum is zero and
the edge is below zero, so every number is admitted. The comparison is
therefore made in `Int`, where it never truncates.

## Main definitions

* `top`: The largest member of a finite set, zero when it is empty.
* `Fresh`: What the filter with full memory admits.
* `SeqWindow`: The state of the filter with bounded memory.
* `SeqWindow.Admits`: What it admits.
* `SeqWindow.record`: Its state after accepting a number.
* `SeqWindow.Seen`: The numbers it will never admit again.
* `Tracks`: The bounded filter holds what the full history prescribes.

## Theorems

* `tracks_empty`: The empty filters are related.
* `admits_iff_fresh`: Related filters take the same decision.
* `tracks_record`: Related filters stay related.
* `Tracks.card_le`: The bounded filter holds at most `width` numbers.
* `SeqWindow.largest_record`, `SeqWindow.mem_recent_record`: What accepting a
  number does to the state.
* `SeqWindow.seen_record`: Accepting a number keeps what was seen.
* `SeqWindow.seen_record_self`: An accepted number is seen.
* `SeqWindow.not_admits_of_seen`: A seen number is not admitted.
-/

namespace Ztlnp

/-- The largest member of a finite set of naturals, zero when it is empty. -/
def top (H : Finset Nat) : Nat := H.sup id

theorem le_top {H : Finset Nat} {n : Nat} (h : n ∈ H) : n ≤ top H :=
  Finset.le_sup (f := id) h

theorem top_insert (H : Finset Nat) (n : Nat) : top (insert n H) = max n (top H) :=
  Finset.sup_insert

/-- What a filter that remembers every accepted number admits. -/
def Fresh (width : Nat) (H : Finset Nat) (n : Nat) : Prop :=
  n ∉ H ∧ (top H : Int) - width < n

/-- A filter with bounded memory: the largest accepted number and the
    accepted numbers above the lower edge. -/
structure SeqWindow where
  largest : Nat
  recent : Finset Nat
deriving DecidableEq

namespace SeqWindow

variable (width : Nat)

/-- The lower edge: numbers at or below it are refused. -/
def edge (w : SeqWindow) : Int := (w.largest : Int) - width

/-- What the bounded filter admits. -/
def Admits (w : SeqWindow) (n : Nat) : Prop :=
  n ∉ w.recent ∧ ¬ (n : Int) ≤ w.edge width

instance (w : SeqWindow) (n : Nat) : Decidable (w.Admits width n) :=
  inferInstanceAs (Decidable (_ ∧ _))

/-- The state after accepting a number. Pruning happens only when the
    maximum advances. -/
def record (w : SeqWindow) (n : Nat) : SeqWindow :=
  if n > w.largest then
    ⟨n, (insert n w.recent).filter (fun k : Nat => (k : Int) > (n : Int) - width)⟩
  else ⟨w.largest, insert n w.recent⟩

/-- The numbers the filter will never admit again. -/
def Seen (w : SeqWindow) (n : Nat) : Prop := n ∈ w.recent ∨ (n : Int) ≤ w.edge width

theorem not_admits_of_seen {w : SeqWindow} {n : Nat} (h : w.Seen width n) :
    ¬ w.Admits width n := by
  rintro ⟨hn, he⟩
  exact h.elim hn he

theorem largest_record (w : SeqWindow) (n : Nat) :
    (w.record width n).largest = max n w.largest := by
  unfold record
  by_cases h : n > w.largest
  · rw [if_pos h]
    exact (max_eq_left (le_of_lt h)).symm
  · rw [if_neg h]
    exact (max_eq_right (not_lt.mp h)).symm

/-- Accepting a number puts nothing else into the memory. -/
theorem mem_recent_record (w : SeqWindow) (n k : Nat) (hk : k ∈ (w.record width n).recent) :
    k = n ∨ k ∈ w.recent := by
  unfold record at hk
  by_cases h : n > w.largest
  · rw [if_pos h] at hk
    exact Finset.mem_insert.mp (Finset.mem_filter.mp hk).1
  · rw [if_neg h] at hk
    exact Finset.mem_insert.mp hk

/-- Pruning forgets a number only by putting it below the edge, so whatever
    was seen stays seen. -/
theorem seen_record {w : SeqWindow} (n : Nat) {k : Nat} (h : w.Seen width k) :
    (w.record width n).Seen width k := by
  unfold Seen edge at h ⊢
  unfold record
  by_cases hn : n > w.largest
  · rw [if_pos hn]
    simp only [Finset.mem_filter, Finset.mem_insert]
    by_cases hk : (k : Int) > (n : Int) - width
    · -- Still above the new edge, so it was not pruned.
      rcases h with h | h
      · exact Or.inl ⟨Or.inr h, hk⟩
      · omega
    · -- Pruned: it now lies at or below the edge.
      exact Or.inr (by omega)
  · rw [if_neg hn]
    rcases h with h | h
    · exact Or.inl (Finset.mem_insert_of_mem h)
    · exact Or.inr h

theorem seen_record_self (w : SeqWindow) (n : Nat) : (w.record width n).Seen width n := by
  unfold Seen edge record
  by_cases hn : n > w.largest
  · rw [if_pos hn]
    simp only [Finset.mem_filter, Finset.mem_insert, true_or, true_and]
    omega
  · rw [if_neg hn]
    exact Or.inl (Finset.mem_insert_self _ _)

end SeqWindow

/-- The bounded filter holds exactly what the full history prescribes. -/
structure Tracks (width : Nat) (w : SeqWindow) (H : Finset Nat) : Prop where
  largest_eq : w.largest = top H
  recent_eq : w.recent = H.filter (fun k : Nat => (top H : Int) - width < k)

theorem tracks_empty (width : Nat) : Tracks width ⟨0, ∅⟩ ∅ :=
  ⟨rfl, rfl⟩

/-- The two filters agree on every number: one that is not in the bounded
    memory and above the edge is not in the history either, since the history
    above the edge is all in memory. -/
theorem admits_iff_fresh {width : Nat} {w : SeqWindow} {H : Finset Nat} (h : Tracks width w H)
    (n : Nat) : w.Admits width n ↔ Fresh width H n := by
  unfold SeqWindow.Admits SeqWindow.edge Fresh
  rw [h.largest_eq, h.recent_eq, Finset.mem_filter, not_le]
  -- Above the edge, memory and history agree.
  constructor
  · rintro ⟨hn, he⟩
    exact ⟨fun hc => hn ⟨hc, he⟩, he⟩
  · rintro ⟨hn, he⟩
    exact ⟨fun hc => hn hc.1, he⟩

/-- Accepting a number keeps the filters related. Only a number above the
    edge may be recorded: a lower one would enter the memory without being
    in the prescribed part of the history. -/
theorem tracks_record {width : Nat} {w : SeqWindow} {H : Finset Nat} (h : Tracks width w H)
    (n : Nat) (hn : w.Admits width n) : Tracks width (w.record width n) (insert n H) := by
  have hedge : (top H : Int) - width < n := ((admits_iff_fresh h n).mp hn).2
  refine ⟨?_, ?_⟩
  · rw [SeqWindow.largest_record, top_insert, h.largest_eq]
  · rw [top_insert]
    ext k
    unfold SeqWindow.record
    rw [h.largest_eq, h.recent_eq]
    -- Pruning happens only when the maximum moves, and drops what falls below the new edge.
    by_cases hgt : n > top H
    · rw [if_pos hgt, max_eq_left (by omega : top H ≤ n)]
      simp only [Finset.mem_filter, Finset.mem_insert]
      constructor
      · rintro ⟨hk | hk, he⟩
        · exact ⟨Or.inl hk, he⟩
        · exact ⟨Or.inr hk.1, he⟩
      · rintro ⟨hk | hk, he⟩
        · exact ⟨Or.inl hk, he⟩
        · exact ⟨Or.inr ⟨hk, by omega⟩, he⟩
    · -- The maximum stays, and the number is above the edge, so it belongs in memory.
      rw [if_neg hgt, max_eq_right (by omega : n ≤ top H)]
      simp only [Finset.mem_filter, Finset.mem_insert]
      constructor
      · rintro (rfl | hk)
        · exact ⟨Or.inl rfl, hedge⟩
        · exact ⟨Or.inr hk.1, hk.2⟩
      · rintro ⟨hk | hk, he⟩
        · exact Or.inl hk
        · exact Or.inr ⟨hk, he⟩

/-- The memory sits in an interval of `width` numbers. -/
theorem Tracks.card_le {width : Nat} {w : SeqWindow} {H : Finset Nat} (h : Tracks width w H) :
    w.recent.card ≤ width := by
  have hsub : w.recent ⊆ Finset.Ico (top H + 1 - width) (top H + 1) := by
    intro k hk
    rw [h.recent_eq, Finset.mem_filter] at hk
    have hle := le_top hk.1
    rw [Finset.mem_Ico]
    omega
  have hcard := Finset.card_le_card hsub
  rw [Nat.card_Ico] at hcard
  omega

end Ztlnp
