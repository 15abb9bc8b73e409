import Ztlnp.Lib.Dict
import Mathlib.Data.Finset.Card
import Mathlib.Logic.Function.Basic
import Mathlib.Order.Bounds.Basic

/-!
# Reassembly

Putting numbered pieces back in order, and describing which have arrived.

A receiver that delivers in order keeps the number of the last piece it has
delivered and a buffer of pieces beyond the next one. When the next piece
arrives, the buffer is drained as far as it is contiguous. The loop stops at
the first missing number, and each round removes an entry, so as many rounds
as there are entries are enough.

What the pieces contain is described by a source, a function from numbers to
contents. If the buffer agrees with the source, what is drained is a stretch
of the source, and nothing else is needed to say that delivery is in order.

A list of numbered pieces is such a source. If its numbers ascend, the pieces
up to a number are a prefix of all of them, and they grow by a stretch when
the number does, so a receiver that has delivered the pieces up to a number
has after a drain delivered the pieces up to a later one.

If pieces come in any order, it is easier to say what a receiver looks like
that has taken in everything there is: it stands before the first piece that
is missing and holds what lies behind. `Gathered` is that, and whichever piece
comes next keeps it. A source leaves only one such state.

`blocks` is the other direction: a list of numbers written as the ends of its
contiguous stretches. It covers exactly the list, in whatever order the list
is, because a stretch is only ever extended by its own successor.

## Main definitions

* `drain`: Deliver buffered pieces while they are contiguous.
* `stretch`: The contents of a range of numbers.
* `Gathered`: A receiver that has taken in all of a source.
* `Ascending`: The numbers of a list of pieces ascend.
* `content`, `upTo`: The pieces with a number, and up to a number.
* `blocks`: The contiguous stretches of a list of numbers.
* `runEnds`: How many stretches a set of numbers has.

## Theorems

* `drain_le`: Draining moves forward.
* `drain_stops`: It stops at a missing number, given enough rounds.
* `drain_get?`: It removes exactly what it delivers.
* `drain_out`: It delivers a stretch of the source.
* `Gathered.isGreatest`, `Gathered.unique`: The source decides where it stands
  and what it holds.
* `Gathered.late`, `Gathered.early`, `Gathered.inTurn`: One more piece.
* `upTo_prefix`: The pieces up to a number are a prefix of all.
* `drain_upTo`: Draining delivers the pieces up to where it stops.
* `mem_blocks`: The stretches cover exactly the list.
* `blocks_spaced`: The stretches of an ascending list ascend, and do not touch.
* `length_blocks`: There are as many as the set has.
* `runEnds_mono`: Removing whole stretches makes them fewer.
-/

namespace Ztlnp

variable {α : Type}

/-- Deliver buffered pieces while the next number is there. The arguments are
    the rounds left, the last number delivered, the buffer and the output. -/
def drain : Nat → Nat → Dict Nat (List α) → List α → Nat × Dict Nat (List α) × List α
  | 0, last, buffer, out => (last, buffer, out)
  | fuel + 1, last, buffer, out =>
    match buffer.get? (last + 1) with
    | none => (last, buffer, out)
    | some piece => drain fuel (last + 1) (buffer.pop (last + 1)) (out ++ piece)

/-- The contents of the numbers above `first` up to `last`. -/
def stretch (source : Nat → List α) (first last : Nat) : List α :=
  (List.range' (first + 1) (last - first)).flatMap source

theorem stretch_self (source : Nat → List α) (n : Nat) : stretch source n n = [] := by
  simp only [stretch, Nat.sub_self, List.range'_zero, List.flatMap_nil]

/-- A stretch is extended at its front. -/
theorem stretch_succ_left (source : Nat → List α) (first last : Nat) (h : first < last) :
    stretch source first last = source (first + 1) ++ stretch source (first + 1) last := by
  have hlen : last - first = (last - (first + 1)) + 1 := by omega
  unfold stretch
  rw [hlen, List.range'_succ, List.flatMap_cons]

/-- Two adjacent stretches are one. -/
theorem stretch_append (source : Nat → List α) (first middle last : Nat) (h : first ≤ middle)
    (h' : middle ≤ last) :
    stretch source first last = stretch source first middle ++ stretch source middle last := by
  have hlen : last - first = (middle - first) + (last - middle) := by omega
  have hstart : first + 1 + 1 * (middle - first) = middle + 1 := by omega
  unfold stretch
  rw [hlen, ← List.range'_append, List.flatMap_append, hstart]

/-- Only the numbers of a stretch matter to it. -/
theorem stretch_congr (source source' : Nat → List α) (first last : Nat)
    (h : ∀ k, first < k → k ≤ last → source k = source' k) :
    stretch source first last = stretch source' first last := by
  unfold stretch
  refine List.flatMap_congr (fun k hk => h k ?_ ?_)
  · have hmem := List.mem_range'_1.mp hk
    omega
  · have hmem := List.mem_range'_1.mp hk
    omega

theorem drain_le (fuel last : Nat) (buffer : Dict Nat (List α)) (out : List α) :
    last ≤ (drain fuel last buffer out).1 := by
  induction fuel generalizing last buffer out with
  | zero => exact Nat.le_refl _
  | succ fuel ih =>
      unfold drain
      cases buffer.get? (last + 1) with
      | none => exact Nat.le_refl _
      | some piece => exact Nat.le_trans (Nat.le_succ last) (ih _ _ _)

/-- With a round for every entry, draining stops at a missing number. -/
theorem drain_stops (fuel last : Nat) (buffer : Dict Nat (List α)) (out : List α)
    (hfuel : buffer.size ≤ fuel) :
    (drain fuel last buffer out).2.1.get? ((drain fuel last buffer out).1 + 1) = none := by
  induction fuel generalizing last buffer out with
  | zero =>
      -- No rounds means no entries.
      have hempty : buffer.entries = [] := List.eq_nil_of_length_eq_zero (Nat.le_zero.mp hfuel)
      cases hget : buffer.get? (last + 1) with
      | none => exact hget
      | some piece =>
          have hmem := (Dict.get?_eq_some _ _ _).mp hget
          rw [hempty] at hmem
          simp only [List.not_mem_nil] at hmem
  | succ fuel ih =>
      unfold drain
      cases hget : buffer.get? (last + 1) with
      | none => exact hget
      | some piece =>
          have hlt := Dict.size_pop_lt buffer (last + 1) piece hget
          exact ih _ _ _ (by omega)

/-- Draining adds nothing to the buffer. -/
theorem drain_get?_of_none (fuel last : Nat) (buffer : Dict Nat (List α)) (out : List α)
    (k : Nat) (hk : buffer.get? k = none) : (drain fuel last buffer out).2.1.get? k = none := by
  induction fuel generalizing last buffer out with
  | zero => exact hk
  | succ fuel ih =>
      unfold drain
      cases buffer.get? (last + 1) with
      | none => exact hk
      | some piece =>
          refine ih _ _ _ ?_
          rw [Dict.get?_pop, hk, ite_self]

/-- Draining removes exactly the numbers it delivers. -/
theorem drain_get? (fuel last : Nat) (buffer : Dict Nat (List α)) (out : List α) (k : Nat)
    (hk : last < k) :
    (k ≤ (drain fuel last buffer out).1 → buffer.get? k ≠ none ∧
      (drain fuel last buffer out).2.1.get? k = none) ∧
    ((drain fuel last buffer out).1 < k →
      (drain fuel last buffer out).2.1.get? k = buffer.get? k) := by
  induction fuel generalizing last buffer out with
  | zero =>
      refine ⟨fun h => ?_, fun _ => rfl⟩
      have hle : k ≤ last := h
      omega
  | succ fuel ih =>
      unfold drain
      cases hget : buffer.get? (last + 1) with
      | none =>
          refine ⟨fun h => ?_, fun _ => rfl⟩
          have hle : k ≤ last := h
          omega
      | some piece =>
          simp only
          by_cases hnext : k = last + 1
          · -- The number that was just taken out is gone for good.
            subst hnext
            have hle := drain_le fuel (last + 1) (buffer.pop (last + 1)) (out ++ piece)
            refine ⟨fun _ => ⟨by simp only [hget, ne_eq, reduceCtorEq, not_false_eq_true], ?_⟩,
              fun h => by omega⟩
            exact drain_get?_of_none fuel (last + 1) _ _ _ (Dict.get?_pop_self _ _)
          · -- A later number is untouched by this round.
            rcases ih (last + 1) (buffer.pop (last + 1)) (out ++ piece) (by omega) with ⟨h1, h2⟩
            rw [Dict.get?_pop_ne _ hnext] at h1 h2
            exact ⟨h1, h2⟩

/-- Draining a buffer that agrees with a source delivers a stretch of it. -/
theorem drain_out (source : Nat → List α) (fuel last : Nat) (buffer : Dict Nat (List α))
    (out : List α) (hbuf : ∀ k piece, buffer.get? k = some piece → piece = source k) :
    (drain fuel last buffer out).2.2
      = out ++ stretch source last (drain fuel last buffer out).1 := by
  -- One step of `drain` pops one piece, and the fuel counts the steps.
  induction fuel generalizing last buffer out with
  | zero => simp only [drain, stretch_self, List.append_nil]
  | succ fuel ih =>
      unfold drain
      cases hget : buffer.get? (last + 1) with
      | none => simp only [stretch_self, List.append_nil]
      | some piece =>
          -- What is left in the buffer is still what the source has there.
          have hpop : ∀ k p, (buffer.pop (last + 1)).get? k = some p → p = source k := by
            intro k p hp
            rw [Dict.get?_pop] at hp
            by_cases hk : k = last + 1
            · rw [if_pos hk] at hp
              simp only [reduceCtorEq] at hp
            · rw [if_neg hk] at hp
              exact hbuf k p hp
          have hle := drain_le fuel (last + 1) (buffer.pop (last + 1)) (out ++ piece)
          simp only
          rw [ih (last + 1) _ _ hpop, stretch_succ_left source last _ (by omega),
            hbuf _ _ hget, List.append_assoc]

/-- A receiver that has taken in everything a source has, from a number on: it
    has delivered the pieces up to the first one that is missing, and holds
    those behind it. Nothing here says in which order they came. -/
structure Gathered (source : Nat → Option (List α)) (start next : Nat)
    (buffer : Dict Nat (List α)) (out : List α) : Prop where
  le : start ≤ next
  filled : ∀ k, start < k → k ≤ next → source k ≠ none
  stuck : source (next + 1) = none
  buffer : ∀ k, buffer.get? k = if next < k then source k else none
  out : out = stretch (fun k => (source k).getD []) start next

namespace Gathered

variable {source : Nat → Option (List α)} {start next : Nat} {buffer : Dict Nat (List α)}
  {out : List α}

/-- Where it stops is the last number up to which nothing is missing. -/
theorem isGreatest (h : Gathered source start next buffer out) :
    IsGreatest {n | ∀ k, start < k → k ≤ n → source k ≠ none} next := by
  refine ⟨h.filled, fun n hn => ?_⟩
  by_contra hlt
  have hle := h.le
  exact hn (next + 1) (by omega) (by omega) h.stuck

/-- The source decides everything. -/
theorem unique {next' : Nat} {buffer' : Dict Nat (List α)} {out' : List α}
    (h : Gathered source start next buffer out) (h' : Gathered source start next' buffer' out') :
    next = next' ∧ (∀ k, buffer.get? k = buffer'.get? k) ∧ out = out' := by
  have hnext := h.isGreatest.unique h'.isGreatest
  subst hnext
  refine ⟨rfl, fun k => ?_, ?_⟩
  · rw [h.buffer, h'.buffer]
  · rw [h.out, h'.out]

/-- A receiver that has nothing left to deliver has gathered its buffer. -/
theorem init (buffer : Dict Nat (List α)) (start : Nat)
    (hbuf : ∀ k piece, buffer.get? k = some piece → start + 1 < k) :
    Gathered buffer.get? start start buffer [] := by
  have hnone : ∀ k, k ≤ start + 1 → buffer.get? k = none := by
    intro k hk
    rw [Option.eq_none_iff_forall_ne_some]
    intro piece hpiece
    have hlt := hbuf k piece hpiece
    omega
  refine ⟨Nat.le_refl _, fun k hlt hle => ?_, hnone _ (Nat.le_refl _), fun k => ?_,
    (stretch_self _ _).symm⟩
  · omega
  · by_cases hk : start < k
    · rw [if_pos hk]
    · rw [if_neg hk]
      exact hnone k (by omega)

/-- A piece from before the start changes nothing. -/
theorem late (h : Gathered source start next buffer out) (n : Nat) (piece : List α)
    (hn : n ≤ start) :
    Gathered (Function.update source n (some piece)) start next buffer out := by
  have hle := h.le
  have hother : ∀ k, start < k → Function.update source n (some piece) k = source k :=
    fun k hk => Function.update_of_ne (by omega) _ _
  refine ⟨hle, fun k hlt hk => ?_, ?_, fun k => ?_, ?_⟩
  · rw [hother k hlt]
    exact h.filled k hlt hk
  · rw [hother _ (by omega)]
    exact h.stuck
  · rw [h.buffer]
    by_cases hk : next < k
    · rw [if_pos hk, if_pos hk, hother k (by omega)]
    · rw [if_neg hk, if_neg hk]
  · rw [h.out]
    exact stretch_congr _ _ _ _ (fun k hlt _ => by simp only [hother k hlt])

/-- A piece that is not yet in turn is kept. -/
theorem early (h : Gathered source start next buffer out) (n : Nat) (piece : List α)
    (hn : next + 1 < n) :
    Gathered (Function.update source n (some piece)) start next (buffer.set n piece) out := by
  have hother : ∀ k, k ≤ next + 1 → Function.update source n (some piece) k = source k :=
    fun k hk => Function.update_of_ne (by omega) _ _
  refine ⟨h.le, fun k hlt hk => ?_, ?_, fun k => ?_, ?_⟩
  · rw [hother k (by omega)]
    exact h.filled k hlt hk
  · rw [hother _ (Nat.le_refl _)]
    exact h.stuck
  · rw [Dict.get?_set, h.buffer]
    by_cases hk : k = n
    · rw [if_pos hk, if_pos (by omega), hk, Function.update_self]
    · rw [if_neg hk, Function.update_of_ne hk]
  · rw [h.out]
    exact stretch_congr _ _ _ _ (fun k _ hk => by simp only [hother k (by omega)])

/-- The piece in turn is delivered, with whatever follows it in the buffer. -/
theorem inTurn (h : Gathered source start next buffer out) (piece : List α) :
    Gathered (Function.update source (next + 1) (some piece)) start
      (drain buffer.size (next + 1) buffer piece).1
      (drain buffer.size (next + 1) buffer piece).2.1
      (out ++ (drain buffer.size (next + 1) buffer piece).2.2) := by
  have hle := h.le
  have hfar := drain_le buffer.size (next + 1) buffer piece
  have hstops := drain_stops buffer.size (next + 1) buffer piece (Nat.le_refl _)
  have hget := drain_get? buffer.size (next + 1) buffer piece
  have hadds := drain_get?_of_none buffer.size (next + 1) buffer piece
  have hout := drain_out (fun k => (Function.update source (next + 1) (some piece) k).getD [])
    buffer.size (next + 1) buffer piece
  generalize drain buffer.size (next + 1) buffer piece = r at hfar hstops hget hadds hout ⊢
  -- Away from the new piece the source is the old one, and there the buffer is read off it.
  have hother : ∀ k, k ≠ next + 1 → Function.update source (next + 1) (some piece) k = source k :=
    fun k hk => Function.update_of_ne hk _ _
  have hbuffer : ∀ k, next + 1 < k → buffer.get? k = source k := by
    intro k hk
    rw [h.buffer, if_pos (by omega)]
  refine ⟨by omega, fun k hlt hk => ?_, ?_, fun k => ?_, ?_⟩
  · -- Up to where it stood, the piece itself, and what was drained.
    by_cases heq : k = next + 1
    · rw [heq, Function.update_self]
      exact Option.some_ne_none _
    · rw [hother k heq]
      by_cases hold : k ≤ next
      · exact h.filled k hlt hold
      · rw [← hbuffer k (by omega)]
        exact ((hget k (by omega)).1 hk).1
  · -- `drain` stops at the first number the buffer does not hold.
    rw [hother _ (by omega), ← hbuffer _ (by omega), ← (hget _ (by omega)).2 (Nat.lt_succ_self _)]
    exact hstops
  · -- Behind the front nothing was popped; up to it everything is gone.
    by_cases hk : r.1 < k
    · rw [if_pos hk, hother k (by omega), (hget k (by omega)).2 hk]
      exact hbuffer k (by omega)
    · rw [if_neg hk]
      by_cases hold : k ≤ next + 1
      · refine hadds k ?_
        rw [h.buffer]
        by_cases heq : next < k
        · rw [if_pos heq, show k = next + 1 by omega]
          exact h.stuck
        · rw [if_neg heq]
      · exact ((hget k (by omega)).1 (by omega)).2
  · -- What was given out, then the piece, then the drained stretch.
    rw [hout, stretch_append _ start next r.1 h.le (by omega),
      stretch_succ_left _ next r.1 (by omega), Function.update_self, Option.getD_some, h.out]
    · refine congrArg (· ++ _) (stretch_congr _ _ _ _ (fun k _ hk => ?_))
      rw [hother k (by omega)]
    · intro k x hx
      have hk : next < k := by
        by_contra hnot
        rw [h.buffer, if_neg hnot] at hx
        simp only [reduceCtorEq] at hx
      have hne : k ≠ next + 1 := by
        rintro rfl
        rw [h.buffer, if_pos hk, h.stuck] at hx
        simp only [reduceCtorEq] at hx
      rw [hbuffer k (by omega)] at hx
      rw [hother k hne, hx, Option.getD_some]

end Gathered

/-- The numbers of a list of pieces ascend. -/
def Ascending (items : List (Nat × List α)) : Prop := items.Pairwise (fun i j => i.1 < j.1)

/-- What a list of pieces holds under a number. -/
def content (items : List (Nat × List α)) (n : Nat) : List α :=
  (items.filter (fun i => i.1 = n)).flatMap Prod.snd

/-- What a list of pieces holds up to a number. -/
def upTo (items : List (Nat × List α)) (n : Int) : List α :=
  (items.filter (fun i => (i.1 : Int) ≤ n)).flatMap Prod.snd

/-- Later pieces do not count. -/
theorem upTo_eq_nil (items : List (Nat × List α)) (n : Int)
    (hlater : ∀ i ∈ items, n < i.1) : upTo items n = [] := by
  have hnone : items.filter (fun i => (i.1 : Int) ≤ n) = [] := by
    rw [List.filter_eq_nil_iff]
    intro i hi
    have hlt := hlater i hi
    simp only [decide_eq_true_eq]
    omega
  rw [upTo, hnone, List.flatMap_nil]

theorem content_eq_nil (items : List (Nat × List α)) (n : Nat) (hnone : ∀ i ∈ items, i.1 ≠ n) :
    content items n = [] := by
  have hfilter : items.filter (fun i => i.1 = n) = [] := by
    rw [List.filter_eq_nil_iff]
    intro i hi
    simp only [decide_eq_true_eq]
    exact hnone i hi
  rw [content, hfilter, List.flatMap_nil]

theorem upTo_cons (i : Nat × List α) (items : List (Nat × List α)) (n : Int) :
    upTo (i :: items) n = if (i.1 : Int) ≤ n then i.2 ++ upTo items n else upTo items n := by
  unfold upTo
  rw [List.filter_cons]
  by_cases h : (i.1 : Int) ≤ n
  · rw [if_pos (decide_eq_true h), if_pos h, List.flatMap_cons]
  · rw [if_neg (by simpa only [decide_eq_true_eq] using h), if_neg h]

theorem content_cons (i : Nat × List α) (items : List (Nat × List α)) (n : Nat) :
    content (i :: items) n = if i.1 = n then i.2 ++ content items n else content items n := by
  unfold content
  rw [List.filter_cons]
  by_cases h : i.1 = n
  · rw [if_pos (decide_eq_true h), if_pos h, List.flatMap_cons]
  · rw [if_neg (by simpa only [decide_eq_true_eq] using h), if_neg h]

/-- If none is later, they are all there. -/
theorem upTo_all (items : List (Nat × List α)) (n : Int) (hall : ∀ i ∈ items, (i.1 : Int) ≤ n) :
    upTo items n = items.flatMap Prod.snd := by
  have hfilter : items.filter (fun i => (i.1 : Int) ≤ n) = items := by
    rw [List.filter_eq_self]
    intro i hi
    simp only [decide_eq_true_eq]
    exact hall i hi
  rw [upTo, hfilter]

/-- Pieces that come later do not change what there was up to a number. -/
theorem upTo_append (items later : List (Nat × List α)) (n : Int)
    (hlater : ∀ i ∈ later, n < i.1) : upTo (items ++ later) n = upTo items n := by
  have hnil := upTo_eq_nil later n hlater
  unfold upTo at hnil ⊢
  rw [List.filter_append, List.flatMap_append, hnil, List.append_nil]

/-- No number is used twice. -/
theorem Ascending.nodup {items : List (Nat × List α)} (hasc : Ascending items) :
    (items.map Prod.fst).Nodup :=
  List.pairwise_map.mpr (List.Pairwise.imp (fun h => Nat.ne_of_lt h) hasc)

/-- A piece with a larger number than all others goes last. -/
theorem ascending_concat (items : List (Nat × List α)) (n : Nat) (x : List α)
    (hasc : Ascending items) (hlast : ∀ i ∈ items, i.1 < n) : Ascending (items ++ [(n, x)]) := by
  refine List.pairwise_append.mpr ⟨hasc, List.pairwise_singleton _ _, fun i hi j hj => ?_⟩
  rw [List.mem_singleton] at hj
  rw [hj]
  exact hlast i hi

/-- The pieces up to a number come first. -/
theorem upTo_prefix (items : List (Nat × List α)) (n : Int) (hasc : Ascending items) :
    upTo items n <+: items.flatMap Prod.snd := by
  induction items with
  | nil => exact List.prefix_rfl
  | cons i items ih =>
      rcases List.pairwise_cons.mp hasc with ⟨hfirst, hrest⟩
      rw [upTo_cons, List.flatMap_cons]
      by_cases h : (i.1 : Int) ≤ n
      · rw [if_pos h]
        exact (List.prefix_append_right_inj i.2).mpr (ih hrest)
      · -- Everything behind a late piece is late.
        rw [if_neg h, upTo_eq_nil items n (fun j hj => by have := hfirst j hj; omega)]
        exact List.nil_prefix

/-- One more number is one more piece. -/
theorem upTo_step (items : List (Nat × List α)) (n : Nat) (hasc : Ascending items) :
    upTo items n = upTo items ((n : Int) - 1) ++ content items n := by
  induction items with
  | nil => rfl
  | cons i items ih =>
      rcases List.pairwise_cons.mp hasc with ⟨hfirst, hrest⟩
      rw [upTo_cons, upTo_cons, content_cons]
      rcases Nat.lt_trichotomy i.1 n with hlt | heq | hgt
      · -- Below the number: on both sides of the equation.
        rw [if_pos (by omega), if_pos (by omega), if_neg (by omega), ih hrest, List.append_assoc]
      · -- The number itself: nothing behind it counts any more.
        have hnil := upTo_eq_nil items ((n : Int) - 1)
          (fun j hj => by have := hfirst j hj; omega)
        rw [if_pos (by omega), if_neg (by omega), if_pos heq, hnil, List.nil_append, ih hrest,
          hnil, List.nil_append]
      · -- Above the number: on neither side.
        rw [if_neg (by omega), if_neg (by omega), if_neg (by omega), ih hrest]

/-- The pieces up to a later number are reached by a stretch. -/
theorem upTo_stretch (items : List (Nat × List α)) (n m : Nat) (hasc : Ascending items)
    (hle : n ≤ m) : upTo items m = upTo items n ++ stretch (content items) n m := by
  induction hle with
  | refl => rw [stretch_self, List.append_nil]
  | @step m hm ih =>
      have hprev : ((m + 1 : Nat) : Int) - 1 = m := by omega
      rw [upTo_step items (m + 1) hasc, hprev, ih,
        stretch_append _ n m (m + 1) hm (Nat.le_succ m),
        stretch_succ_left _ m (m + 1) (Nat.lt_succ_self m), stretch_self, List.append_nil,
        List.append_assoc]

/-- Under its own number there is only the piece itself. -/
theorem content_of_mem (items : List (Nat × List α)) (n : Nat) (piece : List α)
    (hasc : Ascending items) (hmem : (n, piece) ∈ items) : content items n = piece := by
  induction items with
  | nil => simp only [List.not_mem_nil] at hmem
  | cons i items ih =>
      rcases List.pairwise_cons.mp hasc with ⟨hfirst, hrest⟩
      rw [content_cons]
      rcases List.mem_cons.mp hmem with rfl | hmem
      · have hnil := content_eq_nil items n (fun j hj => by
          have hlt : n < j.1 := hfirst j hj
          omega)
        rw [if_pos rfl, hnil, List.append_nil]
      · have hlt : i.1 < n := hfirst _ hmem
        rw [if_neg (by omega)]
        exact ih hrest hmem

/-- A receiver that has delivered everything below a piece has, once the piece
    is there and the buffer is drained, delivered everything up to where the
    drain stops. -/
theorem drain_upTo (items : List (Nat × List α)) (fuel n : Nat) (buffer : Dict Nat (List α))
    (piece : List α) (hasc : Ascending items) (hmem : (n, piece) ∈ items)
    (hbuf : ∀ k x, buffer.get? k = some x → (k, x) ∈ items) :
    upTo items ((n : Int) - 1) ++ (drain fuel n buffer piece).2.2
      = upTo items (drain fuel n buffer piece).1 := by
  -- Under each number there is only one piece, so the list is a source.
  have hagree : ∀ k x, buffer.get? k = some x → x = content items k := fun k x hx =>
    (content_of_mem items k x hasc (hbuf k x hx)).symm
  rw [drain_out (content items) fuel n buffer piece hagree,
    upTo_stretch items n _ hasc (drain_le fuel n buffer piece), upTo_step items n hasc,
    content_of_mem items n piece hasc hmem, List.append_assoc]

/-- One step of writing a list as stretches: extend the current one by its
    successor, or close it and open another. -/
def blocksFrom : Nat × Nat → List Nat → List (Nat × Nat)
  | block, [] => [block]
  | (left, right), n :: ns =>
    if n = right + 1 then blocksFrom (left, n) ns
    else (left, right) :: blocksFrom (n, n) ns

/-- The contiguous stretches of a list of numbers. -/
def blocks : List Nat → List (Nat × Nat)
  | [] => []
  | n :: ns => blocksFrom (n, n) ns

theorem mem_blocksFrom (left right : Nat) (hle : left ≤ right) (ns : List Nat) (k : Nat) :
    (∃ b ∈ blocksFrom (left, right) ns, b.1 ≤ k ∧ k ≤ b.2) ↔
      (left ≤ k ∧ k ≤ right) ∨ k ∈ ns := by
  induction ns generalizing left right with
  | nil => simp only [blocksFrom, List.mem_singleton, exists_eq_left, List.not_mem_nil, or_false]
  | cons n ns ih =>
      unfold blocksFrom
      by_cases hn : n = right + 1
      · -- The stretch grows by its successor.
        rw [if_pos hn, ih left n (by omega), List.mem_cons]
        constructor
        · rintro (h | h)
          · by_cases hk : k = n
            · exact Or.inr (Or.inl hk)
            · exact Or.inl (by omega)
          · exact Or.inr (Or.inr h)
        · rintro (h | h | h)
          · exact Or.inl (by omega)
          · exact Or.inl (by omega)
          · exact Or.inr h
      · -- The stretch is closed and a new one opened.
        rw [if_neg hn]
        simp only [List.mem_cons, exists_eq_or_imp]
        rw [ih n n (Nat.le_refl _)]
        constructor
        · rintro (h | h | h)
          · exact Or.inl h
          · exact Or.inr (Or.inl (by omega))
          · exact Or.inr (Or.inr h)
        · rintro (h | h | h)
          · exact Or.inl h
          · exact Or.inr (Or.inl (by omega))
          · exact Or.inr (Or.inr h)

/-- The stretches cover exactly the list. -/
theorem mem_blocks (ns : List Nat) (k : Nat) :
    (∃ b ∈ blocks ns, b.1 ≤ k ∧ k ≤ b.2) ↔ k ∈ ns := by
  cases ns with
  | nil => simp only [blocks, List.not_mem_nil, false_and, exists_false]
  | cons n ns =>
      unfold blocks
      rw [mem_blocksFrom n n (Nat.le_refl _), List.mem_cons]
      constructor
      · rintro (h | h)
        · exact Or.inl (by omega)
        · exact Or.inr h
      · rintro (h | h)
        · exact Or.inl (by omega)
        · exact Or.inr h

theorem blocksFrom_spaced (left right : Nat) (hle : left ≤ right) (ns : List Nat)
    (hsorted : (right :: ns).Pairwise (· < ·)) :
    (blocksFrom (left, right) ns).Pairwise (fun a b => a.2 + 1 < b.1) ∧
      ∀ b ∈ blocksFrom (left, right) ns, left ≤ b.1 ∧ b.1 ≤ b.2 := by
  induction ns generalizing left right with
  | nil =>
      refine ⟨List.pairwise_singleton _ _, fun b hb => ?_⟩
      rw [blocksFrom, List.mem_singleton] at hb
      rw [hb]
      exact ⟨Nat.le_refl _, hle⟩
  | cons n ns ih =>
      rcases List.pairwise_cons.mp hsorted with ⟨hfirst, hrest⟩
      have hlt := hfirst n List.mem_cons_self
      unfold blocksFrom
      by_cases hn : n = right + 1
      · rw [if_pos hn]
        exact ih left n (by omega) hrest
      · -- The next number leaves a gap, and whatever is opened later starts behind it.
        rw [if_neg hn]
        rcases ih n n (Nat.le_refl _) hrest with ⟨hspaced, hends⟩
        refine ⟨List.pairwise_cons.mpr ⟨fun b hb => ?_, hspaced⟩, fun b hb => ?_⟩
        · have hb' := hends b hb
          show right + 1 < b.1
          omega
        · rcases List.mem_cons.mp hb with rfl | hb
          · exact ⟨Nat.le_refl _, hle⟩
          · have hb' := hends b hb
            omega

/-- The stretches of an ascending list ascend and have gaps between them. -/
theorem blocks_spaced (ns : List Nat) (hsorted : ns.Pairwise (· < ·)) :
    (blocks ns).Pairwise (fun a b => a.2 + 1 < b.1) ∧ ∀ b ∈ blocks ns, b.1 ≤ b.2 := by
  cases ns with
  | nil => exact ⟨List.Pairwise.nil, fun b hb => absurd hb List.not_mem_nil⟩
  | cons n ns =>
      rcases blocksFrom_spaced n n (Nat.le_refl _) ns hsorted with ⟨hspaced, hends⟩
      exact ⟨hspaced, fun b hb => (hends b hb).2⟩

/-- Both ends of a stretch are in the list. -/
theorem mem_of_mem_blocks (ns : List Nat) (b : Nat × Nat) (hb : b ∈ blocks ns)
    (hle : b.1 ≤ b.2) : b.1 ∈ ns ∧ b.2 ∈ ns :=
  ⟨(mem_blocks ns b.1).mp ⟨b, hb, Nat.le_refl _, hle⟩,
    (mem_blocks ns b.2).mp ⟨b, hb, hle, Nat.le_refl _⟩⟩

/-- How many stretches a set has: each one has a last number. -/
def runEnds (s : Finset Nat) : Nat := (s.filter (fun n => n + 1 ∉ s)).card

theorem length_blocksFrom (left right : Nat) (ns : List Nat)
    (hsorted : (right :: ns).Pairwise (· < ·)) :
    (blocksFrom (left, right) ns).length
      = (right :: ns).countP (fun n => n + 1 ∉ right :: ns) := by
  induction ns generalizing left right with
  | nil =>
      simp only [blocksFrom, List.length_singleton, List.countP_singleton, List.mem_singleton,
        Nat.add_eq_left, Nat.one_ne_zero, not_false_eq_true, decide_true, if_true]
  | cons n ns ih =>
      rcases List.pairwise_cons.mp hsorted with ⟨hfirst, hrest⟩
      have hlt := hfirst n List.mem_cons_self
      -- No number of the rest is followed by the one in front.
      have hcount : (n :: ns).countP (fun k => k + 1 ∉ right :: n :: ns)
          = (n :: ns).countP (fun k => k + 1 ∉ n :: ns) := by
        refine List.countP_congr (fun k hk => ?_)
        have hk' := hfirst k hk
        simp only [decide_eq_true_eq, List.mem_cons, show k + 1 ≠ right by omega, false_or]
      rw [List.countP_cons, hcount]
      unfold blocksFrom
      by_cases hn : n = right + 1
      · rw [if_pos hn, ih left n hrest]
        simp only [hn, List.mem_cons, true_or, or_true, not_true_eq_false, decide_false,
          Bool.false_eq_true, if_false, Nat.add_zero]
      · have hgap : right + 1 ∉ right :: n :: ns := by
          rw [List.mem_cons, not_or]
          refine ⟨by omega, fun hmem => ?_⟩
          rcases List.mem_cons.mp hmem with heq | hmem
          · exact hn heq.symm
          · have hbehind := (List.pairwise_cons.mp hrest).1 _ hmem
            omega
        rw [if_neg hn, List.length_cons, ih n n hrest]
        simp only [hgap, not_false_eq_true, decide_true, if_true]

/-- An ascending list has as many stretches as the set of its numbers. -/
theorem length_blocks (ns : List Nat) (hsorted : ns.Pairwise (· < ·)) :
    (blocks ns).length = runEnds ns.toFinset := by
  have hnodup : ns.Nodup := hsorted.imp (fun h => Nat.ne_of_lt h)
  have hends : runEnds ns.toFinset = ns.countP (fun n => n + 1 ∉ ns) := by
    have hset : ns.toFinset.filter (fun n => n + 1 ∉ ns.toFinset)
        = (ns.filter (fun n => n + 1 ∉ ns)).toFinset := by
      simp only [List.toFinset_filter, List.mem_toFinset, decide_eq_true_eq]
    rw [runEnds, hset, List.toFinset_card_of_nodup (hnodup.filter _),
      List.countP_eq_length_filter]
  rw [hends]
  cases ns with
  | nil => rfl
  | cons n ns => exact length_blocksFrom n n ns hsorted

/-- A set that keeps whole ends of stretches has no more of them. -/
theorem runEnds_mono (s t : Finset Nat) (hsub : s ⊆ t) (hnext : ∀ n ∈ s, n + 1 ∈ t → n + 1 ∈ s) :
    runEnds s ≤ runEnds t := by
  refine Finset.card_le_card (fun n hn => ?_)
  rcases Finset.mem_filter.mp hn with ⟨hmem, hend⟩
  exact Finset.mem_filter.mpr ⟨hsub hmem, fun ht => hend (hnext n hmem ht)⟩

end Ztlnp
