import Ztlnp.Theory.Base

/-!
# The Range of the Send Window

The notes on the protocol give the send window as a range of numbers that
starts at its base and is as long as the window is wide.

The channel does not look at the range. It lets a packet in as long as fewer
packets than the width are in flight, and the packet gets whatever number the
session hands out. The two agree while numbers leave the window from below and
only the channel draws them. A selective acknowledgement makes room above a
packet that is still missing, other packets of the session use up numbers, and
a packet that is given up leaves the base behind. In all three cases the next
number may lie beyond the range.

Acknowledgements and polls never take the window out of its range, and neither
does the first packet of an empty window. So the range is kept throughout a
run exactly when every other packet gets a number inside of it.

## Main definitions

* `Channel.Spans`: The numbers in the window lie in its range.
* `Bench.Within`: The number a send will get lies in the range.

## Theorems

* `processSack_spans`: Acknowledgements keep the range.
* `enqueued_spans_iff`: When a send does.
* `stepped_spans_iff`: When an act does.
* `send_window_spans_iff`: When a run does.
-/

namespace Ztlnp

variable {C : Primitives}

namespace Channel

/-- Every number in the window lies in the range that starts at its base. -/
def Spans (c : Channel) : Prop :=
  ∀ n ∈ c.sendWindow.keys, c.sendBase ≤ n ∧ n < c.sendBase + c.windowSize

instance (c : Channel) : Decidable c.Spans := inferInstanceAs (Decidable (∀ n ∈ _, _))

/-- An acknowledgement removes numbers, and the base goes up to the least of
    those that are left. -/
theorem processSack_spans (c : Channel) (sack : SackFrame) (h : c.Spans) :
    (c.processSack sack).1.Spans := by
  intro n hn
  rcases c.processSack_based sack (List.ne_nil_of_mem hn) with ⟨hmem, hleast⟩
  -- The least number that is left was there before, so the base has not gone down.
  have hbase := h _ ((c.mem_processSack sack _).mp hmem).1
  have hold := h n ((c.mem_processSack sack n).mp hn).1
  have hle := hleast n hn
  have hwidth : (c.processSack sack).1.windowSize = c.windowSize := rfl
  rw [hwidth]
  omega

/-- A packet that gets a number above all others in the window keeps it in its
    range, if it is the only one or its number lies inside. -/
theorem enqueued_spans_iff (c : Channel) (n : Nat) (wire : Bytes) (now : Rat) (h : c.Spans)
    (hroom : c.canSend = true) (hnew : c.sendWindow.get? n = none)
    (habove : ∀ k ∈ c.sendWindow.keys, k < n) :
    (c.enqueued n wire now).Spans ↔
      (c.sendWindow.size ≠ 0 → n < c.sendBase + c.windowSize) := by
  have hbase := c.enqueued_sendBase n wire now hnew
  have hwidth : (c.enqueued n wire now).windowSize = c.windowSize := rfl
  have hwide : c.sendWindow.size < c.windowSize := of_decide_eq_true hroom
  rw [ne_eq, ← Dict.keys_eq_nil, Spans, hbase, hwidth]
  by_cases hempty : c.sendWindow.keys = []
  · -- The base moves to the only packet there is.
    refine iff_of_true (fun k hk => ?_) (fun hne => absurd hempty hne)
    rw [if_pos hempty]
    rcases (c.mem_enqueued n wire now k).mp hk with rfl | hk
    · omega
    · rw [hempty] at hk
      exact absurd hk List.not_mem_nil
  · -- The base stays, below a number that is already there.
    rw [if_neg hempty]
    constructor
    · intro hspans _
      exact (hspans n ((c.mem_enqueued n wire now n).mpr (Or.inl rfl))).2
    · intro hlt k hk
      rcases (c.mem_enqueued n wire now k).mp hk with rfl | hk
      · rcases List.exists_mem_of_ne_nil _ hempty with ⟨j, hj⟩
        have hj' := h j hj
        have hjk := habove j hj
        have hk' := hlt hempty
        omega
      · exact h k hk

end Channel

namespace Bench

/-- A packet that can be built and enters a window that is not empty will get a
    number in the range. -/
def Within (b : Bench C) : BenchAct → Prop
  | .send env _ plaintext => b.sliding.canSend = true ∧ b.builds env plaintext = true →
      b.sliding.sendWindow.size ≠ 0 → b.next < b.sliding.sendBase + b.sliding.windowSize
  | _ => True

instance (b : Bench C) (a : BenchAct) : Decidable (b.Within a) :=
  match a with
  | .send _ _ _ => inferInstanceAs (Decidable (_ → _ → _))
  | .build _ _ => .isTrue trivial
  | .maybeSend _ _ _ => .isTrue trivial
  | .sendReliable _ _ _ => .isTrue trivial
  | .processSack _ => .isTrue trivial
  | .processAck _ => .isTrue trivial
  | .poll _ _ => .isTrue trivial
  | .pollReliable _ _ => .isTrue trivial

/-- A poll removes numbers and leaves the base where it is. -/
theorem polled_spans (b : Bench C) (due sent : Nat → Rat) (h : b.sliding.Spans) :
    (b.polled due sent).Spans := by
  intro n hn
  exact h n ((b.mem_polled due sent n).mp hn).1

/-- When an act keeps the window in its range. -/
theorem stepped_spans_iff (b b' : Bench C) (a : BenchAct) (hs : b.Sound) (h : b.sliding.Spans)
    (hstep : b.Stepped a b') : b'.sliding.Spans ↔ b.Within a := by
  cases hstep with
  | sent env now plaintext e wire hroom hbuilds hemit =>
      have hnumber := ((emission_numbers b e [wire] hemit).2 wire (List.mem_singleton_self _)).2.1
      simp only [hnumber]
      rw [b.sliding.enqueued_spans_iff b.next wire now h hroom hs.unused.1 hs.below_next]
      exact ⟨fun hlt _ => hlt, fun hlt => hlt ⟨hroom, hbuilds⟩⟩
  | held env now plaintext e hheld hemit =>
      exact iff_of_true h (fun hsent => absurd hsent hheld)
  | processed sack => exact iff_of_true (b.sliding.processSack_spans sack h) trivial
  | returned due sent hlost => exact iff_of_true (polled_spans b due sent h) trivial
  | raised due sent hlost => exact iff_of_true (polled_spans b due sent h) trivial
  | _ => exact iff_of_true h trivial

end Bench

/-- The numbers in the send window lie in its range, in every state of a run,
    exactly when every packet that enters a window with other packets in it gets
    a number in the range. -/
theorem send_window_spans_iff (e : Endpoint C) (c : Channel) (r : ReliableChannel)
    (cover : CoverTraffic) (hc : c.sendWindow = .empty) (hr : r.pending = .empty)
    (acts : List BenchAct) :
    Along Bench.step Bench.Within (Bench.opened e c r cover) acts ↔
      ∀ k, ((acts.take k).foldl Bench.step (Bench.opened e c r cover)).sliding.Spans := by
  have hempty : (Bench.opened e c r cover).sliding.Spans := by
    intro n hn
    rcases (Dict.mem_keys _ _).mp hn with ⟨w, hw⟩
    simp only [Bench.opened, hc, Dict.get?_empty, reduceCtorEq] at hw
  exact along_iff_forall_take Bench.Sound (fun b => b.sliding.Spans) Bench.step_sound
    (fun b a hs h => Bench.stepped_spans_iff b _ a hs h (Bench.step_stepped b a)) _ acts
    (Bench.opened_sound e c r cover hc hr) hempty

/-- Two packets fill a window, the first is acknowledged, and a third is sent. -/
@[irreducible]
def inOrder : List BenchAct :=
  [.send toyEnv 0 [1], .send toyEnv 0 [2], .processSack ⟨1, []⟩, .send toyEnv 0 [3]]

/-- The window has moved on by one. -/
theorem inOrder_spans :
    let b := (inOrder.take 4).foldl Bench.step (toyBench { windowSize := 2 } {})
    (b.sliding.sendWindow.keys = [2, 3] ∧ b.sliding.sendBase = 2) ∧ b.sliding.Spans := by
  have hrun : let b := (inOrder.take 4).foldl Bench.step (toyBench { windowSize := 2 } {})
      (b.sliding.sendWindow.keys = [2, 3] ∧ b.sliding.sendBase = 2) ∧
        Along Bench.step Bench.Within (toyBench { windowSize := 2 } {}) inOrder := by
    decide +kernel
  exact ⟨hrun.1, (send_window_spans_iff _ { windowSize := 2 } {} _ rfl rfl inOrder).mp hrun.2 4⟩

/-- Two packets fill a window, the second is acknowledged, and a third is sent. -/
@[irreducible]
def secondFirst : List BenchAct :=
  [.send toyEnv 0 [1], .send toyEnv 0 [2], .processSack ⟨0, [(2, 2)]⟩, .send toyEnv 0 [3]]

/-- The first and the third packet are too far apart. -/
theorem secondFirst_exceeds :
    let b := secondFirst.foldl Bench.step (toyBench { windowSize := 2 } {})
    b.sliding.sendWindow.keys = [1, 3] ∧ b.sliding.sendBase = 1 ∧ ¬ b.sliding.Spans := by
  decide +kernel

end Ztlnp
