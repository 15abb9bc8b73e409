import Ztlnp.Theory.Frames

/-!
# The Bound of the Receive Buffer

The notes on the protocol bound the receive window as they do the send window.

No line of the code does. A packet beyond the next number is buffered whatever
it is, so a peer that leaves out one number and goes on sending fills the
buffer as long as it likes. What is held is also what a frame has to describe,
and a frame has two octets for the number of its blocks. A peer that leaves out
every other number makes a block of every packet, and at the 65536th the frame
cannot be encoded.

Only a packet that comes early adds to the buffer. A packet in turn takes whole
stretches out of it. So both bounds hold throughout a run exactly when every
early packet finds room.

## Main definitions

* `Channel.backlog`: The numbers that are buffered.
* `Channel.Bounded`: The buffer is within the window, and its frame can be
  encoded.
* `Channel.RoomFor`: There is room for an early packet.
* `ChannelEnd.HasRoom`: There is room for what an act receives.

## Theorems

* `length_buildSack_blocks`: A frame has a block for every stretch.
* `bounded_iff`: The two bounds in numbers.
* `roomFor_of_narrow`: In a narrow window, room in the window is enough.
* `accept_bounded_iff`: When a packet leaves the buffer within its bounds.
* `receive_buffer_bounded_iff`: When a run does.
-/

namespace Ztlnp

variable {C : Primitives}

namespace Channel

/-- The numbers that are buffered. -/
def backlog (c : Channel) : Finset Nat := c.recvBuffer.keys.toFinset

theorem mem_backlog (c : Channel) (k : Nat) : k ∈ c.backlog ↔ c.recvBuffer.get? k ≠ none := by
  rw [backlog, List.mem_toFinset, Dict.mem_keys, Option.ne_none_iff_exists']

theorem card_backlog (c : Channel) : c.backlog.card = c.recvBuffer.size := by
  have hnodup : c.recvBuffer.keys.Nodup := c.recvBuffer.nodup
  rw [backlog, List.toFinset_card_of_nodup hnodup, Dict.keys, Dict.size, List.length_map]

/-- A frame has a block for every stretch of what is buffered. -/
theorem length_buildSack_blocks (c : Channel) :
    c.buildSack.blocks.length = runEnds c.backlog := by
  have hset : (c.recvBuffer.keys.insertionSort (· ≤ ·)).toFinset = c.backlog :=
    List.toFinset_eq_of_perm _ _ (List.perm_insertionSort _ _)
  rw [← hset]
  exact length_blocks _ c.sorted_keys

/-- No more is buffered than the window is wide, and the frame that says so can
    be encoded. -/
structure Bounded (c : Channel) : Prop where
  size : c.recvBuffer.size ≤ c.windowSize
  encodes : ∃ wire, c.buildSack.encode = .ok wire

/-- The bounds on a receiver are a bound on what is buffered and one on its
    stretches. -/
theorem bounded_iff (c : Channel) (h : c.Framed) :
    c.Bounded ↔ c.backlog.card ≤ c.windowSize ∧ runEnds c.backlog < 256 ^ 2 := by
  have hencodes : (∃ wire, c.buildSack.encode = .ok wire) ↔ runEnds c.backlog < 256 ^ 2 := by
    simp only [SackFrame.encode_eq_ok, exists_and_left, exists_eq, and_true]
    rw [c.buildSack_fits_iff h, c.length_buildSack_blocks]
  rw [c.card_backlog, ← hencodes]
  exact ⟨fun hb => ⟨hb.size, hb.encodes⟩, fun hb => ⟨hb.1, hb.2⟩⟩

/-- A packet that comes early finds room in the window, unless it is held
    already, and with it there are not too many stretches for a frame. -/
def RoomFor (c : Channel) (n : Nat) : Prop :=
  0 ≤ c.recvNext ∧ c.recvNext + 1 < n →
    (n ∉ c.backlog → c.recvBuffer.size < c.windowSize) ∧
      runEnds (insert n c.backlog) < 2 ^ 16

instance (c : Channel) (n : Nat) : Decidable (c.RoomFor n) :=
  inferInstanceAs (Decidable (_ → _ ∧ _))

/-- In a window narrower than 65536 there are never too many stretches, so room in
    the window is enough. -/
theorem roomFor_of_narrow (c : Channel) (n : Nat) (h : c.Bounded)
    (hnarrow : c.windowSize < 2 ^ 16) :
    c.RoomFor n ↔
      (0 ≤ c.recvNext ∧ c.recvNext + 1 < n → n ∉ c.backlog → c.recvBuffer.size < c.windowSize) := by
  refine ⟨fun hroom hcame => (hroom hcame).1, fun hroom hcame => ⟨hroom hcame, ?_⟩⟩
  -- Every stretch ends in a number of its own.
  refine (Finset.card_filter_le _ _).trans_lt ?_
  have hsize := h.size
  by_cases hmem : n ∈ c.backlog
  · rw [Finset.insert_eq_of_mem hmem, card_backlog]
    omega
  · have hfree := hroom hcame hmem
    rw [Finset.card_insert_of_notMem hmem, card_backlog]
    omega

/-- A drain takes whole stretches out of the buffer. -/
theorem drained_backlog (c : Channel) (n : Nat) (x : Bytes) (h : c.Settled)
    (hturn : (n : Int) = c.counted n + 1) :
    (c.accept n x).2.backlog ⊆ c.backlog ∧
      ∀ k ∈ (c.accept n x).2.backlog, k + 1 ∈ c.backlog → k + 1 ∈ (c.accept n x).2.backlog := by
  have hsettled := accept_settled c n x h
  have hacc : c.accept n x = (some (drain c.recvBuffer.size n c.recvBuffer x).2.2,
      { c with
        recvNext := (drain c.recvBuffer.size n c.recvBuffer x).1
        recvBuffer := (drain c.recvBuffer.size n c.recvBuffer x).2.1 }) := by
    rcases accept_cases c n x with ⟨_, hacc⟩ | ⟨hearly, _⟩ | ⟨hlate, _⟩
    · exact hacc
    · omega
    · omega
  have hle := drain_le c.recvBuffer.size n c.recvBuffer x
  rw [hacc] at hsettled ⊢
  constructor
  · intro k hk
    exact List.mem_toFinset.mpr (drain_keys _ _ _ _ k (List.mem_toFinset.mp hk))
  · intro k hk hnext
    rw [mem_backlog] at hk hnext ⊢
    -- What is left lies behind the place where the drain stopped, and so does its successor.
    rcases Option.ne_none_iff_exists'.mp hk with ⟨y, hy⟩
    have hbehind := hsettled.buffered k y hy
    simp only at hbehind
    simp only
    rw [(drain_get? c.recvBuffer.size n c.recvBuffer x (k + 1) (by omega)).2 (by omega)]
    exact hnext

/-- When a packet leaves the buffer within its bounds. -/
theorem accept_bounded_iff (c : Channel) (n : Nat) (x : Bytes) (hf : c.Framed)
    (hn : n < 256 ^ 4) (h : c.Bounded) : (c.accept n x).2.Bounded ↔ c.RoomFor n := by
  rw [bounded_iff _ (c.accept_framed n x hf hn)]
  rcases (c.bounded_iff hf).mp h with ⟨hcard, hends⟩
  rcases accept_cases c n x with ⟨hturn, hacc⟩ | ⟨hearly, hacc⟩ | ⟨hlate, hacc⟩
  · -- In turn: the buffer does not grow.
    rcases c.drained_backlog n x hf.settled hturn with ⟨hsub, hnext⟩
    have hwidth : (c.accept n x).2.windowSize = c.windowSize := by
      rw [hacc]
    refine iff_of_true ⟨?_, ?_⟩ (fun hcame => ?_)
    · rw [hwidth]
      exact (Finset.card_le_card hsub).trans hcard
    · exact (runEnds_mono _ _ hsub hnext).trans_lt hends
    · rw [counted, if_neg (by omega)] at hturn
      omega
  · -- Early: one more number is held, unless it was already.
    rcases counted_of_ne c n (by omega) with ⟨hstarted, hcount⟩
    have hlower := hf.settled.lower
    have hset : (c.accept n x).2.backlog = insert n c.backlog := by
      ext k
      rw [hacc, Finset.mem_insert, mem_backlog, mem_backlog]
      simp only [Dict.get?_set]
      by_cases hk : k = n
      · simp only [hk, if_true, ne_eq, reduceCtorEq, not_false_eq_true, true_or]
      · simp only [hk, if_false, false_or]
    have hwidth : (c.accept n x).2.windowSize = c.windowSize := by
      rw [hacc]
    rw [hset, hwidth]
    rw [card_backlog] at hcard
    have hroom : (insert n c.backlog).card ≤ c.windowSize ↔
        (n ∉ c.backlog → c.recvBuffer.size < c.windowSize) := by
      by_cases hmem : n ∈ c.backlog
      · rw [Finset.insert_eq_of_mem hmem, card_backlog]
        exact iff_of_true hcard (fun hnot => absurd hmem hnot)
      · rw [Finset.card_insert_of_notMem hmem, card_backlog]
        exact ⟨fun hle _ => hle, fun hlt => hlt hmem⟩
    rw [hroom, RoomFor]
    exact ⟨fun hb _ => hb, fun hb => hb (by omega)⟩
  · -- Late: nothing is held.
    have hcount := (counted_of_ne c n (by omega)).2
    have hbuffer : (c.accept n x).2.backlog = c.backlog := by
      rw [hacc]
      rfl
    have hwidth : (c.accept n x).2.windowSize = c.windowSize := by
      rw [hacc]
    rw [hbuffer, hwidth]
    exact iff_of_true ⟨hcard, hends⟩ (fun hcame => by omega)

end Channel

namespace ChannelEnd

/-- There is room for a packet that is received. -/
def HasRoom (s : ChannelEnd C) : ChannelAct → Prop
  | .receive env raw => s.Takes env raw → s.channel.RoomFor (wireSequence raw)
  | _ => True

instance (s : ChannelEnd C) (a : ChannelAct) : Decidable (s.HasRoom a) :=
  match a with
  | .receive _ _ => inferInstanceAs (Decidable (_ → _))
  | .send _ _ _ => .isTrue trivial
  | .receiveAck _ _ => .isTrue trivial
  | .processSack _ => .isTrue trivial
  | .getRetransmissions _ _ => .isTrue trivial
  | .buildSackAck _ _ => .isTrue trivial

/-- When an act leaves the buffer within its bounds. -/
theorem step_bounded_iff (s : ChannelEnd C) (a : ChannelAct) (hf : s.channel.Framed)
    (h : s.channel.Bounded) : (s.step a).channel.Bounded ↔ s.HasRoom a := by
  rcases step_receives s a with ⟨hrecv, hbuf, hwidth, hnot⟩ | ⟨env, raw, x, rfl, htakes, _, hacc⟩
  · refine iff_of_true ⟨?_, ?_⟩ ?_
    · rw [hbuf, hwidth]
      exact h.size
    · rw [Channel.buildSack_congr _ s.channel hrecv (fun k => by rw [hbuf])]
      exact h.encodes
    · cases a with
      | receive env raw => exact fun htakes => absurd htakes (hnot env raw rfl)
      | _ => trivial
  · rw [hacc, Channel.accept_bounded_iff _ _ x hf (wireSequence_lt raw) h]
    exact ⟨fun hroom _ => hroom, fun hroom => hroom htakes⟩

/-- The frame that is returned is the one of the channel afterwards. -/
theorem receive_frame (s s' : ChannelEnd C) (env : Env) (raw : Bytes)
    (out : Option Bytes × SackFrame) (hrun : (receive env raw).run s = .ok out s') :
    out.2 = s'.channel.buildSack := by
  have hout := receive_outcome env raw s
  rw [hrun] at hout
  cases hout with
  | accepted p d plaintext _ _ => rfl

end ChannelEnd

/-- A frame that `receive` returns is the one of the channel afterwards. From a
    new channel on, the buffer is within the window and its frame can be
    encoded, in every state of a run, exactly when every packet that is received
    early finds room in the window and leaves fewer than 65536 stretches. -/
theorem receive_buffer_bounded_iff (s : ChannelEnd C) (hs : s.channel.Fresh)
    (acts : List ChannelAct) :
    (Along ChannelEnd.step ChannelEnd.HasRoom s acts ↔
      ∀ k, ((acts.take k).foldl ChannelEnd.step s).channel.Bounded) ∧
    ∀ (t t' : ChannelEnd C) (env : Env) (raw : Bytes) (out : Option Bytes × SackFrame),
      (ChannelEnd.receive env raw).run t = .ok out t' → out.2 = t'.channel.buildSack := by
  have hframed := ChannelEnd.fresh_framed s.channel hs
  have hbounded : s.channel.Bounded := by
    have hnone : s.channel.backlog = ∅ := by
      rw [Channel.backlog, hs.recvBuffer]
      rfl
    rw [Channel.bounded_iff _ hframed, hnone]
    exact ⟨Nat.zero_le _, by decide⟩
  exact ⟨along_iff_forall_take (fun t => t.channel.Framed) (fun t => t.channel.Bounded)
    (fun t a ht => ChannelEnd.step_framed t a ht)
    (fun t a ht hb => ChannelEnd.step_bounded_iff t a ht hb) s acts hframed hbounded,
    ChannelEnd.receive_frame⟩

/-- Four messages, as they are sent. -/
@[irreducible]
def fourMessages : List Bytes :=
  ([.send toyEnv 0 [1], .send toyEnv 0 [2], .send toyEnv 0 [3], .send toyEnv 0 [4]].foldl Link.step
    (Link.opened (toyEnds {}).1 (toyEnds {}).2)).wires

/-- Some of them arrive, in some order. -/
def arrivals (order : List Nat) : List ChannelAct :=
  order.map (fun i => .receive toyEnv (fourMessages.getD i []))

/-- A window of one has room for the third message while the second is missing. -/
theorem one_early_bounded :
    let s := ((arrivals [0, 2, 1]).take 2).foldl ChannelEnd.step (toyEnds { windowSize := 1 }).2
    s.channel.recvBuffer.keys = [3] ∧ s.channel.Bounded := by
  have hrun : (((arrivals [0, 2, 1]).take 2).foldl ChannelEnd.step
        (toyEnds { windowSize := 1 }).2).channel.recvBuffer.keys = [3] ∧
      Along ChannelEnd.step ChannelEnd.HasRoom (toyEnds { windowSize := 1 }).2
        (arrivals [0, 2, 1]) := by
    decide +kernel
  exact ⟨hrun.1, (receive_buffer_bounded_iff (toyEnds { windowSize := 1 }).2 ⟨rfl, rfl, rfl⟩
    (arrivals [0, 2, 1])).1.mp hrun.2 2⟩

/-- It has none for the fourth, and takes it all the same. -/
theorem two_early_unbounded :
    let s := (arrivals [0, 2, 3]).foldl ChannelEnd.step (toyEnds { windowSize := 1 }).2
    s.channel.recvBuffer.keys = [3, 4] ∧ ¬ s.channel.recvBuffer.size ≤ s.channel.windowSize := by
  decide +kernel

end Ztlnp
