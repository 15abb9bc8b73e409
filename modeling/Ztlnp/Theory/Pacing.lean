import Ztlnp.Lib.Backoff
import Ztlnp.Theory.Bench
import Mathlib.Algebra.Order.Field.Rat

/-!
# When Packets Are Sent Again

The waits of the two reliable channels between one attempt at a packet and the
next.

A record in flight keeps the time of its last attempt and the wait that governs
the next one. Both polls double the wait with every attempt, up to a cap, and
the configured base of the channel is never looked at again. So the wait of a
record is a function of its attempts, and the waits add up: the packet cannot
be handed out again, and cannot be given up, before all of them have passed
since `send` was called.

Other packets of the session, acknowledgements and polls that raise make no
difference. A poll reads the clock once to see whether a packet is due and once
more to start its timer again, and of these two readings the second must not be
the earlier one. Between calls the clock may run as it likes.

## Main definitions

* `Channel.pace`, `ReliableChannel.pace`: The waits of the channels.
* `Waits`: A packet is neither sent again nor given up too early.
* `Doubled`: A packet waits twice as long after every attempt, up to the cap.
* `BenchAct.Forward`: The clock does not run back inside a poll.
* `Timed`: A number in flight has kept its pace.

## Theorems

* `timed_swept`: A poll keeps the pace of a packet.
* `stepped_slidingPaced`, `stepped_reliablePaced`: So does every act, on either
  channel.
* `retransmissions_wait`: No packet of either channel is due before its waits
  are over.
-/

namespace Ztlnp

variable {C : Primitives}

/-- The waits of the sliding window, in milliseconds. -/
def Channel.pace (c : Channel) : Pace Rat := Pace.doubling c.baseMs c.maxMs

/-- The waits of the stop-and-wait channel. -/
def ReliableChannel.pace (r : ReliableChannel) : Pace Rat :=
  Pace.doubling r.baseTimeoutMs r.maxTimeoutMs

/-- A packet that was sent at a time waits as long as its attempts say, is due only
    after all its waits, and is out of attempts only after all there are. -/
structure Waits (p : Pace Rat) (maxRetries : Nat) (box : Dict Nat WindowedPacket) (n : Nat)
    (now : Rat) : Prop where
  timeout : ∀ w, box.get? n = some w → w.nextTimeoutMs = p.wait w.retries
  again : ∀ w t, box.get? n = some w → w.isDue t = true →
    now * 1000 + p.span (w.retries + 1) ≤ t * 1000
  lost : ∀ w t, box.get? n = some w → w.isDue t = true → maxRetries ≤ w.retries →
    now * 1000 + p.span (maxRetries + 1) ≤ t * 1000

/-- A packet waits for the first wait of its channel, as it is, and after a number of
    attempts for that power of two of it, up to the cap. -/
def Doubled (base cap : Rat) (box : Dict Nat WindowedPacket) (n : Nat) : Prop :=
  ∀ w, box.get? n = some w → (w.retries = 0 → w.nextTimeoutMs = base) ∧
    (0 < w.retries → 0 ≤ cap → w.nextTimeoutMs = min (base * 2 ^ w.retries) cap)

/-- A poll does not start a timer again at an earlier time than it found it due. -/
def BenchAct.Forward : BenchAct → Prop
  | .poll due sent => ∀ n, due n ≤ sent n
  | .pollReliable due sent => ∀ n, due n ≤ sent n
  | _ => True

theorem isDue_iff (w : WindowedPacket) (t : Rat) :
    w.isDue t = true ↔ w.sentAt * 1000 + w.nextTimeoutMs ≤ t * 1000 := by
  rw [WindowedPacket.isDue, decide_eq_true_eq, ge_iff_le, sub_mul, le_sub_iff_add_le, add_comm]

/-- If a number is in flight, its packet has kept its pace since it was sent. -/
def Timed (p : Pace Rat) (box : Dict Nat WindowedPacket) (n : Nat) (now : Rat) : Prop :=
  ∀ w, box.get? n = some w → Paced p (now * 1000) (w.sentAt * 1000) w.nextTimeoutMs w.retries

section Boxes

variable {p : Pace Rat} {box : Dict Nat WindowedPacket} {n : Nat} {now : Rat}

theorem Timed.waits (h : Timed p box n now) (maxRetries : Nat)
    (hlimit : ∀ w, box.get? n = some w → w.retries ≤ maxRetries) :
    Waits p maxRetries box n now := by
  have hagain : ∀ w t, box.get? n = some w → w.isDue t = true →
      now * 1000 + p.span (w.retries + 1) ≤ t * 1000 :=
    fun w t hw hdue => (h w hw).due_le ((isDue_iff w t).mp hdue)
  refine ⟨fun w hw => (h w hw).wait_eq, hagain, fun w t hw hdue hout => ?_⟩
  rw [← Nat.le_antisymm (hlimit w hw) hout]
  exact hagain w t hw hdue

theorem Waits.doubled {base cap : Rat} {maxRetries : Nat}
    (h : Waits (Pace.doubling base cap) maxRetries box n now) : Doubled base cap box n := by
  intro w hw
  rw [h.timeout w hw]
  cases w.retries with
  | zero => exact ⟨fun _ => rfl, fun hpos => absurd hpos (Nat.lt_irrefl 0)⟩
  | succ attempts =>
      exact ⟨fun hzero => absurd hzero (Nat.succ_ne_zero attempts),
        fun _ hcap => Pace.doubling_wait base cap hcap attempts⟩

/-- A packet that is put in flight begins its waits. -/
theorem timed_added (p : Pace Rat) (wire : Bytes) :
    Timed p (box.set n
      { sequence := n, packetBytes := wire, sentAt := now, nextTimeoutMs := p.base }) n now := by
  intro w hw
  rw [Dict.get?_set_self, Option.some.injEq] at hw
  rw [← hw]
  exact paced_new p _

/-- Packets that leave take nothing from the others. -/
theorem Timed.kept (h : Timed p box n now) (box' : Dict Nat WindowedPacket)
    (hkept : ∀ w, box'.get? n = some w → box.get? n = some w) : Timed p box' n now :=
  fun w hw => h w (hkept w hw)

/-- A poll either leaves a packet as it is, or finds it due and starts its timer
    again. -/
theorem timed_swept {base maxMs : Rat} (h : Timed (Pace.doubling base maxMs) box n now)
    (due sent : Nat → Rat) (maxRetries : Nat) (hclock : due n ≤ sent n) :
    Timed (Pace.doubling base maxMs) ((retryTimer due sent maxMs maxRetries).swept box) n now := by
  intro w hw
  rw [Timer.get?_swept] at hw
  by_cases hlost : n ∈ (retryTimer due sent maxMs maxRetries).lost box
  · rw [if_pos hlost] at hw
    simp only [reduceCtorEq] at hw
  · rw [if_neg hlost, Option.map_eq_some_iff] at hw
    rcases hw with ⟨w', hw', rfl⟩
    by_cases hover : (retryTimer due sent maxMs maxRetries).isOverdue n w' = true
    · rw [if_pos hover]
      rw [Timer.isOverdue, Bool.and_eq_true] at hover
      refine (h w' hw').again ((isDue_iff w' _).mp hover.1) ?_
      exact mul_le_mul_of_nonneg_right hclock (by norm_num)
    · rw [if_neg hover]
      exact h w' hw'

end Boxes

namespace Bench

/-- The sliding window has issued a number, and its packet has kept its pace. -/
def SlidingPaced (b : Bench C) (n : Nat) (now : Rat) : Prop :=
  (∃ wire, (n, wire) ∈ b.slidingAudit.issued) ∧
    Timed b.sliding.pace b.sliding.sendWindow n now

/-- So has the stop-and-wait channel. -/
def ReliablePaced (b : Bench C) (n : Nat) (now : Rat) : Prop :=
  (∃ wire, (n, wire) ∈ b.reliableAudit.issued) ∧
    Timed b.reliable.pace b.reliable.pending n now

variable {b b' : Bench C} {a : BenchAct} {n : Nat} {now : Rat}

/-- A packet that was just sent is at the beginning of its waits. -/
theorem sent_slidingPaced (env : Env) (plaintext wire : Bytes)
    (hstep : b.Stepped (.send env now plaintext) b')
    (hissued : b'.slidingAudit.issued = b.slidingAudit.issued ++ [(n, wire)]) :
    b'.SlidingPaced n now := by
  have hmem : (n, wire) ∈ b'.slidingAudit.issued := by
    rw [hissued]
    exact List.mem_append_right _ (List.mem_singleton_self _)
  cases hstep with
  | held env now plaintext e hheld hemit =>
      have hlength := congrArg List.length hissued
      simp only [List.length_append, List.length_singleton] at hlength
      omega
  | sent env now plaintext e wire' hroom hbuilds hemit =>
      have hlast := List.append_cancel_left hissued
      rw [List.cons.injEq, Prod.mk.injEq] at hlast
      refine ⟨⟨wire, hmem⟩, ?_⟩
      rw [← hlast.1.1]
      exact timed_added _ wire'

theorem sent_reliablePaced (env : Env) (plaintext wire : Bytes)
    (hstep : b.Stepped (.sendReliable env now plaintext) b')
    (hissued : b'.reliableAudit.issued = b.reliableAudit.issued ++ [(n, wire)]) :
    b'.ReliablePaced n now := by
  have hmem : (n, wire) ∈ b'.reliableAudit.issued := by
    rw [hissued]
    exact List.mem_append_right _ (List.mem_singleton_self _)
  cases hstep with
  | heldReliable env now plaintext e hemit =>
      have hlength := congrArg List.length hissued
      simp only [List.length_append, List.length_singleton] at hlength
      omega
  | sentReliable env now plaintext e wire' hemit =>
      have hlast := List.append_cancel_left hissued
      rw [List.cons.injEq, Prod.mk.injEq] at hlast
      refine ⟨⟨wire, hmem⟩, ?_⟩
      rw [← hlast.1.1]
      exact timed_added _ wire'

/-- Every act keeps the pace of a packet in the sliding window. A number that was
    issued is not issued again. -/
theorem stepped_slidingPaced (hs : b.Sound) (hstep : b.Stepped a b') (hclock : a.Forward)
    (h : b.SlidingPaced n now) : b'.SlidingPaced n now := by
  rcases h with ⟨⟨wire, hmem⟩, htimed⟩
  cases hstep with
  | sent env now' plaintext e wire' hroom hbuilds hemit =>
      have hnumber := ((emission_numbers b e [wire'] hemit).2 wire' (List.mem_singleton_self _)).2.1
      have hlt := hs.ordered.issued_lt _ hs.ordered.sliding _ hmem
      refine ⟨⟨wire, List.mem_append_left _ hmem⟩, htimed.kept _ (fun w hw => ?_)⟩
      simp only [Channel.enqueued, hnumber] at hw
      rw [Dict.get?_set_ne _ _ (Nat.ne_of_lt hlt)] at hw
      exact hw
  | processed sack =>
      exact ⟨⟨wire, hmem⟩, htimed.kept _ (fun w hw => b.sliding.processSack_kept sack n w hw)⟩
  | returned due sent hlost =>
      exact ⟨⟨wire, hmem⟩, timed_swept htimed due sent _ (hclock n)⟩
  | raised due sent hlost =>
      exact ⟨⟨wire, hmem⟩, timed_swept htimed due sent _ (hclock n)⟩
  | _ => exact ⟨⟨wire, hmem⟩, htimed⟩

theorem stepped_reliablePaced (hs : b.Sound) (hstep : b.Stepped a b') (hclock : a.Forward)
    (h : b.ReliablePaced n now) : b'.ReliablePaced n now := by
  rcases h with ⟨⟨wire, hmem⟩, htimed⟩
  cases hstep with
  -- A later packet has a later number, so the entry is not overwritten.
  | sentReliable env now' plaintext e wire' hemit =>
      have hnumber := ((emission_numbers b e [wire'] hemit).2 wire' (List.mem_singleton_self _)).2.1
      have hlt := hs.ordered.issued_lt _ hs.ordered.reliable _ hmem
      refine ⟨⟨wire, List.mem_append_left _ hmem⟩, htimed.kept _ (fun w hw => ?_)⟩
      simp only [ReliableChannel.enqueued, hnumber] at hw
      rw [Dict.get?_set_ne _ _ (Nat.ne_of_lt hlt)] at hw
      exact hw
  -- An acknowledgement takes the entry away or leaves it.
  | acknowledged k =>
      refine ⟨⟨wire, hmem⟩, htimed.kept _ (fun w hw => ?_)⟩
      simp only [step, ReliableChannel.processAck, Dict.get?_pop] at hw
      by_cases hk : n = k
      · rw [if_pos hk] at hw
        simp only [reduceCtorEq] at hw
      · rw [if_neg hk] at hw
        exact hw
  | returnedReliable due sent hlost =>
      exact ⟨⟨wire, hmem⟩, timed_swept htimed due sent _ (hclock n)⟩
  | raisedReliable due sent hlost =>
      exact ⟨⟨wire, hmem⟩, timed_swept htimed due sent _ (hclock n)⟩
  | _ => exact ⟨⟨wire, hmem⟩, htimed⟩

end Bench

/-- A packet of either channel is handed out again, and given up, no earlier than
    after all the waits before: the first one, which the cap does not bound, and
    then its powers of two up to the cap. This holds whatever happens on the session
    since `send` was called. -/
theorem retransmissions_wait (e : Endpoint C) (c : Channel) (r : ReliableChannel)
    (cover : CoverTraffic) (hc : c.sendWindow = .empty) (hr : r.pending = .empty)
    (before after : List BenchAct) (a : BenchAct) (hforward : ∀ act ∈ after, act.Forward) :
    let b₀ := before.foldl Bench.step (Bench.opened e c r cover)
    let b := after.foldl Bench.step (b₀.step a)
    (∀ env now plaintext n wire, a = .send env now plaintext →
      (b₀.step a).slidingAudit.issued = b₀.slidingAudit.issued ++ [(n, wire)] →
        Waits b.sliding.pace b.sliding.maxRetries b.sliding.sendWindow n now ∧
          Doubled b.sliding.baseMs b.sliding.maxMs b.sliding.sendWindow n) ∧
    ∀ env now plaintext n wire, a = .sendReliable env now plaintext →
      (b₀.step a).reliableAudit.issued = b₀.reliableAudit.issued ++ [(n, wire)] →
        Waits b.reliable.pace b.reliable.maxRetries b.reliable.pending n now ∧
          Doubled b.reliable.baseTimeoutMs b.reliable.maxTimeoutMs b.reliable.pending n := by
  intro b₀ b
  have hs₀ : b₀.Sound := Bench.run_sound e c r cover hc hr before
  have hs₁ := Bench.step_sound b₀ a hs₀
  have hs : b.Sound := along_invariant Bench.Sound (fun b a h _ => Bench.step_sound b a h) _ after
    hs₁ (along_true _ after)
  -- From the step that sent the packet on, every act lets the entry wait.
  have hafter : Along Bench.step _ (b₀.step a) after := along_of_forall _ _ hforward
  constructor
  · rintro env now plaintext n wire rfl hissued
    have hpaced := along_invariant (fun b => b.Sound ∧ Bench.SlidingPaced (C := C) b n now)
      (fun b a h ha => ⟨Bench.step_sound b a h.1,
        Bench.stepped_slidingPaced h.1 (Bench.step_stepped b a) ha h.2⟩) _ after
      ⟨hs₁, Bench.sent_slidingPaced env plaintext wire (Bench.step_stepped b₀ _) hissued⟩ hafter
    have hwaits := hpaced.2.2.waits _ (fun w hw => (hs.window.box n w hw).2)
    exact ⟨hwaits, hwaits.doubled⟩
  · rintro env now plaintext n wire rfl hissued
    have hpaced := along_invariant (fun b => b.Sound ∧ Bench.ReliablePaced (C := C) b n now)
      (fun b a h ha => ⟨Bench.step_sound b a h.1,
        Bench.stepped_reliablePaced h.1 (Bench.step_stepped b a) ha h.2⟩) _ after
      ⟨hs₁, Bench.sent_reliablePaced env plaintext wire (Bench.step_stepped b₀ _) hissued⟩ hafter
    have hwaits := hpaced.2.2.waits _ (fun w hw => (hs.pending.box n w hw).2)
    exact ⟨hwaits, hwaits.doubled⟩

/-- With the defaults, a packet of the sliding window is given up no earlier than
    after 12.6 seconds, and one of the stop-and-wait channel after 31.5. -/
example : ({} : Channel).pace.span 6 = 12600 ∧ ({} : ReliableChannel).pace.span 6 = 31500 := by
  decide +kernel

/-- One packet in each channel. The window is polled in time and acknowledged, the
    other channel is polled late. -/
@[irreducible]
def twoChannels : List BenchAct :=
  [.build toyEnv .bye, .poll (fun _ => 1) (fun _ => 1), .sendReliable toyEnv 2 [2],
    .pollReliable (fun _ => 40) (fun _ => 41), .processAck 7]

theorem twoChannels_forward : ∀ act ∈ twoChannels, act.Forward := by
  intro act hact
  simp only [twoChannels, List.mem_cons, List.not_mem_nil, or_false] at hact
  rcases hact with rfl | rfl | rfl | rfl | rfl
  · trivial
  · exact fun _ => le_rfl
  · trivial
  · exact fun _ => show (40 : Rat) ≤ 41 by decide
  · trivial

/-- The packet of the window, sent at the beginning, has waited. It was sent again
    once, and waits twice as long now. -/
theorem twoChannels_wait :
    let b := twoChannels.foldl Bench.step ((toyBench {} {}).step (.send toyEnv 0 [1]))
    (∃ w ∈ b.sliding.sendWindow.get? 1, w.retries = 1 ∧ w.nextTimeoutMs = 400) ∧
      Waits b.sliding.pace b.sliding.maxRetries b.sliding.sendWindow 1 0 ∧
      Doubled b.sliding.baseMs b.sliding.maxMs b.sliding.sendWindow 1 := by
  have hissued : ∃ wire, ((toyBench {} {}).step (.send toyEnv 0 [1])).slidingAudit.issued
      = (toyBench {} {}).slidingAudit.issued ++ [(1, wire)] := by
    refine ⟨(((toyBench {} {}).step (.send toyEnv 0 [1])).slidingAudit.issued.map
      Prod.snd).headD [], ?_⟩
    decide +kernel
  rcases hissued with ⟨wire, hissued⟩
  refine ⟨by decide +kernel, ?_⟩
  have hwaits := retransmissions_wait (toyEnds {}).1.endpoint {} {}
    { coverSize := 1, lastSendMs := 0 } rfl rfl [] twoChannels (.send toyEnv 0 [1])
    twoChannels_forward
  simp only [List.foldl_nil] at hwaits
  unfold toyBench at hissued ⊢
  exact hwaits.1 toyEnv 0 [1] 1 wire rfl hissued

end Ztlnp
