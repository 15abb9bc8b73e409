import Ztlnp.Theory.Bench

/-!
# What Becomes of a Packet

Two questions about the packets that the reliable channels have sent.

Nothing disappears. A number that `send` has returned is still outstanding, or
an acknowledgement has removed it and counted it, or one exception has listed
it. This holds whatever is polled and acknowledged, and follows move by move.

The count of attempts is another matter. A poll goes through the packets once
and counts an attempt for everything that is overdue, before it knows whether
it will return the list. If some other packet is out of attempts, it raises,
and the list is gone. What was on it has been charged for an attempt that was
never made, and is given up that much sooner. The count is right in all states
of a run exactly when no poll of the run finds packets of both kinds.

## Main definitions

* `Audit.Kept`: Acknowledgements are counted and exceptions say what was lost.
* `Audit.Accounts`: Every packet is in one place.
* `Bench.Accounted`: What holds in every run.
* `Bench.Honest`: The attempts counted were made.
* `Bench.Unmixed`: A poll does not find both kinds.

## Theorems

* `step_accounted`: Every act keeps the accounts.
* `no_packet_disappears`: Every packet is in one place.
* `stepped_honest_iff`: When an act keeps the count honest.
* `retries_honest_iff`: When a run does.
-/

namespace Ztlnp

variable {C : Primitives}

/-- The counts that were returned add up to what was removed, and every
    exception names what was lost. -/
structure Audit.Kept (a : Audit) (maxRetries : Nat) : Prop where
  counted : a.total = a.acked.length
  raised : ∀ report ∈ a.reports, report.error = retransmitError report.lost maxRetries

/-- Every number that was issued is outstanding, was removed by an
    acknowledgement and counted, or was listed by one exception. -/
structure Audit.Accounts (a : Audit) (box : Dict Nat WindowedPacket) (maxRetries : Nat) : Prop where
  once : ∀ i ∈ a.issued, (if box.get? i.1 = none then 0 else 1) + a.acked.count i.1 +
    a.reports.countP (fun report => i.1 ∈ report.lost) = 1
  kept : a.Kept maxRetries

namespace Bench

/-- What holds in every run. -/
structure Accounted (b : Bench C) : Prop where
  sound : b.Sound
  window : b.slidingOutbox.Conserved
  pending : b.reliableOutbox.Conserved
  slidingAudit : b.slidingAudit.Kept b.sliding.maxRetries
  reliableAudit : b.reliableAudit.Kept b.reliable.maxRetries

/-- In both channels, the attempts of what is outstanding are the lists it was
    on, and what was reported was on as many lists as there are attempts. -/
structure Honest (b : Bench C) : Prop where
  window : b.slidingOutbox.Honest (retrySchedule b.sliding.maxRetries)
  pending : b.reliableOutbox.Honest (retrySchedule b.reliable.maxRetries)

/-- A poll does not find one packet that is out of attempts and another one that
    is to be sent again. -/
def Unmixed (b : Bench C) : BenchAct → Prop
  | .poll due sent => (b.sliding.timer due sent).lost b.sliding.sendWindow = [] ∨
      ((b.sliding.timer due sent).overdue b.sliding.sendWindow).keys = []
  | .pollReliable due sent => (b.reliable.timer due sent).lost b.reliable.pending = [] ∨
      ((b.reliable.timer due sent).overdue b.reliable.pending).keys = []
  | _ => True

instance (b : Bench C) (a : BenchAct) : Decidable (b.Unmixed a) :=
  match a with
  | .poll _ _ => inferInstanceAs (Decidable (_ ∨ _))
  | .pollReliable _ _ => inferInstanceAs (Decidable (_ ∨ _))
  | .build _ _ => .isTrue trivial
  | .maybeSend _ _ _ => .isTrue trivial
  | .send _ _ _ => .isTrue trivial
  | .sendReliable _ _ _ => .isTrue trivial
  | .processSack _ => .isTrue trivial
  | .processAck _ => .isTrue trivial

/-- The packets that a frame removes are as many as `process_sack` returns. -/
theorem processSack_count (c : Channel) (sack : SackFrame) :
    (c.processSack sack).2
      = (c.sendWindow.keys.filter (fun n => decide (n ∈ sack.allAcked))).length := by
  have hsplit := List.length_eq_length_filter_add (l := c.sendWindow.entries)
    (fun e => decide (e.1 ∈ sack.allAcked))
  simp only [← decide_not] at hsplit
  simp only [Channel.processSack, Dict.size, Dict.filter, Dict.keys, List.filter_map,
    List.length_map, Function.comp_def]
  omega

/-- A new report says what was lost. -/
theorem kept_report (a : Audit) (maxRetries : Nat) (h : a.Kept maxRetries) (lost : List Nat) :
    Audit.Kept { a with reports := a.reports ++ [⟨lost, retransmitError lost maxRetries⟩] }
      maxRetries := by
  refine ⟨h.counted, fun report hreport => ?_⟩
  rcases List.mem_append.mp hreport with hreport | hreport
  · exact h.raised report hreport
  · rw [List.mem_singleton.mp hreport]

/-- What acknowledgements return is counted. -/
theorem stepped_kept (b b' : Bench C) (a : BenchAct)
    (hs : b.slidingAudit.Kept b.sliding.maxRetries)
    (hr : b.reliableAudit.Kept b.reliable.maxRetries) (hstep : b.Stepped a b') :
    b'.slidingAudit.Kept b'.sliding.maxRetries ∧ b'.reliableAudit.Kept b'.reliable.maxRetries := by
  cases hstep with
  | processed sack =>
      refine ⟨⟨?_, hs.raised⟩, hr⟩
      simp only [step, List.length_append, hs.counted, processSack_count]
  | acknowledged n =>
      refine ⟨hs, ?_, hr.raised⟩
      simp only [step, List.length_append, hr.counted]
      cases (b.reliable.processAck n).2 with
      | true => rfl
      | false => rfl
  | raised due sent hlost => exact ⟨kept_report _ _ hs _, hr⟩
  | raisedReliable due sent hlost => exact ⟨hs, kept_report _ _ hr _⟩
  | sent env now plaintext e wire hroom hbuilds hemit => exact ⟨⟨hs.counted, hs.raised⟩, hr⟩
  | sentReliable env now plaintext e wire hemit => exact ⟨hs, hr.counted, hr.raised⟩
  | returned due sent hlost => exact ⟨⟨hs.counted, hs.raised⟩, hr⟩
  | returnedReliable due sent hlost => exact ⟨hs, hr.counted, hr.raised⟩
  | _ => exact ⟨hs, hr⟩

/-- Every act keeps the accounts. -/
theorem step_accounted (b : Bench C) (a : BenchAct) (h : b.Accounted) : (b.step a).Accounted := by
  have hstep := step_stepped b a
  have hkept := stepped_kept b _ a h.slidingAudit h.reliableAudit hstep
  have hordered := h.sound.ordered
  exact ⟨step_sound b a h.sound,
    Outbox.move_conserved h.window (stepped_slidingMove b _ a hordered hstep),
    Outbox.move_conserved h.pending (stepped_reliableMove b _ a hordered hstep),
    hkept.1, hkept.2⟩

/-- When nothing was sent, nothing is anywhere. -/
theorem opened_accounted (e : Endpoint C) (c : Channel) (r : ReliableChannel)
    (cover : CoverTraffic) (hc : c.sendWindow = .empty) (hr : r.pending = .empty) :
    (opened e c r cover).Accounted ∧ (opened e c r cover).Honest := by
  have hempty : ∀ box : Dict Nat WindowedPacket, box = .empty →
      (Audit.outbox {} box).Conserved ∧ ∀ maxRetries,
        (Audit.outbox {} box).Honest (retrySchedule maxRetries) := by
    rintro box rfl
    refine ⟨⟨fun i hi => absurd hi List.not_mem_nil, fun k _ => rfl⟩, fun maxRetries =>
      ⟨fun k w hw => ?_, fun i hi => absurd hi List.not_mem_nil⟩⟩
    simp only [Audit.outbox, Dict.get?_empty, reduceCtorEq] at hw
  have hkept : ∀ maxRetries, Audit.Kept {} maxRetries :=
    fun maxRetries => ⟨rfl, fun report hreport => absurd hreport List.not_mem_nil⟩
  exact ⟨⟨opened_sound e c r cover hc hr, (hempty _ hc).1, (hempty _ hr).1, hkept _, hkept _⟩,
    (hempty _ hc).2 _, (hempty _ hr).2 _⟩

theorem run_accounted (e : Endpoint C) (c : Channel) (r : ReliableChannel) (cover : CoverTraffic)
    (hc : c.sendWindow = .empty) (hr : r.pending = .empty) (acts : List BenchAct) :
    (acts.foldl step (opened e c r cover)).Accounted :=
  along_invariant Accounted (fun b a h _ => step_accounted b a h) _ acts
    (opened_accounted e c r cover hc hr).1 (along_true _ acts)

/-- A conserved outbox with its audit kept accounts for every packet. -/
theorem accounts_of_conserved (a : Audit) (box : Dict Nat WindowedPacket) (maxRetries : Nat)
    (h : (a.outbox box).Conserved) (hkept : a.Kept maxRetries) : a.Accounts box maxRetries := by
  refine ⟨fun i hi => ?_, hkept⟩
  have honce := h.once i hi
  simp only [Outbox.tally, Audit.outbox, List.countP_map, Function.comp_def] at honce
  exact honce

/-- A poll that raises is honest exactly when nothing was to be sent again. -/
theorem raised_honest_iff (a : Audit) (box : Dict Nat WindowedPacket) {maxRetries : Nat}
    (t : Timer Nat (retrySchedule maxRetries))
    (hs : (a.outbox box).Sound (retrySchedule maxRetries))
    (h : (a.outbox box).Honest (retrySchedule maxRetries)) (error : Exn) :
    (Audit.outbox { a with reports := a.reports ++ [⟨t.lost box, error⟩] } (t.swept box)).Honest
      (retrySchedule maxRetries) ↔ (t.overdue box).keys = [] := by
  rw [a.outbox_report]
  exact Outbox.raised_honest_iff hs h t

/-- When an act keeps the count honest. -/
theorem stepped_honest_iff (b b' : Bench C) (a : BenchAct) (h : b.Accounted) (hh : b.Honest)
    (hstep : b.Stepped a b') : b'.Honest ↔ b.Unmixed a := by
  have hsliding := stepped_slidingMove b b' a h.sound.ordered hstep
  have hreliable := stepped_reliableMove b b' a h.sound.ordered hstep
  have hwindow := Outbox.move_honest h.sound.window h.window hh.window hsliding
  -- Of all the moves only a raising poll can break what is counted.
  have hpending := Outbox.move_honest h.sound.pending h.pending hh.pending hreliable
  cases hstep with
  | returned due sent hlost => exact ⟨fun _ => Or.inl hlost, fun _ => ⟨hwindow rfl, hpending rfl⟩⟩
  | returnedReliable due sent hlost =>
      exact ⟨fun _ => Or.inl hlost, fun _ => ⟨hwindow rfl, hpending rfl⟩⟩
  | raised due sent hlost =>
      have hiff := raised_honest_iff b.slidingAudit b.sliding.sendWindow
        (b.sliding.timer due sent) h.sound.window hh.window
        (retransmitError ((b.sliding.timer due sent).lost b.sliding.sendWindow)
          b.sliding.maxRetries)
      exact ⟨fun h' => Or.inr (hiff.mp h'.window),
        fun h' => ⟨hiff.mpr (h'.resolve_left hlost), hpending rfl⟩⟩
  | raisedReliable due sent hlost =>
      have hiff := raised_honest_iff b.reliableAudit b.reliable.pending
        (b.reliable.timer due sent) h.sound.pending hh.pending
        (retransmitError ((b.reliable.timer due sent).lost b.reliable.pending)
          b.reliable.maxRetries)
      exact ⟨fun h' => Or.inr (hiff.mp h'.pending),
        fun h' => ⟨hwindow rfl, hiff.mpr (h'.resolve_left hlost)⟩⟩
  | _ => exact ⟨fun _ => trivial, fun _ => ⟨hwindow rfl, hpending rfl⟩⟩

end Bench

/-- Whatever is sent, acknowledged and polled on a session: every number that
    `send` has returned, of either channel, is outstanding, or an
    acknowledgement that named it has removed and counted it, or one exception
    has listed it, and only one of these. -/
theorem no_packet_disappears (e : Endpoint C) (c : Channel) (r : ReliableChannel)
    (cover : CoverTraffic) (hc : c.sendWindow = .empty) (hr : r.pending = .empty)
    (acts : List BenchAct) :
    let b := acts.foldl Bench.step (Bench.opened e c r cover)
    b.slidingAudit.Accounts b.sliding.sendWindow b.sliding.maxRetries ∧
      b.reliableAudit.Accounts b.reliable.pending b.reliable.maxRetries := by
  intro b
  have h : b.Accounted := Bench.run_accounted e c r cover hc hr acts
  exact ⟨Bench.accounts_of_conserved _ _ _ h.window h.slidingAudit,
    Bench.accounts_of_conserved _ _ _ h.pending h.reliableAudit⟩

/-- On both channels, one packet is acknowledged, one is given up, and one is
    outstanding. -/
@[irreducible]
def threeFates : List BenchAct :=
  [.send toyEnv 0 [1], .sendReliable toyEnv 0 [1], .send toyEnv 0 [2], .sendReliable toyEnv 0 [2],
    .processSack ⟨1, []⟩, .processAck 2, .poll (fun _ => 1) (fun _ => 1),
    .pollReliable (fun _ => 1) (fun _ => 1), .poll (fun _ => 4) (fun _ => 4),
    .pollReliable (fun _ => 4) (fun _ => 4), .send toyEnv 4 [3], .sendReliable toyEnv 4 [3]]

/-- Each of the three is in one place. -/
theorem threeFates_accounted :
    let b := threeFates.foldl Bench.step (toyBench { maxRetries := 1 } { maxRetries := 1 })
    (b.slidingAudit.issued.map Prod.fst = [1, 3, 5] ∧ b.slidingAudit.acked = [1] ∧
        b.slidingAudit.reports.map Report.lost = [[3]] ∧ b.sliding.sendWindow.keys = [5]) ∧
      (b.reliableAudit.issued.map Prod.fst = [2, 4, 6] ∧ b.reliableAudit.acked = [2] ∧
        b.reliableAudit.reports.map Report.lost = [[4]] ∧ b.reliable.pending.keys = [6]) ∧
      b.slidingAudit.Accounts b.sliding.sendWindow b.sliding.maxRetries ∧
      b.reliableAudit.Accounts b.reliable.pending b.reliable.maxRetries := by
  have hrun :
      let b := threeFates.foldl Bench.step (toyBench { maxRetries := 1 } { maxRetries := 1 })
      (b.slidingAudit.issued.map Prod.fst = [1, 3, 5] ∧ b.slidingAudit.acked = [1] ∧
        b.slidingAudit.reports.map Report.lost = [[3]] ∧ b.sliding.sendWindow.keys = [5]) ∧
      b.reliableAudit.issued.map Prod.fst = [2, 4, 6] ∧ b.reliableAudit.acked = [2] ∧
        b.reliableAudit.reports.map Report.lost = [[4]] ∧ b.reliable.pending.keys = [6] := by
    decide +kernel
  have haccounts := no_packet_disappears (toyEnds {}).1.endpoint { maxRetries := 1 }
    { maxRetries := 1 } { coverSize := 1, lastSendMs := 0 } rfl rfl threeFates
  unfold toyBench at hrun ⊢
  exact ⟨hrun.1, hrun.2, haccounts⟩

/-- The attempts that both channels count are those that were made, in every
    state of a run, exactly when no poll of the run finds one packet out of
    attempts and another one to be sent again. -/
theorem retries_honest_iff (e : Endpoint C) (c : Channel) (r : ReliableChannel)
    (cover : CoverTraffic) (hc : c.sendWindow = .empty) (hr : r.pending = .empty)
    (acts : List BenchAct) :
    Along Bench.step Bench.Unmixed (Bench.opened e c r cover) acts ↔
      ∀ k, ((acts.take k).foldl Bench.step (Bench.opened e c r cover)).Honest := by
  rcases Bench.opened_accounted e c r cover hc hr with ⟨haccounted, hhonest⟩
  exact along_iff_forall_take Bench.Accounted Bench.Honest Bench.step_accounted
    (fun b a h hh => Bench.stepped_honest_iff b _ a h hh (Bench.step_stepped b a)) _ acts
    haccounted hhonest

/-- No poll of that run finds packets of both kinds, so the count is honest when
    both channels have given a packet up. -/
theorem threeFates_honest :
    ((threeFates.take 10).foldl Bench.step
      (toyBench { maxRetries := 1 } { maxRetries := 1 })).Honest :=
  (retries_honest_iff _ { maxRetries := 1 } { maxRetries := 1 } _ rfl rfl threeFates).mp
    (by decide +kernel) 10

/-- On both channels, a packet is sent when another one has a single attempt
    left, and is overdue when the other one is given up. -/
@[irreducible]
def mixedPolls : List BenchAct :=
  [.send toyEnv 0 [1], .sendReliable toyEnv 0 [1], .poll (fun _ => 1) (fun _ => 1),
    .pollReliable (fun _ => 1) (fun _ => 1), .send toyEnv 1 [2], .sendReliable toyEnv 1 [2],
    .poll (fun _ => 4) (fun _ => 4), .pollReliable (fun _ => 4) (fun _ => 4)]

/-- An attempt that was not made is counted. -/
theorem not_honest_of_unreturned (a : Audit) (box : Dict Nat WindowedPacket) (maxRetries : Nat)
    (h : ∃ entry ∈ box.entries, entry.2.retries = 1 ∧
      ∀ sent ∈ a.returned, entry.2.packetBytes ∉ sent) :
    ¬ (a.outbox box).Honest (retrySchedule maxRetries) := by
  intro hhonest
  rcases h with ⟨⟨n, w⟩, hmem, hone, hnever⟩
  have hzero := hhonest.retries_eq_zero ((Dict.get?_eq_some _ _ _).mpr hmem) hnever
  exact Nat.one_ne_zero (hone.symm.trans hzero)

/-- Both channels count an attempt for a packet whose bytes they have never
    returned. -/
theorem unmade_attempt_counted :
    let b := mixedPolls.foldl Bench.step (toyBench { maxRetries := 1 } { maxRetries := 1 })
    ¬ b.slidingOutbox.Honest (retrySchedule b.sliding.maxRetries) ∧
      ¬ b.reliableOutbox.Honest (retrySchedule b.reliable.maxRetries) := by
  have hcounted :
      let b := mixedPolls.foldl Bench.step (toyBench { maxRetries := 1 } { maxRetries := 1 })
      (∃ entry ∈ b.sliding.sendWindow.entries, entry.2.retries = 1 ∧
        ∀ sent ∈ b.slidingAudit.returned, entry.2.packetBytes ∉ sent) ∧
      ∃ entry ∈ b.reliable.pending.entries, entry.2.retries = 1 ∧
        ∀ sent ∈ b.reliableAudit.returned, entry.2.packetBytes ∉ sent := by
    decide +kernel
  generalize mixedPolls.foldl Bench.step (toyBench { maxRetries := 1 } { maxRetries := 1 }) = b
    at hcounted ⊢
  exact ⟨not_honest_of_unreturned _ _ _ hcounted.1, not_honest_of_unreturned _ _ _ hcounted.2⟩

end Ztlnp
