import Ztlnp.Theory.Span

/-!
# Recovery

What it takes to make good whatever the network has lost.

A sliding window is never beyond repair as long as its run was steady. Nothing
was accepted before the first packet, packets were sent only within reach of
what was missing, and no poll gave a packet up. Then everything that was sent
is still in the window or held by the receiver, and what is missing is still
let through. One poll, at a time when all packets are due, hands out what is
needed. Once each of these packets has arrived in time, in whatever order, and
among whatever else the network still holds, the receiver has returned
everything, and its last frame empties the window.

There must be no gap in the numbers. A number that was drawn by something else
is never sent again, and the receiver waits for it for good.

## Main definitions

* `Link.Patient`: No poll gives up.
* `Link.Steady`: Prompt, narrow and patient at once.
* `Link.Kept`: Nothing that was sent is forgotten.
* `Gapless`: No number was skipped.

## Theorems

* `step_steadied`: Every steady step keeps the invariants.
* `deliver_holds`: What is in the window is held after it has arrived in time.
* `deliveries_hold`: So it is after any deliveries that contain it.
* `held_returned`: If all that was sent is held, all of it was returned.
* `sliding_window_recovers`: One round after any steady run completes it.
-/

namespace Ztlnp

variable {C : Primitives}

/-- Between two numbers that were sent every number was sent. -/
def Gapless (sent : List (Nat × Bytes)) : Prop :=
  ∀ i ∈ sent, ∀ j ∈ sent, ∀ k ≤ j.1, i.1 ≤ k → k ∈ sent.map Prod.fst

instance (sent : List (Nat × Bytes)) : Decidable (Gapless sent) :=
  inferInstanceAs (Decidable (∀ i ∈ sent, ∀ j ∈ sent, ∀ k ≤ j.1, i.1 ≤ k → k ∈ sent.map Prod.fst))

namespace Link

/-- No poll finds a packet that is out of attempts. -/
def Patient (l : Link C) : LinkAct → Prop
  | .retransmit due sent =>
    (l.sender.channel.timer due sent).lost l.sender.channel.sendWindow = []
  | _ => True

instance (l : Link C) (a : LinkAct) : Decidable (l.Patient a) :=
  match a with
  | .retransmit _ _ => inferInstanceAs (Decidable (_ = []))
  | .send _ _ _ => .isTrue trivial
  | .deliver _ _ => .isTrue trivial
  | .acknowledge _ => .isTrue trivial

/-- A step from which the link can recover. -/
def Steady (l : Link C) (a : LinkAct) : Prop := l.Prompt a ∧ l.Narrow a ∧ l.Patient a

instance (l : Link C) (a : LinkAct) : Decidable (l.Steady a) :=
  inferInstanceAs (Decidable (_ ∧ _ ∧ _))

/-- What was sent is in the window or held by the receiver, what was accepted is
    held, and the last frame is the one the receiver would make now. -/
structure Kept (l : Link C) : Prop where
  outstanding : ∀ i ∈ l.sent, l.sender.channel.sendWindow.get? i.1 ≠ none ∨
    l.receiver.channel.Holds i.1
  accepted : ∀ n ∈ l.accepted, l.receiver.channel.Holds n
  latest : ∀ f ∈ l.frames.getLast?, f = l.receiver.channel.buildSack
  answered : 0 ≤ l.receiver.channel.recvNext → l.frames ≠ []

/-- All that holds in a steady run. -/
def Steadied (l : Link C) (first : Nat) : Prop :=
  ∃ s t, l.Sound first s t ∧ l.Spanned first t ∧ l.Ordered ∧ l.Kept

/-- A patient poll leaves every packet in the window and hands out those that are
    overdue. -/
theorem step_retransmit (l : Link C) (due sent : Nat → Rat) (h : l.Patient (.retransmit due sent)) :
    l.step (.retransmit due sent) = { l with
      sender := { l.sender with channel := { l.sender.channel with
        sendWindow := (l.sender.channel.timer due sent).swept l.sender.channel.sendWindow } }
      wires := l.wires ++ ((l.sender.channel.timer due sent).overdue
        l.sender.channel.sendWindow).entries.map (fun e => e.2.packetBytes) } := by
  rw [Patient] at h
  simp only [step, Channel.getRetransmissions_run]
  rw [if_pos h]

/-- A delivery concerns the receiver alone. -/
theorem step_deliver (l : Link C) (env : Env) (i : Nat) :
    (l.step (.deliver env i)).sender = l.sender ∧ (l.step (.deliver env i)).sent = l.sent ∧
      (l.step (.deliver env i)).wires = l.wires := by
  simp only [step]
  cases l.wires[i]? with
  | none => exact ⟨rfl, rfl, rfl⟩
  | some raw =>
      simp only
      cases (ChannelEnd.receive env raw).run l.receiver with
      | ok r b => exact ⟨rfl, rfl, rfl⟩
      | error x b => exact ⟨rfl, rfl, rfl⟩

end Link

/-- Every patient step keeps what was sent. -/
theorem step_kept (l : Link C) (s t s' t' : Session) (a : LinkAct) (hord : l.Ordered) (h : l.Kept)
    (hmove : l.Moved s t a (l.step a) s' t') (hpatient : l.Patient a) : (l.step a).Kept := by
  cases a with
  | retransmit due sent =>
      rw [Link.step_retransmit l due sent hpatient]
      rw [Link.Patient] at hpatient
      refine ⟨fun i hi => ?_, h.accepted, h.latest, h.answered⟩
      rcases h.outstanding i hi with hw | hheld
      · left
        simp only [ne_eq]
        rw [Timer.get?_swept, hpatient, if_neg List.not_mem_nil, Option.map_eq_none_iff]
        exact hw
      · exact Or.inr hheld
  | send env now plaintext =>
      generalize l.step (.send env now plaintext) = l' at hmove
      cases hmove with
      | idle => exact h
      | spoilt => exact ⟨h.outstanding, h.accepted, h.latest, h.answered⟩
      | sent env now plaintext wire p hroom hw =>
          refine ⟨fun i hi => ?_, h.accepted, h.latest, h.answered⟩
          simp only [Channel.enqueued, Dict.get?_set]
          by_cases heq : i.1 = s.localSequence
          · left
            rw [if_pos heq]
            simp only [ne_eq, reduceCtorEq, not_false_eq_true]
          · rw [if_neg heq]
            rcases List.mem_append.mp hi with hi | hi
            · exact h.outstanding i hi
            · rw [List.mem_singleton] at hi
              rw [hi] at heq
              exact absurd rfl heq
  | deliver env i =>
      generalize l.step (.deliver env i) = l' at hmove
      cases hmove with
      | idle => exact h
      | received env i raw plaintext n p hraw hmem hw hadmits =>
          refine ⟨fun j hj => ?_, fun k hk => ?_, fun f hf => ?_, fun _ => ?_⟩
          · rcases h.outstanding j hj with hw | hheld
            · exact Or.inl hw
            · exact Or.inr (Channel.accept_holds _ n plaintext j.1 hheld)
          · rcases List.mem_cons.mp hk with rfl | hk
            · exact Channel.accept_holds_self _ _ _
            · exact Channel.accept_holds _ n plaintext k (h.accepted k hk)
          · rw [List.getLast?_concat, Option.mem_some_iff] at hf
            exact hf.symm
          · exact List.append_ne_nil_of_right_ne_nil _ (List.cons_ne_nil _ _)
  | acknowledge i =>
      generalize l.step (.acknowledge i) = l' at hmove
      cases hmove with
      | idle => exact h
      | acknowledged i sack hsack =>
          refine ⟨fun j hj => ?_, h.accepted, h.latest, h.answered⟩
          -- What leaves the window was acknowledged, and so it is held.
          by_cases hacked : j.1 ∈ sack.allAcked
          · exact Or.inr (hord.frames sack (List.mem_of_getElem? hsack) j.1 hacked)
          · simp only [Channel.processSack_get?, if_neg hacked]
            exact h.outstanding j hj

/-- Every steady step keeps all the invariants. -/
theorem step_steadied (l : Link C) (first : Nat) (a : LinkAct) (h : l.Steadied first)
    (hsteady : l.Steady a) : (l.step a).Steadied first := by
  rcases h with ⟨s, t, hl, hspan, hord, hkept⟩
  rcases link_moved l first s t hl a with ⟨s', t', hmove⟩
  exact ⟨s', t', moved_sound _ _ _ _ _ _ _ _ hl hmove,
    moved_spanned _ _ _ _ _ _ _ _ hl hspan hmove hsteady.2.1,
    moved_ordered _ _ _ _ _ _ _ _ hl hord hmove hsteady.1,
    step_kept l s t s' t' a hord hkept hmove hsteady.2.2⟩

/-- So does a delivery that is prompt. -/
theorem deliver_steadied (l : Link C) (first : Nat) (env : Env) (i : Nat) (h : l.Steadied first)
    (hprompt : l.Prompt (.deliver env i)) : (l.step (.deliver env i)).Steadied first :=
  step_steadied l first _ h ⟨hprompt, trivial, trivial⟩

/-- A delivery makes the receiver forget nothing. -/
theorem deliver_keeps (l : Link C) (first : Nat) (env : Env) (i n : Nat) (h : l.Steadied first)
    (hheld : l.receiver.channel.Holds n) :
    (l.step (.deliver env i)).receiver.channel.Holds n := by
  rcases h with ⟨s, t, hl, _⟩
  rcases link_moved l first s t hl (.deliver env i) with ⟨s', t', hmove⟩
  generalize l.step (.deliver env i) = l' at hmove
  cases hmove with
  | idle => exact hheld
  | received env i raw plaintext m p => exact Channel.accept_holds _ m plaintext n hheld

/-- A packet of the window that arrives in time is held from then on. Either it is
    accepted, or it was accepted before. -/
theorem deliver_holds (l : Link C) (first : Nat) (env : Env) (i : Nat) (raw : Bytes)
    (w : WindowedPacket) (h : l.Steadied first) (hraw : l.wires[i]? = some raw)
    (hw : l.sender.channel.sendWindow.get? (wireSequence raw) = some w)
    (htime : Session.Timely env.receiveMs (wireTimestamp raw)) :
    (l.step (.deliver env i)).receiver.channel.Holds (wireSequence raw) := by
  have hkeeps := deliver_keeps l first env i (wireSequence raw) h
  rcases h with ⟨s, t, hl, hspan, _, hkept⟩
  by_cases hmissing : wireSequence raw ∈ l.accepted
  · exact hkeeps (hkept.accepted _ hmissing)
  · have hadmits := spanned_admits l first s t hl hspan _ w hw hmissing
    rcases hl.wires raw (List.mem_of_getElem? hraw) with ⟨n, x, p, hmem, hwraps⟩
    have hn := hwraps.wireSequence_eq
    rcases receive_wraps l.receiver env _ raw x t n p hwraps hl.paired.receiving with
      ⟨_, hrun⟩ | ⟨hno, _⟩
    · simp only [Link.step, hraw, hrun, hn]
      exact Channel.accept_holds_self _ _ _
    · rw [hn] at hadmits
      exact absurd ⟨htime, hadmits⟩ hno

/-- Whatever else is delivered before and after. -/
theorem deliveries_hold (l : Link C) (first : Nat) (deliveries : List (Env × Nat))
    (h : l.Steadied first)
    (hprompt : Along Link.step Link.Prompt l (deliveries.map (fun d => .deliver d.1 d.2))) (n : Nat)
    (hn : l.receiver.channel.Holds n ∨ ∃ d ∈ deliveries, ∃ raw ∈ l.wires[d.2]?,
      wireSequence raw = n ∧ l.sender.channel.sendWindow.get? n ≠ none ∧
        Session.Timely d.1.receiveMs (wireTimestamp raw)) :
    ((deliveries.map (fun d => .deliver d.1 d.2)).foldl Link.step l).receiver.channel.Holds n := by
  induction deliveries generalizing l with
  | nil =>
      rcases hn with hheld | ⟨d, hd, _⟩
      · exact hheld
      · exact absurd hd List.not_mem_nil
  | cons d deliveries ih =>
      rcases hprompt with ⟨hfirst, hrest⟩
      refine ih _ (deliver_steadied l first d.1 d.2 h hfirst) hrest ?_
      rcases hn with hheld | ⟨d', hd', raw, hraw, rfl, hwindow, htime⟩
      · exact Or.inl (deliver_keeps l first d.1 d.2 n h hheld)
      · rcases List.mem_cons.mp hd' with rfl | hd'
        · rcases Option.ne_none_iff_exists'.mp hwindow with ⟨w, hw⟩
          exact Or.inl (deliver_holds l first d'.1 d'.2 raw w h hraw hw htime)
        · -- The window and the network are the same after the delivery.
          rcases l.step_deliver d.1 d.2 with ⟨hsender, _, hwires⟩
          refine Or.inr ⟨d', hd', raw, ?_, rfl, ?_, htime⟩
          · rw [hwires]
            exact hraw
          · rw [hsender]
            exact hwindow

theorem deliveries_steadied (l : Link C) (first : Nat) (deliveries : List (Env × Nat))
    (h : l.Steadied first)
    (hprompt : Along Link.step Link.Prompt l (deliveries.map (fun d => .deliver d.1 d.2))) :
    ((deliveries.map (fun d => .deliver d.1 d.2)).foldl Link.step l).Steadied first ∧
      ((deliveries.map (fun d => .deliver d.1 d.2)).foldl Link.step l).sent = l.sent := by
  induction deliveries generalizing l with
  | nil => exact ⟨h, rfl⟩
  | cons d deliveries ih =>
      rcases hprompt with ⟨hfirst, hrest⟩
      rcases ih _ (deliver_steadied l first d.1 d.2 h hfirst) hrest with ⟨hsteady, hsent⟩
      exact ⟨hsteady, hsent.trans (l.step_deliver d.1 d.2).2.1⟩

/-- If the receiver holds everything that was sent and no number is missing, it
    has reached the last one. -/
theorem held_reached (c : Channel) (sent : List (Nat × Bytes)) (returned : Bytes)
    (h : c.InStep sent returned) (hgapless : Gapless sent) (hheld : ∀ i ∈ sent, c.Holds i.1) :
    ∀ i ∈ sent, (i.1 : Int) ≤ c.recvNext := by
  intro i hi
  rcases hheld i hi with hle | hbuf
  · exact hle
  · exfalso
    rcases Option.ne_none_iff_exists'.mp hbuf with ⟨x, hx⟩
    have hbeyond := (h.buffered i.1 x hx).1
    rcases h.reached with hnone | ⟨j, hj, hreached⟩
    · exact hbuf (h.unstarted hnone i.1)
    · -- The next number was sent, and can neither have been passed nor be in the buffer.
      rcases List.mem_map.mp (hgapless j hj i hi (j.1 + 1) (by omega) (by omega)) with
        ⟨m, hm, hnext⟩
      rcases hheld m hm with hle | hbuf'
      · omega
      · rcases Option.ne_none_iff_exists'.mp hbuf' with ⟨z, hz⟩
        have hlate := (h.buffered _ z hz).1
        omega

/-- Then it has returned everything, has nothing left in its buffer, and its last
    frame empties the window. -/
theorem held_returned (l : Link C) (first : Nat) (h : l.Steadied first) (hgapless : Gapless l.sent)
    (hheld : ∀ i ∈ l.sent, l.receiver.channel.Holds i.1) :
    l.returned = l.sent.flatMap Prod.snd ∧ l.receiver.channel.recvBuffer.keys = [] ∧
      (l.sent ≠ [] → ∃ sack, l.frames.getLast? = some sack ∧
        (l.sender.channel.processSack sack).1.sendWindow.keys = []) := by
  rcases h with ⟨s, t, hl, _, hord, hkept⟩
  have hreached := held_reached _ _ _ hord.inStep hgapless hheld
  refine ⟨?_, ?_, fun hsent => ?_⟩
  · rw [hord.inStep.returned, upTo_all _ _ hreached]
  · rw [List.eq_nil_iff_forall_not_mem]
    intro k hk
    rcases (Dict.mem_keys _ _).mp hk with ⟨x, hx⟩
    rcases hord.inStep.buffered k x hx with ⟨hbeyond, hmem⟩
    have hle := hreached _ hmem
    simp only at hle
    omega
  · rcases List.exists_mem_of_ne_nil _ hsent with ⟨i, hi⟩
    have hstarted := hreached i hi
    have hne := hkept.answered (by omega)
    refine ⟨l.frames.getLast hne, List.getLast?_eq_some_getLast hne, ?_⟩
    have hlatest := hkept.latest _ (List.getLast?_eq_some_getLast hne)
    rw [List.eq_nil_iff_forall_not_mem]
    intro k hk
    rcases (Dict.mem_keys _ _).mp hk with ⟨w, hw⟩
    rcases hl.sent_of_window (Channel.processSack_kept _ _ k w hw) with ⟨x, hx⟩
    -- The frame acknowledges every number up to the one that was reached.
    have hacked : k ∈ (l.frames.getLast hne).allAcked := by
      rw [hlatest, Channel.mem_buildSack]
      exact Or.inl (le_max_of_le_left (hreached _ hx))
    rw [Channel.processSack_get?, if_pos hacked] at hw
    simp only [reduceCtorEq] at hw

/-- After any steady run without gaps, whatever was lost: one poll, at a time when
    everything in the window is due and has attempts left, followed by deliveries
    in which every packet of the poll arrives in time, completes the delivery. They
    come in any order, but a receiver that has accepted nothing yet accepts the first
    packet before any other. All that was sent has been returned, in order, nothing
    is left in the buffer, and the last frame empties the window. -/
theorem sliding_window_recovers (a b : ChannelEnd C) (s t : Session)
    (hpaired : Paired a.endpoint b.endpoint s t) (ha : a.channel.Fresh) (hb : b.channel.Fresh)
    (acts : List LinkAct) (hsteady : Along Link.step Link.Steady (Link.opened a b) acts)
    (due sent : Nat → Rat) (deliveries : List (Env × Nat)) :
    let l := acts.foldl Link.step (Link.opened a b)
    let polled := l.step (.retransmit due sent)
    let l' := (deliveries.map (fun d => .deliver d.1 d.2)).foldl Link.step polled
    Gapless l.sent →
    (∀ e ∈ l.sender.channel.sendWindow.entries,
      e.2.isDue (due e.1) = true ∧ e.2.retries < l.sender.channel.maxRetries) →
    (∀ raw ∈ polled.wires.drop l.wires.length, ∃ d ∈ deliveries, polled.wires[d.2]? = some raw ∧
      Session.Timely d.1.receiveMs (wireTimestamp raw)) →
    Along Link.step Link.Prompt polled (deliveries.map (fun d => .deliver d.1 d.2)) →
      l'.returned = l.sent.flatMap Prod.snd ∧ l'.receiver.channel.recvBuffer.keys = [] ∧
        (l.sent ≠ [] → ∃ sack, l'.frames.getLast? = some sack ∧
          (l'.sender.channel.processSack sack).1.sendWindow.keys = []) := by
  intro l polled l' hgapless hdue harrives hprompt
  have hstart : (Link.opened a b).Steadied s.localSequence := by
    refine ⟨s, t, fresh_sound a b s t hpaired ha, fresh_spanned a b s t hpaired ha,
      ⟨Channel.fresh_inStep _ hb, fun f hf => ?_⟩, ⟨fun i hi => ?_, fun n hn => ?_, fun f hf => ?_,
        fun hneg => ?_⟩⟩
    · exact absurd hf List.not_mem_nil
    · exact absurd hi List.not_mem_nil
    · exact absurd hn List.not_mem_nil
    · exact absurd hf (Option.not_mem_none f)
    · rw [show (Link.opened a b).receiver.channel.recvNext = -1 from hb.recvNext] at hneg
      exact absurd hneg (by decide)
  have hl : l.Steadied s.localSequence := along_invariant
    (fun l => Link.Steadied (C := C) l s.localSequence) (fun l a h ha => step_steadied l _ a h ha) _
    acts hstart hsteady
  -- Nothing is out of attempts, so the poll hands out all of the window.
  have hover : ∀ n w, l.sender.channel.sendWindow.get? n = some w →
      (l.sender.channel.timer due sent).isOverdue n w = true := by
    intro n w hw
    rcases hdue _ ((Dict.get?_eq_some _ _ _).mp hw) with ⟨hisDue, hleft⟩
    rw [Timer.isOverdue, Bool.and_eq_true, decide_eq_true_eq]
    exact ⟨hisDue, hleft⟩
  have hpatient : l.Patient (.retransmit due sent) := by
    rw [Link.Patient, List.eq_nil_iff_forall_not_mem]
    intro n hn
    rcases (Timer.mem_lost _ _ _).mp hn with ⟨w, hw, _⟩
    exact Timer.not_mem_lost _ _ n w hw (hover n w hw) hn
  have hpolled : polled.Steadied s.localSequence :=
    step_steadied l _ _ hl ⟨trivial, trivial, hpatient⟩
  have hstep : polled = _ := l.step_retransmit due sent hpatient
  rcases deliveries_steadied polled _ deliveries hpolled hprompt with ⟨hl', hsent'⟩
  have hsent : l'.sent = l.sent := by
    rw [hsent', hstep]
  rw [← hsent] at hgapless ⊢
  refine held_returned l' _ hl' hgapless (fun i hi => ?_)
  rw [hsent] at hi
  refine deliveries_hold polled _ deliveries hpolled hprompt i.1 ?_
  rcases hl with ⟨u, v, hsound, _, _, hkept⟩
  rcases hkept.outstanding i hi with hwindow | hheld
  · right
    rcases Option.ne_none_iff_exists'.mp hwindow with ⟨w, hw⟩
    -- The poll has handed the packet out, so it arrives.
    have hmem : w.packetBytes ∈ polled.wires.drop l.wires.length := by
      rw [hstep, List.drop_left]
      refine List.mem_map.mpr ⟨(i.1, w), (Dict.get?_eq_some _ _ _).mp ?_, rfl⟩
      rw [Timer.overdue, Dict.get?_filter, Option.filter_eq_some_iff]
      exact ⟨hw, hover i.1 w hw⟩
    rcases harrives _ hmem with ⟨d, hd, hraw, htime⟩
    refine ⟨d, hd, w.packetBytes, hraw, (hsound.window i.1 w hw).2, ?_, htime⟩
    rw [hstep]
    simp only [ne_eq]
    rw [Timer.get?_swept, if_neg (Timer.not_mem_lost _ _ i.1 w hw (hover i.1 w hw)), hw]
    simp only [Option.map_some, reduceCtorEq, not_false_eq_true]
  · left
    rw [hstep]
    exact hheld

/-- Three messages, of which the second is lost, and so are all frames. -/
def secondLost : List LinkAct :=
  [.send toyEnv 0 [1], .send toyEnv 0 [2], .send toyEnv 0 [3], .deliver toyEnv 0,
    .deliver toyEnv 2]

/-- Only the first was returned. The poll hands out all three again, and they
    arrive in the opposite order. -/
theorem second_lost_recovers :
    let l := secondLost.foldl Link.step (Link.opened (toyEnds {}).1 (toyEnds {}).2)
    let l' := ([(toyEnv, 5), (toyEnv, 4), (toyEnv, 3)].map
      (fun d => LinkAct.deliver d.1 d.2)).foldl Link.step
        (l.step (.retransmit (fun _ => 1) (fun _ => 1)))
    l.sent = [(1, [1]), (2, [2]), (3, [3])] ∧ l.returned = [1] ∧ l'.returned = [1, 2, 3] ∧
      l'.receiver.channel.recvBuffer.keys = [] ∧
      ∃ sack, l'.frames.getLast? = some sack ∧
        (l'.sender.channel.processSack sack).1.sendWindow.keys = [] := by
  rcases toyEnds_paired {} with ⟨s, t, hpaired⟩
  have hrecovers := sliding_window_recovers (toyEnds {}).1 (toyEnds {}).2 s t hpaired default_fresh
    default_fresh secondLost
  have hrun : Along Link.step Link.Steady (Link.opened (toyEnds {}).1 (toyEnds {}).2) secondLost ∧
      let l := secondLost.foldl Link.step (Link.opened (toyEnds {}).1 (toyEnds {}).2)
      let polled := l.step (.retransmit (fun _ => 1) (fun _ => 1))
      l.sent = [(1, [1]), (2, [2]), (3, [3])] ∧ l.returned = [1] ∧
        (∀ e ∈ l.sender.channel.sendWindow.entries,
          e.2.isDue 1 = true ∧ e.2.retries < l.sender.channel.maxRetries) ∧
        (∀ raw ∈ polled.wires.drop l.wires.length,
          ∃ d ∈ [(toyEnv, 5), (toyEnv, 4), (toyEnv, 3)], polled.wires[d.2]? = some raw ∧
            Session.Timely d.1.receiveMs (wireTimestamp raw)) ∧
        Along Link.step Link.Prompt polled ([(toyEnv, 5), (toyEnv, 4), (toyEnv, 3)].map
          (fun d => LinkAct.deliver d.1 d.2)) := by
    decide +kernel
  rcases hrun with ⟨hsteady, hrun⟩
  replace hrecovers := hrecovers hsteady (fun _ => 1) (fun _ => 1)
    [(toyEnv, 5), (toyEnv, 4), (toyEnv, 3)]
  generalize secondLost.foldl Link.step (Link.opened (toyEnds {}).1 (toyEnds {}).2) = l
    at hrecovers hrun ⊢
  rcases hrun with ⟨hsent, hreturned, hdue, harrives, hprompt⟩
  have hgapless : Gapless l.sent := by
    rw [hsent]
    decide
  rcases hrecovers hgapless hdue harrives hprompt with ⟨hall, hbuffer, hframe⟩
  refine ⟨hsent, hreturned, ?_, hbuffer, hframe ?_⟩
  · rw [hall, hsent]
    rfl
  · rw [hsent]
    exact List.cons_ne_nil _ _

end Ztlnp
