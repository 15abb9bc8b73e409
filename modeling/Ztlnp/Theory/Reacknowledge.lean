import Ztlnp.Theory.Channels
import Ztlnp.Theory.CrossSession

/-!
# Receiving a Packet Again

What a channel does with a packet it has already accepted.

The channel has a branch for packets it has seen before, which drops the data
and acknowledges again. Nothing ever gets there twice. A packet reaches the
channel only through the device, and the device has recorded its number in
the replay window when it let it through the first time. Numbers in a window
are never admitted again, and no method of a channel replaces a session. So
the second reception raises, with nothing changed and nothing acknowledged.

## Main definitions

* `ChannelAct`, `ChannelEnd.step`: What can happen to one end of a channel.
* `ChannelEnd.accepted`: The DATA packet an act has accepted.
* `Receiver`, `Receiver.step`: An end with the packets it has accepted.
* `ChannelEnd.Reacknowledges`: The packet is acknowledged again, and nothing
  changes.

## Theorems

* `step_carries`: No act makes a session forget a number.
* `step_noted`: Accepted packets are in the window of their sender.
* `retransmission_raises`: A packet that was accepted is refused.
* `never_reacknowledged`: So it is never acknowledged again.
-/

namespace Ztlnp

variable {C : Primitives}

/-- What can happen to one end of a channel. -/
inductive ChannelAct
  | send (env : Env) (now : Rat) (plaintext : Bytes)
  | receive (env : Env) (raw : Bytes)
  | receiveAck (env : Env) (raw : Bytes)
  | processSack (sack : SackFrame)
  | getRetransmissions (due sent : Nat → Rat)
  | buildSackAck (env : Env) (sack : SackFrame)

/-- Every session of the old device is there in the new one, and remembers at
    least as much. -/
def Carries (d d' : Device C) : Prop :=
  ∀ id s, d.sessions.get? id = some s → ∃ s', d'.sessions.get? id = some s' ∧
    ∀ n, s.window.Seen replayWindow n → s'.window.Seen replayWindow n

theorem carries_refl (d : Device C) : Carries d d := by
  intro id s hs
  exact ⟨s, hs, fun _ hn => hn⟩

theorem carries_set (d d' : Device C) (id : Bytes) (s s' : Session)
    (hget : d.sessions.get? id = some s) (hsess : d'.sessions = d.sessions.set id s')
    (hseen : ∀ n, s.window.Seen replayWindow n → s'.window.Seen replayWindow n) :
    Carries d d' := by
  intro id' t ht
  rw [hsess, Dict.get?_set]
  -- Only the session that was written can have changed.
  by_cases heq : id' = id
  · subst heq
    rw [hget, Option.some.injEq] at ht
    subst ht
    rw [if_pos rfl]
    exact ⟨s', rfl, hseen⟩
  · rw [if_neg heq]
    exact ⟨t, ht, fun _ hn => hn⟩

theorem carries_received (d d' : Device C) (env : Env) (raw : Bytes) (p : Packet)
    (hrec : Device.Received d env raw p d') : Carries d d' := by
  cases hrec with
  | hello => exact carries_refl d
  | pending => exact carries_refl d
  | session s _ _ hget =>
      refine carries_set d _ p.senderId s _ hget rfl (fun n hn => ?_)
      rw [Session.recorded_window]
      exact SeqWindow.seen_record replayWindow p.sequence hn

theorem carries_advanced (d : Device C) (id : Bytes) (s : Session)
    (hget : d.sessions.get? id = some s) : Carries d (d.advanced id s) :=
  carries_set d _ id s _ hget rfl (fun _ hn => hn)

namespace ChannelEnd

/-- One act. -/
def step (s : ChannelEnd C) : ChannelAct → ChannelEnd C
  | .send env now plaintext => ((send env now plaintext).run s).final
  | .receive env raw => ((receive env raw).run s).final
  | .receiveAck env raw => ((receiveAck env raw).run s).final
  | .processSack sack => { s with channel := (s.channel.processSack sack).1 }
  | .getRetransmissions due sent =>
    { s with channel := ((Channel.getRetransmissions due sent).run s.channel).final }
  | .buildSackAck env sack => ((buildSackAck env sack).run s).final

/-- The DATA packet that an act has accepted. -/
def accepted (s : ChannelEnd C) : ChannelAct → List Bytes
  | .receive env raw =>
    match Packet.fromBytes env.parseMs raw, ((receive env raw).run s).returned with
    | .ok p, some _ => if p.ptype = .data then [raw] else []
    | _, _ => []
  | _ => []

/-- The packet is acknowledged as things stand, and the receive side is left
    alone. -/
def Reacknowledges (s : ChannelEnd C) (env : Env) (raw : Bytes) : Prop :=
  ∃ s', (receive env raw).run s = .ok (none, s.channel.buildSack) s' ∧
    s'.channel.recvNext = s.channel.recvNext ∧ s'.channel.recvBuffer = s.channel.recvBuffer

end ChannelEnd

/-- No act of a channel makes a session forget a number. -/
theorem step_carries (s : ChannelEnd C) (a : ChannelAct) :
    Carries s.endpoint.device (s.step a).endpoint.device := by
  -- An act draws a number, receives a packet or leaves the device alone.
  cases a with
  | processSack sack => exact carries_refl _
  | getRetransmissions due sent => exact carries_refl _
  | send env now plaintext =>
      have hout := ChannelEnd.send_outcome env now plaintext s
      simp only [ChannelEnd.step]
      generalize (ChannelEnd.send env now plaintext).run s = r at hout
      cases hout with
      | full => exact carries_refl _
      | refused => exact carries_refl _
      | spoilt peerId t x hpeer hget => exact carries_advanced _ peerId t hget
      | sent peerId t p wire hroom hpeer hget => exact carries_advanced _ peerId t hget
  | receive env raw =>
      have hout := ChannelEnd.receive_outcome env raw s
      simp only [ChannelEnd.step]
      generalize (ChannelEnd.receive env raw).run s = r at hout
      cases hout with
      | refused => exact carries_refl _
      | garbled x p d hrec => exact carries_received _ _ _ _ _ hrec
      | accepted p d plaintext hrec => exact carries_received _ _ _ _ _ hrec
  | receiveAck env raw =>
      simp only [ChannelEnd.step]
      rcases ChannelEnd.receiveAck_final env raw s with h | ⟨p, d, hrec, h | ⟨sack, h⟩⟩
      · rw [h]
        exact carries_refl _
      · rw [h]
        exact carries_received _ _ _ _ _ hrec
      · rw [h]
        exact carries_received _ _ _ _ _ hrec
  | buildSackAck env sack =>
      simp only [ChannelEnd.step]
      rcases ChannelEnd.buildSackAck_final env sack s with h | ⟨peerId, t, _, hget, h⟩
      · rw [h]
        exact carries_refl _
      · rw [h]
        exact carries_advanced _ peerId t hget

/-- One end of a channel with the packets it has accepted. -/
structure Receiver (C : Primitives) where
  channelEnd : ChannelEnd C
  log : List Bytes

namespace Receiver

/-- One act, recorded. -/
def step (r : Receiver C) (a : ChannelAct) : Receiver C :=
  ⟨r.channelEnd.step a, r.channelEnd.accepted a ++ r.log⟩

/-- Every accepted packet is DATA, its sender has a session, and its number is
    in the window there. -/
def Noted (r : Receiver C) : Prop :=
  ∀ raw ∈ r.log, wireType raw = .ok .data ∧
    ∃ s, r.channelEnd.endpoint.device.sessions.get? (wireSender raw) = some s ∧
      s.window.Seen replayWindow (wireSequence raw)

end Receiver

/-- A DATA packet that is accepted is recorded in its sender's session. -/
theorem accepted_noted (s : ChannelEnd C) (a : ChannelAct) (raw : Bytes)
    (h : raw ∈ s.accepted a) : wireType raw = .ok .data ∧
    ∃ t, (s.step a).endpoint.device.sessions.get? (wireSender raw) = some t ∧
      t.window.Seen replayWindow (wireSequence raw) := by
  cases a with
  | send => simp only [ChannelEnd.accepted, List.not_mem_nil] at h
  | receiveAck => simp only [ChannelEnd.accepted, List.not_mem_nil] at h
  | processSack => simp only [ChannelEnd.accepted, List.not_mem_nil] at h
  | getRetransmissions => simp only [ChannelEnd.accepted, List.not_mem_nil] at h
  | buildSackAck => simp only [ChannelEnd.accepted, List.not_mem_nil] at h
  | receive env raw' =>
      have hout := ChannelEnd.receive_outcome env raw' s
      simp only [ChannelEnd.accepted] at h
      simp only [ChannelEnd.step]
      -- The packet was accepted, so it was parsed, received and decrypted.
      generalize (ChannelEnd.receive env raw').run s = r at hout h
      cases hparse : Packet.fromBytes env.parseMs raw' with
      | error x =>
          rw [hparse] at h
          simp only [List.not_mem_nil] at h
      | ok q =>
          rw [hparse] at h
          cases hout with
          | refused => simp only [EStateM.Result.returned, List.not_mem_nil] at h
          | garbled => simp only [EStateM.Result.returned, List.not_mem_nil] at h
          | accepted p d plaintext hrec hplain =>
              simp only [EStateM.Result.returned] at h
              -- What the record parses is what the device has parsed.
              have heq : p = q :=
                Except.ok.inj ((Device.received_parse _ _ _ _ _ hrec).symm.trans hparse)
              subst heq
              by_cases hdata : p.ptype = .data
              · rw [if_pos hdata, List.mem_singleton] at h
                subst h
                rcases Packet.fromBytes_wire env.parseMs raw p hparse with
                  ⟨hsender, hseq, htype, _⟩
                rw [wireSender, ← hsender, wireSequence, ← hseq, wireType, htype, hdata]
                refine ⟨rfl, ?_⟩
                cases hrec with
                | hello _ hello =>
                    rw [hdata] at hello
                    simp only [reduceCtorEq] at hello
                | pending key _ _ hnone =>
                    -- Without a session of the sender nothing decrypts.
                    rcases hplain with ⟨t, ht, _⟩
                    rw [hnone] at ht
                    simp only [reduceCtorEq] at ht
                | session t =>
                    refine ⟨t.recorded p.sequence, Dict.get?_set_self _ _ _, ?_⟩
                    exact SeqWindow.seen_record_self replayWindow t.window p.sequence
              · rw [if_neg hdata] at h
                simp only [List.not_mem_nil] at h

/-- Every act keeps the accepted packets noted. -/
theorem step_noted (r : Receiver C) (a : ChannelAct) (hr : r.Noted) : (r.step a).Noted := by
  intro raw hraw
  rcases List.mem_append.mp hraw with hnew | hold
  · exact accepted_noted r.channelEnd a raw hnew
  · -- An older packet stays in the window, because no act forgets.
    rcases hr raw hold with ⟨htype, s, hs, hseen⟩
    rcases step_carries r.channelEnd a _ s hs with ⟨s', hs', hkeep⟩
    exact ⟨htype, s', hs', hkeep _ hseen⟩

/-- A packet whose number is in the window of its sender is refused. -/
theorem retransmission_raises (s : ChannelEnd C) (env : Env) (raw : Bytes) (t : Session)
    (hget : s.endpoint.device.sessions.get? (wireSender raw) = some t)
    (hseen : t.window.Seen replayWindow (wireSequence raw)) (hdata : wireType raw = .ok .data) :
    ∃ x, (ChannelEnd.receive env raw).run s = .error x s := by
  rcases Device.receivePacket_cases env raw s.endpoint.device with ⟨p, d, hrec⟩ | ⟨x, hx⟩
  · -- Reception would have had to admit a number that is in the window.
    exfalso
    have hparse := Device.received_parse _ _ _ _ _ hrec
    rcases Packet.fromBytes_wire env.parseMs raw p hparse with ⟨hsender, hseq, htype, _⟩
    rw [wireSender, ← hsender] at hget
    rw [wireSequence, ← hseq] at hseen
    rw [wireType, htype, Except.ok.injEq] at hdata
    cases hrec with
    | hello _ hello =>
        rw [hello] at hdata
        simp only [reduceCtorEq] at hdata
    | pending key _ _ hnone =>
        rw [hnone] at hget
        simp only [reduceCtorEq] at hget
    | session u _ _ hu _ hadmits =>
        rw [hget, Option.some.injEq] at hu
        subst hu
        exact SeqWindow.not_admits_of_seen replayWindow hseen hadmits.2
  · refine ⟨x, ?_⟩
    simp only [ChannelEnd.receive, EStateM.run_bind, ChannelEnd.run_onDevice, hx]

/-- Whatever has happened to an end of a channel, a DATA packet it has accepted
    is refused when it comes again, whatever the time, with nothing changed;
    so it is never acknowledged again. -/
theorem never_reacknowledged (s₀ : ChannelEnd C) (acts : List ChannelAct) (env : Env)
    (raw : Bytes) (hmem : raw ∈ (acts.foldl Receiver.step ⟨s₀, []⟩).log) :
    (∃ x, (ChannelEnd.receive env raw).run (acts.foldl Receiver.step ⟨s₀, []⟩).channelEnd
      = .error x (acts.foldl Receiver.step ⟨s₀, []⟩).channelEnd) ∧
    ¬ (acts.foldl Receiver.step ⟨s₀, []⟩).channelEnd.Reacknowledges env raw := by
  have hstart : (⟨s₀, []⟩ : Receiver C).Noted := fun raw h => by
    simp only [List.not_mem_nil] at h
  have hnoted := along_invariant Receiver.Noted (fun r a hr (_ : True) => step_noted r a hr)
    ⟨s₀, []⟩ acts hstart (along_true _ _)
  rcases hnoted raw hmem with ⟨htype, t, ht, hseen⟩
  have hraise := retransmission_raises _ env raw t ht hseen htype
  refine ⟨hraise, ?_⟩
  rintro ⟨s', hs', _⟩
  rcases hraise with ⟨x, hx⟩
  rw [hx] at hs'
  simp only [reduceCtorEq] at hs'

/-- Two ends of a channel under the toy primitives, after a handshake. -/
def toyEnds (channel : Channel) : ChannelEnd toyPrimitives × ChannelEnd toyPrimitives :=
  let (alice, bob, _) := toyHandshake (Host.create toyPrimitives [1])
    (Host.create toyPrimitives [7]) 0 0
  (⟨channel, alice.endpoint 0⟩, ⟨channel, bob.endpoint 0⟩)

/-- The bytes of a message sent over a channel. -/
def sentBytes (s : ChannelEnd C) (env : Env) (plaintext : Bytes) : Bytes :=
  match (ChannelEnd.send env 0 plaintext).run s with
  | .ok (some (_, wire)) _ => wire
  | _ => []

/-- One message, received once. -/
def oneReceived : List ChannelAct := [.receive toyEnv (sentBytes (toyEnds {}).1 toyEnv [42])]

/-- The packet was accepted, and is refused at the next delivery. -/
theorem accepted_packet_refused :
    ∃ x, (ChannelEnd.receive toyEnv (sentBytes (toyEnds {}).1 toyEnv [42])).run
        (oneReceived.foldl Receiver.step ⟨(toyEnds {}).2, []⟩).channelEnd
      = .error x (oneReceived.foldl Receiver.step ⟨(toyEnds {}).2, []⟩).channelEnd :=
  (never_reacknowledged (toyEnds {}).2 oneReceived toyEnv _ (by decide +kernel)).1

/-- In time and with identical bytes, the retransmission is not acknowledged. -/
theorem retransmission_not_reacknowledged :
    sentBytes (toyEnds {}).1 toyEnv [42] ∈
        (oneReceived.foldl Receiver.step ⟨(toyEnds {}).2, []⟩).log ∧
      ¬ (oneReceived.foldl Receiver.step ⟨(toyEnds {}).2, []⟩).channelEnd.Reacknowledges toyEnv
        (sentBytes (toyEnds {}).1 toyEnv [42]) := by
  have hrun : sentBytes (toyEnds {}).1 toyEnv [42] ∈
        (oneReceived.foldl Receiver.step ⟨(toyEnds {}).2, []⟩).log ∧
      ((ChannelEnd.receive toyEnv (sentBytes (toyEnds {}).1 toyEnv [42])).run
        (oneReceived.foldl Receiver.step ⟨(toyEnds {}).2, []⟩).channelEnd).returned = none := by
    decide +kernel
  refine ⟨hrun.1, ?_⟩
  rintro ⟨s', hs', _⟩
  have hnone := hrun.2
  rw [hs'] at hnone
  simp only [EStateM.Result.returned, reduceCtorEq] at hnone

end Ztlnp
