import Ztlnp.Theory.Bench
import Ztlnp.Theory.Rotating

/-!
# The Stop-and-Wait Channel Between Two Ends

Messages of a `ReliableChannel` on their way to `receive_data`, and the ACK
packets on their way back.

The channel has no receive side. The peer takes the bytes with `receive_data`,
builds an ACK around the number of the packet when it likes, and the sender
reads the number out of the ACK as the usage notes say: it parses the packet
and decrypts it, and does not receive it. So an ACK is checked for the key of
the session alone, and the same ACK can be heard any number of times.

The network is two lists, of everything that was handed to it in either
direction. Any of it may be delivered at any time, any number of times, or
never.

What the channel promises holds all the same. A message is returned at most
once, under its own number and as it was sent. An acknowledgement retires only
what was returned. And a message that is neither pending nor reported by a
`RetransmitError` was returned. The converse of the last is not promised: a
message that was returned is reported all the same when its ACK is lost, since
the peer refuses the retransmission as a replay and has nothing to acknowledge.

## Main definitions

* `ReliableEnd.receiveAck`: What the usage notes do with an ACK packet.
* `Endpoint.acknowledgement`: `build_ack_packet` for the peer.
* `Arq`, `ArqAct`, `Arq.step`: The machine.
* `Arq.Sound`: What holds in every run.
* `Arq.Moved`: What a step can do.

## Theorems

* `acknowledgement_builds`: What an ACK carries.
* `receiveAck_wraps`: Hearing an ACK retires the number in it.
* `arq_moved`, `moved_sound`: Every step is in the inventory, and keeps the
  machine sound.
* `stop_and_wait_delivers_once`: The three promises.
-/

namespace Ztlnp

variable {C : Primitives}

/-- `struct.unpack("!I", payload)[0]`. -/
def unpackUInt32 (payload : Bytes) : Except Exn Nat :=
  if payload.length = 4 then .ok (beDecode payload)
  else .error ⟨.structError, "unpack requires a buffer of 4 bytes"⟩

theorem unpackUInt32_packed (n : Nat) (h : n < 256 ^ 4) : unpackUInt32 (beEncode 4 n) = .ok n := by
  rw [unpackUInt32, if_pos (beEncode_length 4 n), beDecode_beEncode 4 n h]

namespace ReliableEnd

/-- What the usage notes do with an ACK packet: parse it, decrypt it, and process
    the number in it. Neither its signature nor its own number is checked. -/
def receiveAck (nowMs : Nat) (raw : Bytes) : EStateM Exn (ReliableEnd C) Bool := do
  let packet ← ofExcept (Packet.fromBytes nowMs raw)
  let payload ← onProtocol (Endpoint.onDevice (Device.decryptPacket packet))
  let acked ← ofExcept (unpackUInt32 payload)
  let s ← get
  set { s with channel := (s.channel.processAck acked).1 }
  return (s.channel.processAck acked).2

end ReliableEnd

namespace Endpoint

/-- `build_ack_packet` for the peer of the protocol, in bytes. -/
def acknowledgement (env : Env) (acked : Nat) : EStateM Exn (Endpoint C) Bytes := do
  let peerId ← requirePeer
  let packet ← onDevice (Device.buildAckPacket env peerId acked)
  ofExcept packet.toBytes

end Endpoint

/-- A sender with a stop-and-wait channel and a receiver, with everything that was
    sent, handed to the network in either direction, returned, retired by an
    acknowledgement and reported by an exception. -/
structure Arq (C : Primitives) where
  sender : ReliableEnd C
  receiver : Endpoint C
  sent : List (Nat × Bytes) := []
  wires : List Bytes := []
  returned : List (Nat × Bytes) := []
  acks : List Bytes := []
  retired : List Nat := []
  reported : List Nat := []
deriving DecidableEq

/-- What can happen. Deliveries name what is delivered by its place in the
    network, and an acknowledgement names a message that was returned. -/
inductive ArqAct
  | send (env : Env) (now : Rat) (plaintext : Bytes)
  | poll (due sent : Nat → Rat)
  | deliver (env : Env) (i : Nat)
  | acknowledge (env : Env) (i : Nat)
  | hearAck (nowMs : Nat) (i : Nat)

namespace Arq

/-- Two ends between which nothing has happened yet. -/
def opened (a : ReliableEnd C) (b : Endpoint C) : Arq C := { sender := a, receiver := b }

/-- The numbers that have left the pending packets. -/
def left (before after : ReliableChannel) : List Nat :=
  before.pending.keys.filter (fun n => after.pending.get? n = none)

/-- One step. -/
def step (x : Arq C) : ArqAct → Arq C
  | .send env now plaintext =>
    match (ReliableEnd.send env now plaintext).run x.sender with
    | .ok (n, wire) a =>
      { x with sender := a, sent := x.sent ++ [(n, plaintext)], wires := x.wires ++ [wire] }
    | .error _ a => { x with sender := a }
  | .poll due sent =>
    match (ReliableChannel.getRetransmissions due sent).run x.sender.channel with
    | .ok again c => { x with sender := { x.sender with channel := c }, wires := x.wires ++ again }
    | .error _ c =>
      { x with
        sender := { x.sender with channel := c }
        reported := x.reported ++ left x.sender.channel c }
  | .deliver env i =>
    match x.wires[i]? with
    | none => x
    | some raw =>
      match (Endpoint.receiveData env raw).run x.receiver with
      | .ok plaintext b =>
        { x with receiver := b, returned := x.returned ++ [(wireSequence raw, plaintext)] }
      | .error _ b => { x with receiver := b }
  | .acknowledge env i =>
    match x.returned[i]? with
    | none => x
    | some m =>
      match (Endpoint.acknowledgement env m.1).run x.receiver with
      | .ok wire b => { x with receiver := b, acks := x.acks ++ [wire] }
      | .error _ b => { x with receiver := b }
  | .hearAck nowMs i =>
    match x.acks[i]? with
    | none => x
    | some raw =>
      match (ReliableEnd.receiveAck nowMs raw).run x.sender with
      | .ok _ a =>
        { x with sender := a, retired := x.retired ++ left x.sender.channel a.channel }
      | .error _ a => { x with sender := a }

/-- What holds in every run. What was returned was sent and is seen by the replay
    window, ACKs carry numbers that were returned, and every number that was sent
    is pending, retired or reported. -/
structure Sound (x : Arq C) (s t : Session) : Prop where
  forth : Paired x.sender.endpoint x.receiver s t
  back : Paired x.receiver x.sender.endpoint t s
  ascending : Ascending x.sent
  drawn : ∀ i ∈ x.sent, i.1 < s.localSequence
  wires : ∀ raw ∈ x.wires, ∃ n plaintext p, (n, plaintext) ∈ x.sent ∧ p.ptype = .data ∧
    Wraps C x.sender.endpoint.device.deviceId t raw n plaintext p
  pending : ∀ n w, x.sender.channel.pending.get? n = some w → w.packetBytes ∈ x.wires
  returned : ∀ m ∈ x.returned, m ∈ x.sent ∧ t.window.Seen replayWindow m.1
  once : (x.returned.map Prod.fst).Nodup
  acks : ∀ raw ∈ x.acks, ∃ n ∈ x.returned.map Prod.fst, n < 256 ^ 4 ∧ ∃ k p,
    Wraps C x.receiver.device.deviceId s raw k (beEncode 4 n) p
  retired : ∀ n ∈ x.retired, n ∈ x.returned.map Prod.fst
  accounted : ∀ i ∈ x.sent, x.sender.channel.pending.get? i.1 ≠ none ∨ i.1 ∈ x.retired ∨
    i.1 ∈ x.reported

/-- What a step can do to the machine and to the two sessions. -/
inductive Moved (x : Arq C) (s t : Session) : Arq C → Session → Session → Prop
  | idle : Moved x s t x s t
  /-- A number was drawn and no packet came of it. -/
  | spoilt : Moved x s t { x with sender := { x.sender with
      endpoint := x.sender.endpoint.advanced x.receiver.device.deviceId s } }
      { s with localSequence := s.localSequence + 1 } t
  | sent (now : Rat) (plaintext wire : Bytes) (p : Packet) (hdata : p.ptype = .data)
      (hw : Wraps C x.sender.endpoint.device.deviceId t wire s.localSequence plaintext p) :
      Moved x s t
        { x with
          sender := ⟨x.sender.channel.enqueued s.localSequence wire now,
            x.sender.endpoint.advanced x.receiver.device.deviceId s⟩
          sent := x.sent ++ [(s.localSequence, plaintext)]
          wires := x.wires ++ [wire] }
        { s with localSequence := s.localSequence + 1 } t
  | polled (c : ReliableChannel) (more : List Bytes) (lost : List Nat)
      (hkept : ∀ n w, c.pending.get? n = some w →
        ∃ w', x.sender.channel.pending.get? n = some w' ∧ w.packetBytes = w'.packetBytes)
      (hmore : ∀ raw ∈ more, raw ∈ x.wires)
      (hlost : ∀ n, x.sender.channel.pending.get? n ≠ none → c.pending.get? n ≠ none ∨ n ∈ lost) :
      Moved x s t
        { x with
          sender := { x.sender with channel := c }
          wires := x.wires ++ more
          reported := x.reported ++ lost } s t
  | returned (n : Nat) (plaintext : Bytes) (hmem : (n, plaintext) ∈ x.sent)
      (hadmits : t.window.Admits replayWindow n) :
      Moved x s t
        { x with
          receiver := x.receiver.noted x.sender.endpoint.device.deviceId t n
          returned := x.returned ++ [(n, plaintext)] } s (t.recorded n)
  /-- The receiver draws a number, for an ACK or for nothing. -/
  | replied (more : List Bytes)
      (hmore : ∀ raw ∈ more, ∃ n ∈ x.returned.map Prod.fst, n < 256 ^ 4 ∧ ∃ k p,
        Wraps C x.receiver.device.deviceId s raw k (beEncode 4 n) p) :
      Moved x s t
        { x with
          receiver := x.receiver.advanced x.sender.endpoint.device.deviceId t
          acks := x.acks ++ more } s { t with localSequence := t.localSequence + 1 }
  | heard (n : Nat) (hn : n ∈ x.returned.map Prod.fst) :
      Moved x s t
        { x with
          sender := { x.sender with channel := (x.sender.channel.processAck n).1 }
          retired := x.retired ++ left x.sender.channel (x.sender.channel.processAck n).1 } s t

end Arq

/-- Drawing a number at one end leaves the other direction paired. -/
theorem paired_advanced_back (a b : Endpoint C) (s t : Session) (h : Paired b a t s) :
    Paired b (a.advanced b.device.deviceId s) t
      { s with localSequence := s.localSequence + 1 } :=
  ⟨h.peerId, h.sending, Dict.get?_set_self _ _ _, h.sessionKey, h.macKey, h.identity, h.largest,
    h.recent⟩

/-- So does recording a number. -/
theorem paired_noted_back (a b : Endpoint C) (s t : Session) (n : Nat) (h : Paired b a t s) :
    Paired (b.noted a.device.deviceId t n) a (t.recorded n) s :=
  ⟨h.peerId, Dict.get?_set_self _ _ _, h.receiving, h.sessionKey, h.macKey, h.identity, h.largest,
    h.recent⟩

/-- An ACK draws a number and carries the number it was built for. -/
theorem acknowledgement_builds (env : Env) (acked : Nat) (e : Endpoint C) :
    ChannelEnd.Builds (fun peerId s p => acked < 256 ^ 4 ∧ ChannelEnd.SealedAs e.device env .ack
      flagEncrypted (beEncode 4 acked) Device.signed peerId s p) e
      ((Endpoint.acknowledgement env acked).run e) := by
  simp only [Endpoint.acknowledgement, EStateM.run_bind]
  rcases Endpoint.requirePeer_cases e with ⟨peerId, hpeer, hreq⟩ | ⟨_, x, hreq⟩
  · rw [hreq]
    simp only [Endpoint.run_onDevice, Device.buildAckPacket, EStateM.run_bind]
    cases hsess : (Device.getSession peerId).run e.device with
    | error x d =>
        rw [(Device.getSession_eq_error _ _ _ _ hsess).2]
        exact .refused x
    | ok t d =>
        rcases (Device.getSession_eq_ok _ _ _ _).mp hsess with ⟨hget, rfl⟩
        simp only
        by_cases hfits : acked < 256 ^ 4
        · rw [packUInt, if_pos hfits]
          simp only [run_ofExcept_ok]
          have hend := (ChannelEnd.sealedBytes_builds env .ack flagEncrypted peerId
            (beEncode 4 acked) Device.signed e hpeer).mono (fun _ _ _ h => And.intro hfits h)
          simp only [ChannelEnd.sealedBytes, EStateM.run_bind, Endpoint.run_onDevice] at hend
          exact hend
        · -- A number that cannot be packed raises before one is drawn.
          rw [packUInt, if_neg hfits]
          exact .refused _
  · rw [hreq]
    exact .refused x

/-- Hearing an ACK of the session processes the number in it. -/
theorem receiveAck_acks (a : ReliableEnd C) (nowMs : Nat) (id raw : Bytes) (s : Session)
    (n k : Nat) (p : Packet) (hn : n < 256 ^ 4) (hw : Wraps C id s raw k (beEncode 4 n) p)
    (hget : a.endpoint.device.sessions.get? id = some s) :
    (ReliableEnd.receiveAck nowMs raw).run a
      = .ok (a.channel.processAck n).2 { a with channel := (a.channel.processAck n).1 } := by
  have hplain : a.endpoint.device.Decrypts p (beEncode 4 n) := by
    refine ⟨s, ?_, hw.decrypts⟩
    rw [hw.senderId]
    exact hget
  have hdec := (Device.decryptPacket_eq_ok p _ _ _).mpr ⟨hplain, rfl⟩
  simp only [ReliableEnd.receiveAck, EStateM.run_bind, hw.parses nowMs, run_ofExcept_ok,
    ReliableEnd.onProtocol, run_zoom, Endpoint.run_onDevice, hdec, unpackUInt32_packed n hn]
  rfl

namespace Arq

variable {x : Arq C} {s t : Session}

/-- What is left of the pending packets after a poll, and what it reports. -/
theorem poll_moved (h : x.Sound s t) (due sent : Nat → Rat) :
    x.Moved s t (x.step (.poll due sent)) s t := by
  have hswept : ∀ n w, ((x.sender.channel.timer due sent).swept x.sender.channel.pending).get? n
      = some w → ∃ w', x.sender.channel.pending.get? n = some w' ∧
        w.packetBytes = w'.packetBytes := by
    intro n w hw
    rcases Timer.swept_entry _ _ n w hw with ⟨w', hw', _, hbytes, _⟩
    exact ⟨w', hw', hbytes⟩
  simp only [step, ReliableChannel.getRetransmissions_polls]
  by_cases hlost : (x.sender.channel.timer due sent).lost x.sender.channel.pending = []
  · rw [if_pos hlost]
    have hmoved := Moved.polled (x := x) (s := s) (t := t)
      { x.sender.channel with
        pending := (x.sender.channel.timer due sent).swept x.sender.channel.pending }
      (((x.sender.channel.timer due sent).overdue x.sender.channel.pending).entries.map
        (fun e => e.2.packetBytes)) [] hswept ?_ ?_
    · rw [List.append_nil] at hmoved
      exact hmoved
    · -- Only what is pending is sent again, and that was sent before.
      intro raw hraw
      rcases List.mem_map.mp hraw with ⟨⟨n, w⟩, hmem, rfl⟩
      have hget := (Dict.get?_eq_some _ _ _).mpr hmem
      rw [Timer.overdue, Dict.get?_filter, Option.filter_eq_some_iff] at hget
      exact h.pending n w hget.1
    · intro n hn
      left
      rw [Timer.get?_swept, hlost, if_neg List.not_mem_nil]
      simpa only [ne_eq, Option.map_eq_none_iff] using hn
  · rw [if_neg hlost]
    have hmoved := Moved.polled (x := x) (s := s) (t := t)
      { x.sender.channel with
        pending := (x.sender.channel.timer due sent).swept x.sender.channel.pending } []
      (left x.sender.channel { x.sender.channel with
        pending := (x.sender.channel.timer due sent).swept x.sender.channel.pending })
      hswept (fun raw hraw => absurd hraw List.not_mem_nil) ?_
    · rw [List.append_nil] at hmoved
      exact hmoved
    · intro n hn
      by_cases hleft : ((x.sender.channel.timer due sent).swept x.sender.channel.pending).get? n
          = none
      · right
        rw [left, List.mem_filter, Dict.mem_keys]
        exact ⟨Option.ne_none_iff_exists'.mp hn, decide_eq_true hleft⟩
      · exact Or.inl hleft

/-- Every step of a sound machine is in the inventory. -/
theorem arq_moved (h : x.Sound s t) (a : ArqAct) : ∃ s' t', x.Moved s t (x.step a) s' t' := by
  cases a with
  | poll due sent => exact ⟨s, t, poll_moved h due sent⟩
  | send env now plaintext =>
      have hbuild := ChannelEnd.dataPacket_builds env x.sender.channel.useMac plaintext
        x.sender.endpoint
      simp only [step, ReliableEnd.send_run]
      generalize (ChannelEnd.dataPacket env x.sender.channel.useMac plaintext).run
        x.sender.endpoint = r at hbuild
      cases hbuild with
      | refused => exact ⟨s, t, .idle⟩
      | spoilt peerId u y hpeer hget =>
          rcases paired_session _ _ s t u peerId h.forth hpeer hget with ⟨rfl, rfl⟩
          exact ⟨_, t, .spoilt⟩
      | built peerId u p wire hpeer hget hseal hwire =>
          rcases paired_session _ _ s t u peerId h.forth hpeer hget with ⟨rfl, rfl⟩
          have hw := dataSealed_wraps _ env _ _ plaintext wire u t p hseal hwire
            h.forth.sessionKey h.forth.macKey h.forth.identity
          have hdata : p.ptype = .data :=
            (Device.sealPacket_eq_ok _ _ _ _ _ _ _ _ _ _ hseal).1.ptype
          -- The channel reads the number back from the bytes.
          simp only [p.sequence_at_offset wire hwire, hw.sequence]
          exact ⟨_, t, .sent now plaintext wire p hdata hw⟩
  | deliver env i =>
      simp only [step]
      cases hraw : x.wires[i]? with
      | none => exact ⟨s, t, .idle⟩
      | some raw =>
          rcases h.wires raw (List.mem_of_getElem? hraw) with ⟨n, plaintext, p, hmem, hdata, hw⟩
          simp only
          rcases Endpoint.requireEstablished_cases x.receiver with ⟨hest, _⟩ | ⟨_, y, hreq⟩
          · rcases receiveData_wraps x.receiver env _ raw plaintext t n p hest hw hdata
              h.forth.receiving with ⟨hadmits, hrun⟩ | ⟨_, y, hrun⟩
            · rw [hrun]
              simp only [hw.wireSequence_eq]
              exact ⟨s, _, .returned n plaintext hmem hadmits.2⟩
            · rw [hrun]
              exact ⟨s, t, .idle⟩
          · rw [Endpoint.receiveData, EStateM.run_bind, hreq]
            exact ⟨s, t, .idle⟩
  | acknowledge env i =>
      simp only [step]
      cases hmsg : x.returned[i]? with
      | none => exact ⟨s, t, .idle⟩
      | some m =>
          have hn := List.mem_map_of_mem (f := Prod.fst) (List.mem_of_getElem? hmsg)
          have hbuild := acknowledgement_builds env m.1 x.receiver
          simp only
          generalize (Endpoint.acknowledgement env m.1).run x.receiver = r at hbuild
          cases hbuild with
          | refused => exact ⟨s, t, .idle⟩
          | spoilt peerId u y hpeer hget =>
              rcases paired_session _ _ t s u peerId h.back hpeer hget with ⟨rfl, rfl⟩
              have hmoved := Moved.replied (x := x) (s := s) (t := u) []
                (fun raw hraw => absurd hraw List.not_mem_nil)
              rw [List.append_nil] at hmoved
              exact ⟨s, _, hmoved⟩
          | built peerId u p wire hpeer hget hseal hwire =>
              rcases paired_session _ _ t s u peerId h.back hpeer hget with ⟨rfl, rfl⟩
              have hw := signed_wraps _ env .ack _ (beEncode 4 m.1) wire u s _ p (by decide)
                hseal.2 hwire h.back.sessionKey h.back.identity
              refine ⟨s, _, .replied [wire] (fun raw hraw => ?_)⟩
              rw [List.mem_singleton.mp hraw]
              exact ⟨m.1, hn, hseal.1, _, p, hw⟩
  | hearAck nowMs i =>
      simp only [step]
      cases hraw : x.acks[i]? with
      | none => exact ⟨s, t, .idle⟩
      | some raw =>
          rcases h.acks raw (List.mem_of_getElem? hraw) with ⟨n, hn, hfits, k, p, hw⟩
          simp only [receiveAck_acks x.sender nowMs _ raw s n k p hfits hw h.forth.sending]
          exact ⟨s, t, .heard n hn⟩

/-- A number that is drawn for nothing is told apart from those that were sent. -/
theorem sound_spoilt (h : x.Sound s t) :
    Sound { x with sender := { x.sender with
      endpoint := x.sender.endpoint.advanced x.receiver.device.deviceId s } }
      { s with localSequence := s.localSequence + 1 } t := by
  refine ⟨paired_advanced _ _ s t h.forth, paired_advanced_back _ _ s t h.back, h.ascending,
    fun i hi => Nat.lt_succ_of_lt (h.drawn i hi), h.wires, h.pending, h.returned, h.once,
    fun raw hraw => ?_, h.retired, h.accounted⟩
  rcases h.acks raw hraw with ⟨n, hn, hfits, k, p, hw⟩
  exact ⟨n, hn, hfits, k, p, hw.of_keys rfl rfl rfl⟩

/-- A message that is sent is pending, and no other one leaves. -/
theorem accounted_enqueued (h : x.Sound s t) (now : Rat) (plaintext wire : Bytes) (i : Nat × Bytes)
    (hi : i ∈ x.sent ++ [(s.localSequence, plaintext)]) :
    (x.sender.channel.enqueued s.localSequence wire now).pending.get? i.1 ≠ none ∨
      i.1 ∈ x.retired ∨ i.1 ∈ x.reported := by
  simp only [ReliableChannel.enqueued, Dict.get?_set]
  by_cases heq : i.1 = s.localSequence
  · left
    rw [if_pos heq]
    exact Option.some_ne_none _
  · rw [if_neg heq]
    rcases List.mem_append.mp hi with hi | hi
    · exact h.accounted i hi
    · rw [List.mem_singleton.mp hi] at heq
      exact absurd rfl heq

theorem sound_sent (h : x.Sound s t) (now : Rat) (plaintext wire : Bytes) (p : Packet)
    (hdata : p.ptype = .data)
    (hw : Wraps C x.sender.endpoint.device.deviceId t wire s.localSequence plaintext p) :
    Sound { x with
      sender := ⟨x.sender.channel.enqueued s.localSequence wire now,
        x.sender.endpoint.advanced x.receiver.device.deviceId s⟩
      sent := x.sent ++ [(s.localSequence, plaintext)]
      wires := x.wires ++ [wire] }
      { s with localSequence := s.localSequence + 1 } t := by
  refine ⟨paired_advanced _ _ s t h.forth, paired_advanced_back _ _ s t h.back,
    ascending_concat _ _ _ h.ascending h.drawn, fun i hi => ?_, fun raw hraw => ?_,
    fun n w hn => ?_, fun m hm => ?_, h.once, fun raw hraw => ?_, h.retired,
    accounted_enqueued h now plaintext wire⟩
  · rcases List.mem_append.mp hi with hi | hi
    · exact Nat.lt_succ_of_lt (h.drawn i hi)
    · rw [List.mem_singleton.mp hi]
      exact Nat.lt_succ_self _
  · rcases List.mem_append.mp hraw with hraw | hraw
    · rcases h.wires raw hraw with ⟨n, y, q, hmem, hq, hqw⟩
      exact ⟨n, y, q, List.mem_append_left _ hmem, hq, hqw⟩
    · rw [List.mem_singleton.mp hraw]
      exact ⟨_, plaintext, p, List.mem_append_right _ (List.mem_singleton_self _), hdata, hw⟩
  · -- What is pending was on the wire before, or is the new packet.
    simp only [ReliableChannel.enqueued, Dict.get?_set] at hn
    by_cases heq : n = s.localSequence
    · rw [if_pos heq, Option.some.injEq] at hn
      rw [← hn]
      exact List.mem_append_right _ (List.mem_singleton_self _)
    · rw [if_neg heq] at hn
      exact List.mem_append_left _ (h.pending n w hn)
  · exact ⟨List.mem_append_left _ (h.returned m hm).1, (h.returned m hm).2⟩
  · rcases h.acks raw hraw with ⟨n, hn, hfits, k, q, hq⟩
    exact ⟨n, hn, hfits, k, q, hq.of_keys rfl rfl rfl⟩

/-- A poll hands out what was sent, and reports what it drops. -/
theorem sound_polled (h : x.Sound s t) (c : ReliableChannel) (more : List Bytes) (lost : List Nat)
    (hkept : ∀ n w, c.pending.get? n = some w →
      ∃ w', x.sender.channel.pending.get? n = some w' ∧ w.packetBytes = w'.packetBytes)
    (hmore : ∀ raw ∈ more, raw ∈ x.wires)
    (hlost : ∀ n, x.sender.channel.pending.get? n ≠ none → c.pending.get? n ≠ none ∨ n ∈ lost) :
    Sound { x with
      sender := { x.sender with channel := c }
      wires := x.wires ++ more
      reported := x.reported ++ lost } s t := by
  refine ⟨h.forth, h.back, h.ascending, h.drawn, fun raw hraw => ?_, fun n w hn => ?_,
    h.returned, h.once, h.acks, h.retired, fun i hi => ?_⟩
  · rcases List.mem_append.mp hraw with hraw | hraw
    · exact h.wires raw hraw
    · exact h.wires raw (hmore raw hraw)
  · rcases hkept n w hn with ⟨w', hw', hbytes⟩
    rw [hbytes]
    exact List.mem_append_left _ (h.pending n w' hw')
  · rcases h.accounted i hi with hpending | hretired | hreported
    · rcases hlost i.1 hpending with hstill | hnew
      · exact Or.inl hstill
      · exact Or.inr (Or.inr (List.mem_append_right _ hnew))
    · exact Or.inr (Or.inl hretired)
    · exact Or.inr (Or.inr (List.mem_append_left _ hreported))

/-- A message that the replay window admits was not returned before. -/
theorem sound_returned (h : x.Sound s t) (n : Nat) (plaintext : Bytes)
    (hmem : (n, plaintext) ∈ x.sent) (hadmits : t.window.Admits replayWindow n) :
    Sound { x with
      receiver := x.receiver.noted x.sender.endpoint.device.deviceId t n
      returned := x.returned ++ [(n, plaintext)] } s (t.recorded n) := by
  refine ⟨paired_noted _ _ s t n h.forth (h.drawn _ hmem), paired_noted_back _ _ s t n h.back,
    h.ascending, h.drawn, fun raw hraw => ?_, h.pending, fun m hm => ?_, ?_, fun raw hraw => ?_,
    fun k hk => ?_, h.accounted⟩
  · rcases h.wires raw hraw with ⟨m, y, q, hm, hq, hqw⟩
    exact ⟨m, y, q, hm, hq, hqw.recorded n⟩
  · rw [Session.recorded_window]
    rcases List.mem_append.mp hm with hm | hm
    · exact ⟨(h.returned m hm).1, SeqWindow.seen_record replayWindow n (h.returned m hm).2⟩
    · rw [List.mem_singleton.mp hm]
      exact ⟨hmem, SeqWindow.seen_record_self replayWindow _ n⟩
  · -- What was returned before is seen, and is not admitted again.
    rw [List.map_append, List.map_singleton, ← List.concat_eq_append]
    refine List.Nodup.concat (fun hold => ?_) h.once
    rcases List.mem_map.mp hold with ⟨m, hm, rfl⟩
    exact SeqWindow.not_admits_of_seen replayWindow (h.returned m hm).2 hadmits
  · rcases h.acks raw hraw with ⟨m, hm, hrest⟩
    rw [List.map_append]
    exact ⟨m, List.mem_append_left _ hm, hrest⟩
  · rw [List.map_append]
    exact List.mem_append_left _ (h.retired k hk)

theorem sound_replied (h : x.Sound s t) (more : List Bytes)
    (hmore : ∀ raw ∈ more, ∃ n ∈ x.returned.map Prod.fst, n < 256 ^ 4 ∧ ∃ k p,
      Wraps C x.receiver.device.deviceId s raw k (beEncode 4 n) p) :
    Sound { x with
      receiver := x.receiver.advanced x.sender.endpoint.device.deviceId t
      acks := x.acks ++ more } s { t with localSequence := t.localSequence + 1 } := by
  refine ⟨paired_advanced_back _ _ t s h.forth, paired_advanced _ _ t s h.back, h.ascending,
    h.drawn, fun raw hraw => ?_, h.pending, h.returned, h.once, fun raw hraw => ?_, h.retired,
    h.accounted⟩
  · rcases h.wires raw hraw with ⟨m, y, q, hm, hq, hqw⟩
    exact ⟨m, y, q, hm, hq, hqw.of_keys rfl rfl rfl⟩
  · rcases List.mem_append.mp hraw with hraw | hraw
    · exact h.acks raw hraw
    · exact hmore raw hraw

/-- The number in an ACK is the only one that leaves, if it was there. -/
theorem mem_left_processAck (c : ReliableChannel) (n k : Nat) :
    k ∈ left c (c.processAck n).1 ↔ k = n ∧ c.pending.get? n ≠ none := by
  rw [left, List.mem_filter, decide_eq_true_eq, Dict.mem_keys, ← Option.ne_none_iff_exists']
  simp only [ReliableChannel.processAck, Dict.get?_pop]
  by_cases hk : k = n
  · rw [hk]
    simp only [if_true, and_true, true_and]
  · simp only [hk, false_and, iff_false]
    exact fun h => h.1 h.2

theorem sound_heard (h : x.Sound s t) (n : Nat) (hn : n ∈ x.returned.map Prod.fst) :
    Sound { x with
      sender := { x.sender with channel := (x.sender.channel.processAck n).1 }
      retired := x.retired ++ left x.sender.channel (x.sender.channel.processAck n).1 } s t := by
  have hkeeps : ∀ k, k ≠ n → (x.sender.channel.processAck n).1.pending.get? k
      = x.sender.channel.pending.get? k := fun k hk => Dict.get?_pop_ne _ hk
  have hgone : (x.sender.channel.processAck n).1.pending.get? n = none :=
    Dict.get?_pop_self _ _
  refine ⟨h.forth, h.back, h.ascending, h.drawn, h.wires, fun k w hw => ?_, h.returned, h.once,
    h.acks, fun k hk => ?_, fun i hi => ?_⟩
  · by_cases hk : k = n
    · rw [hk, hgone] at hw
      simp only [reduceCtorEq] at hw
    · rw [hkeeps k hk] at hw
      exact h.pending k w hw
  · rcases List.mem_append.mp hk with hk | hk
    · exact h.retired k hk
    · rw [((mem_left_processAck _ n k).mp hk).1]
      exact hn
  · rcases h.accounted i hi with hpending | hretired | hreported
    · -- The message that is acknowledged goes from the pending to the retired ones.
      by_cases heq : i.1 = n
      · exact Or.inr (Or.inl (List.mem_append_right _
          ((mem_left_processAck _ n i.1).mpr ⟨heq, heq ▸ hpending⟩)))
      · left
        rw [hkeeps i.1 heq]
        exact hpending
    · exact Or.inr (Or.inl (List.mem_append_left _ hretired))
    · exact Or.inr (Or.inr hreported)

/-- Every step keeps the machine sound. -/
theorem moved_sound {x' : Arq C} {s' t' : Session} (h : x.Sound s t)
    (hmove : x.Moved s t x' s' t') : x'.Sound s' t' := by
  cases hmove with
  | idle => exact h
  | spoilt => exact sound_spoilt h
  | sent now plaintext wire p hdata hw => exact sound_sent h now plaintext wire p hdata hw
  | polled c more lost hkept hmore hlost => exact sound_polled h c more lost hkept hmore hlost
  | returned n plaintext hmem hadmits => exact sound_returned h n plaintext hmem hadmits
  | replied more hmore => exact sound_replied h more hmore
  | heard n hn => exact sound_heard h n hn

/-- Nothing was sent yet. -/
theorem opened_sound (a : ReliableEnd C) (b : Endpoint C) (hforth : Paired a.endpoint b s t)
    (hback : Paired b a.endpoint t s) (ha : a.channel.pending = .empty) :
    (opened a b).Sound s t := by
  refine ⟨hforth, hback, List.Pairwise.nil, fun i hi => absurd hi List.not_mem_nil,
    fun raw hraw => absurd hraw List.not_mem_nil, fun n w hw => ?_,
    fun m hm => absurd hm List.not_mem_nil, List.nodup_nil,
    fun raw hraw => absurd hraw List.not_mem_nil, fun n hn => absurd hn List.not_mem_nil,
    fun i hi => absurd hi List.not_mem_nil⟩
  simp only [opened, ha, Dict.get?_empty, reduceCtorEq] at hw

end Arq

/-- Between two ends of a session, whatever is lost, reordered, duplicated, sent
    again or acknowledged again: a message is returned at most once and as it was
    sent, what an acknowledgement has retired was returned, and a message that is
    neither pending nor reported was returned. -/
theorem stop_and_wait_delivers_once (a : ReliableEnd C) (b : Endpoint C) (s t : Session)
    (hforth : Paired a.endpoint b s t) (hback : Paired b a.endpoint t s)
    (ha : a.channel.pending = .empty) (acts : List ArqAct) :
    let x := acts.foldl Arq.step (Arq.opened a b)
    ((x.returned.map Prod.fst).Nodup ∧ ∀ m ∈ x.returned, m ∈ x.sent) ∧
      (∀ n ∈ x.retired, ∃ plaintext, (n, plaintext) ∈ x.returned) ∧
      ∀ m ∈ x.sent, x.sender.channel.pending.get? m.1 ≠ none ∨ m.1 ∈ x.reported ∨
        m ∈ x.returned := by
  intro x
  have hrun : ∃ s t, x.Sound s t := by
    refine along_invariant (fun x => ∃ s t, Arq.Sound (C := C) x s t) ?_ _ acts
      ⟨s, t, Arq.opened_sound a b hforth hback ha⟩ (along_true _ acts)
    rintro x c ⟨s, t, hx⟩ _
    rcases Arq.arq_moved hx c with ⟨s', t', hmove⟩
    exact ⟨s', t', Arq.moved_sound hx hmove⟩
  rcases hrun with ⟨s', t', hx⟩
  have hfst : ∀ n ∈ x.returned.map Prod.fst, ∃ plaintext, (n, plaintext) ∈ x.returned := by
    intro n hn
    rcases List.mem_map.mp hn with ⟨m, hm, rfl⟩
    exact ⟨m.2, hm⟩
  refine ⟨⟨hx.once, fun m hm => (hx.returned m hm).1⟩, fun n hn => hfst n (hx.retired n hn),
    fun m hm => ?_⟩
  rcases hx.accounted m hm with hpending | hretired | hreported
  · exact Or.inl hpending
  · -- Numbers ascend, so the message that was returned under this one is this one.
    right
    right
    rcases hfst m.1 (hx.retired m.1 hretired) with ⟨plaintext, hret⟩
    have hkeys : (x.sent.map Prod.fst).Nodup :=
      List.pairwise_map.mpr (hx.ascending.imp Nat.ne_of_lt)
    have hsame := List.inj_on_of_nodup_map hkeys hm (hx.returned _ hret).1 rfl
    rw [hsame]
    exact hret
  · exact Or.inr (Or.inl hreported)

/-- Two messages. The first arrives twice and is acknowledged, and its ACK is heard
    twice. The second is lost. -/
def firstTwice : List ArqAct :=
  [.send toyEnv 0 [1], .send toyEnv 0 [2], .deliver toyEnv 0, .deliver toyEnv 0,
    .acknowledge toyEnv 0, .hearAck 0 0, .hearAck 0 0, .poll (fun _ => 10) (fun _ => 10)]

/-- The first message is returned once and retired, and the second is pending. -/
theorem firstTwice_delivers_once :
    let x := firstTwice.foldl Arq.step (Arq.opened ⟨{}, toyTalk true⟩ (toyTalk false))
    x.sent = [(1, [1]), (2, [2])] ∧ x.returned = [(1, [1])] ∧ x.retired = [1] ∧
      (x.returned.map Prod.fst).Nodup ∧ (∃ plaintext, (1, plaintext) ∈ x.returned) ∧
      (x.sender.channel.pending.get? 2 ≠ none ∨ 2 ∈ x.reported ∨ (2, [2]) ∈ x.returned) := by
  rcases toyTalk_paired with ⟨S, hpaired⟩
  have honce := stop_and_wait_delivers_once ⟨{}, toyTalk true⟩ (toyTalk false) (S true) (S false)
    (hpaired true) (hpaired false) rfl firstTwice
  have hrun : let x := firstTwice.foldl Arq.step (Arq.opened ⟨{}, toyTalk true⟩ (toyTalk false))
      x.sent = [(1, [1]), (2, [2])] ∧ x.returned = [(1, [1])] ∧ x.retired = [1] := by
    decide +kernel
  generalize firstTwice.foldl Arq.step (Arq.opened ⟨{}, toyTalk true⟩ (toyTalk false)) = x
    at honce hrun ⊢
  refine ⟨hrun.1, hrun.2.1, hrun.2.2, honce.1.1, honce.2.1 1 ?_, honce.2.2 (2, [2]) ?_⟩
  · rw [hrun.2.2]
    exact List.mem_singleton_self 1
  · rw [hrun.1]
    exact List.mem_cons_of_mem _ (List.mem_singleton_self _)

end Ztlnp
