import Ztlnp.Theory.Ordered

/-!
# Control and Cover Traffic

What the other packets of a session do to the messages of a channel.

Every packet of a session draws its number from the same counter, and a number
that is drawn is gone. The receiver of a channel counts DATA packets, and
expects each one to have the number after the one before. An ACK in between
leaves a hole that nothing will ever fill, and everything behind the hole
stays in the buffer. A cover packet leaves no hole, because it is a DATA packet
itself, but for the same reason its random bytes are returned as data.

When packets are passed on in the order in which they were sent, only one more
thing can go wrong: DATA that comes too late is refused, and its number is as
lost as that of an ACK. The numbers that no DATA packet has carried through are
kept beside the two ends, and so is what went into the messages and into the
cover packets. The messages come out as they went in exactly when no such
number lies between two DATA packets that came through, and these together
carry what the messages do. If nothing is late, that says that every cover
packet was empty.

## Main definitions

* `ChannelEnd.acknowledgement`: An ACK of a number, in bytes.
* `ChannelEnd.nextSequence`: The number the session will hand out next.
* `Relay`, `RelayAct`, `Relay.step`: A session in use, and each packet passed
  on as it is built.
* `Relay.Transparent`: The messages came out as they went in.
* `Relay.Whole`: There is no hole between two DATA packets.
* `Relay.Unbroken`: The condition.

## Theorems

* `relay_moved`: What a step can do.
* `moved_faithful`: What every step keeps.
* `accounted_iff`: The condition in a run where nothing is late.
* `transparent_iff_unbroken`: The messages come out exactly under the
  condition.
-/

namespace Ztlnp

variable {C : Primitives}

namespace ChannelEnd

/-- `build_ack_packet` for the peer of the protocol, in bytes. -/
def acknowledgement (env : Env) (acked : Nat) : EStateM Exn (ChannelEnd C) Bytes := do
  let peerId ← onProtocol Endpoint.requirePeer
  let packet ← onDevice (Device.buildAckPacket env peerId acked)
  ofExcept packet.toBytes

/-- An ACK of a number is built like any other. -/
theorem acknowledgement_eq (env : Env) (acked : Nat) :
    acknowledgement (C := C) env acked = onProtocol (ackBytes env
      (packUInt 4 acked "'I' format requires 0 <= number <= 4294967295")) := by
  -- The device does three of the steps in one call.
  simp only [acknowledgement, ackBytes, sealedBytes, Device.buildAckPacket, onDevice_bind,
    onDevice_ofExcept, onProtocol_bind, onProtocol_ofExcept, bind_assoc]
  rfl

/-- A cover packet is due or not; if it is, it is built like any DATA packet. -/
theorem maybeSend_run (env : Env) (nowMs : Rat) (urandom : Nat → Bytes) (cover : CoverTraffic)
    (s : ChannelEnd C) :
    (maybeSend env nowMs urandom cover).run s =
      if nowMs - cover.lastSendMs < cover.intervalMs then .ok (none, cover) s
      else match (dataPacket env cover.useMac (urandom cover.coverSize)).run s.endpoint with
        | .ok wire e => .ok (some wire, { cover with lastSendMs := nowMs }) { s with endpoint := e }
        | .error x e => .error x { s with endpoint := e } := by
  unfold maybeSend
  by_cases hdue : nowMs - cover.lastSendMs < cover.intervalMs
  · rw [if_pos hdue, if_pos hdue]
    rfl
  · rw [if_neg hdue, if_neg hdue]
    simp only [EStateM.run_bind, run_onProtocol]
    cases (dataPacket env cover.useMac (urandom cover.coverSize)).run s.endpoint with
    | ok wire e => rfl
    | error x e => rfl

/-- The number that the session with the peer will hand out next. -/
def nextSequence (s : ChannelEnd C) : Nat :=
  match s.endpoint.proto.peerId.bind s.endpoint.device.sessions.get? with
  | some t => t.localSequence
  | none => 0

theorem nextSequence_paired (a b : ChannelEnd C) (s t : Session)
    (h : Paired a.endpoint b.endpoint s t) : a.nextSequence = s.localSequence := by
  unfold nextSequence
  rw [h.peerId, Option.bind_some, h.sending]

end ChannelEnd

/-- What the sender of a relay does. A packet that is built is passed on under
    the second reading of the environment. -/
inductive RelayAct
  | send (env : Env) (now : Rat) (plaintext : Bytes) (env' : Env)
  | cover (env : Env) (nowMs : Rat) (urandom : Nat → Bytes) (cover : CoverTraffic) (env' : Env)
  | ack (env : Env) (acked : Nat) (env' : Env)
  | sackAck (env : Env) (sack : SackFrame) (env' : Env)
  | receive (env : Env) (raw : Bytes)
  | receiveAck (env : Env) (raw : Bytes)
  | processSack (sack : SackFrame)

/-- DATA is passed on within the clock skew. -/
def RelayAct.InTime : RelayAct → Prop
  | .send env _ _ env' => Session.Timely env'.receiveMs env.buildMs
  | .cover env _ _ _ env' => Session.Timely env'.receiveMs env.buildMs
  | _ => True

instance (a : RelayAct) : Decidable a.InTime :=
  match a with
  | .send env _ _ env' => inferInstanceAs (Decidable (Session.Timely env'.receiveMs env.buildMs))
  | .cover env _ _ _ env' =>
    inferInstanceAs (Decidable (Session.Timely env'.receiveMs env.buildMs))
  | .ack _ _ _ => .isTrue trivial
  | .sackAck _ _ _ => .isTrue trivial
  | .receive _ _ => .isTrue trivial
  | .receiveAck _ _ => .isTrue trivial
  | .processSack _ => .isTrue trivial

/-- A session in use. Every packet is passed on as it is built: DATA to the
    receive side of the peer, ACKs to its ACK path. `sent` is the DATA that was
    passed on in time, and `spent` the numbers of anything else; `plaintexts`
    and `dummies` are what the channel and the cover traffic put into DATA. -/
structure Relay (C : Primitives) where
  sender : ChannelEnd C
  receiver : ChannelEnd C
  sent : List (Nat × Bytes) := []
  plaintexts : List Bytes := []
  dummies : List Bytes := []
  spent : List Nat := []
  returned : Bytes := []

namespace Relay

/-- A session on which nothing has happened yet. -/
def opened (a b : ChannelEnd C) : Relay C := { sender := a, receiver := b }

/-- The sender has moved on without DATA; whatever numbers it drew are spent. -/
def drew (r : Relay C) (a : ChannelEnd C) : Relay C :=
  { r with
    sender := a
    spent := r.spent ++
      List.range' r.sender.nextSequence (a.nextSequence - r.sender.nextSequence) }

/-- Pass DATA on. -/
def pass (r : Relay C) (env : Env) (raw : Bytes) : Relay C :=
  match (ChannelEnd.receive env raw).run r.receiver with
  | .ok (out, _) b => { r with receiver := b, returned := r.returned ++ out.getD [] }
  | .error _ b => { r with receiver := b }

/-- The sender has built DATA, which is put down and passed on. -/
def passData (r : Relay C) (a : ChannelEnd C) (env env' : Env) (n : Nat) (x wire : Bytes) :
    Relay C :=
  if Session.Timely env'.receiveMs env.buildMs then
    pass { r with sender := a, sent := r.sent ++ [(n, x)] } env' wire
  else pass { r with sender := a, spent := r.spent ++ [n] } env' wire

/-- Pass an ACK on. -/
def passAck (r : Relay C) (env : Env) (raw : Bytes) : Relay C :=
  { r with receiver := ((ChannelEnd.receiveAck env raw).run r.receiver).final }

/-- One act of the sender. -/
def step (r : Relay C) : RelayAct → Relay C
  | .send env now plaintext env' =>
    match (ChannelEnd.send env now plaintext).run r.sender with
    | .ok (some (n, wire)) a =>
      passData { r with plaintexts := r.plaintexts ++ [plaintext] } a env env' n plaintext wire
    | res => r.drew res.final
  | .cover env nowMs urandom cover env' =>
    match (ChannelEnd.maybeSend env nowMs urandom cover).run r.sender with
    | .ok (some wire, _) a =>
      passData { r with dummies := r.dummies ++ [urandom cover.coverSize] } a env env'
        (wireSequence wire) (urandom cover.coverSize) wire
    | res => r.drew res.final
  | .ack env acked env' =>
    match (ChannelEnd.acknowledgement env acked).run r.sender with
    | .ok wire a => (r.drew a).passAck env' wire
    | .error _ a => r.drew a
  | .sackAck env sack env' =>
    match (ChannelEnd.buildSackAck env sack).run r.sender with
    | .ok wire a => (r.drew a).passAck env' wire
    | .error _ a => r.drew a
  | .receive env raw => r.drew ((ChannelEnd.receive env raw).run r.sender).final
  | .receiveAck env raw => r.drew ((ChannelEnd.receiveAck env raw).run r.sender).final
  | .processSack sack =>
    r.drew { r.sender with channel := (r.sender.channel.processSack sack).1 }

/-- Exactly what was given to the channel has been returned, and nothing is
    left in the buffer. -/
def Transparent (r : Relay C) : Prop :=
  r.returned = r.plaintexts.flatten ∧ r.receiver.channel.recvBuffer.size = 0

instance (r : Relay C) : Decidable r.Transparent := inferInstanceAs (Decidable (_ ∧ _))

/-- No number between two DATA packets that were passed on in time was on
    anything else. -/
def Whole (r : Relay C) : Prop :=
  ∀ k ∈ r.spent, ∀ i ∈ r.sent, ∀ j ∈ r.sent, ¬ (i.1 < k ∧ k < j.1)

instance (r : Relay C) : Decidable r.Whole :=
  inferInstanceAs (Decidable (∀ k ∈ _, ∀ i ∈ _, ∀ j ∈ _, _))

/-- There is no hole, and the DATA passed on in time carries what the messages
    do. -/
def Unbroken (r : Relay C) : Prop :=
  r.Whole ∧ r.sent.flatMap Prod.snd = r.plaintexts.flatten

instance (r : Relay C) : Decidable r.Unbroken := inferInstanceAs (Decidable (_ ∧ _))

/-- What holds whenever all packets are passed on: the receive side is in step
    with the DATA that came in time and holds all of it, and every number is
    either on such a packet or spent. -/
structure Faithful (r : Relay C) (first : Nat) (s t : Session) : Prop where
  paired : Paired r.sender.endpoint r.receiver.endpoint s t
  ascending : Ascending r.sent
  drawn : ∀ i ∈ r.sent, first ≤ i.1 ∧ i.1 < s.localSequence
  started : first ≤ s.localSequence
  inStep : r.receiver.channel.InStep r.sent r.returned
  held : ∀ i ∈ r.sent, r.receiver.channel.Holds i.1
  shared : ∀ k, first ≤ k → k < s.localSequence → k ∈ r.spent ∨ ∃ x, (k, x) ∈ r.sent
  disjoint : ∀ k ∈ r.spent, k < s.localSequence ∧ ∀ x, (k, x) ∉ r.sent

/-- What holds in addition when nothing is late: the DATA carries the messages
    and the dummies, and without the dummies just the messages. -/
structure Accounted (r : Relay C) : Prop where
  counted : (r.sent.flatMap Prod.snd).length
    = r.plaintexts.flatten.length + r.dummies.flatten.length
  dull : (∀ d ∈ r.dummies, d = []) → r.sent.flatMap Prod.snd = r.plaintexts.flatten

/-- What an act of the sender can do. What went into the packets is left open. -/
inductive Moved (r : Relay C) (s t : Session) : Relay C → Session → Session → Prop
  /-- No number was drawn. -/
  | quiet (a : ChannelEnd C) (s' : Session)
      (hpaired : Paired a.endpoint r.receiver.endpoint s' t)
      (hnext : s'.localSequence = s.localSequence) :
      Moved r s t { r with sender := a } s' t
  /-- A number was drawn and no DATA got through under it. -/
  | spent (a b : ChannelEnd C) (s' t' : Session) (plaintexts dummies : List Bytes)
      (hpaired : Paired a.endpoint b.endpoint s' t')
      (hnext : s'.localSequence = s.localSequence + 1)
      (hrecv : b.channel.recvNext = r.receiver.channel.recvNext)
      (hbuf : b.channel.recvBuffer = r.receiver.channel.recvBuffer) :
      Moved r s t
        { r with
          sender := a
          receiver := b
          spent := r.spent ++ [s.localSequence]
          plaintexts := plaintexts
          dummies := dummies } s' t'
  /-- A DATA packet was built and accepted. -/
  | data (a b : ChannelEnd C) (s' t' : Session) (x : Bytes) (plaintexts dummies : List Bytes)
      (hpaired : Paired a.endpoint b.endpoint s' t')
      (hnext : s'.localSequence = s.localSequence + 1)
      (hchannel : b.channel = (r.receiver.channel.accept s.localSequence x).2) :
      Moved r s t
        { r with
          sender := a
          receiver := b
          sent := r.sent ++ [(s.localSequence, x)]
          plaintexts := plaintexts
          dummies := dummies
          returned := r.returned ++
            (r.receiver.channel.accept s.localSequence x).1.getD [] } s' t'

end Relay

/-- Only two fields of a channel matter to its receive side. -/
theorem Channel.inStep_congr (c c' : Channel) (sent : List (Nat × Bytes)) (returned : Bytes)
    (hrecv : c'.recvNext = c.recvNext) (hbuf : c'.recvBuffer = c.recvBuffer)
    (h : c.InStep sent returned) : c'.InStep sent returned := by
  refine ⟨?_, ?_, ?_, ?_, ?_, ?_⟩
  · rw [hrecv]
    exact h.lower
  · rw [hrecv]
    exact h.returned
  · rw [hrecv]
    exact h.reached
  · rw [hrecv]
    exact h.gapless
  · rw [hrecv, hbuf]
    exact h.buffered
  · rw [hrecv, hbuf]
    exact h.unstarted

/-- A step that draws no number keeps everything. -/
theorem quiet_faithful (r : Relay C) (a : ChannelEnd C) (first : Nat) (s t s' : Session)
    (h : r.Faithful first s t) (hpaired : Paired a.endpoint r.receiver.endpoint s' t)
    (hnext : s'.localSequence = s.localSequence) :
    Relay.Faithful { r with sender := a } first s' t := by
  refine ⟨hpaired, h.ascending, ?_, ?_, h.inStep, h.held, ?_, ?_⟩
  · rw [hnext]
    exact h.drawn
  · rw [hnext]
    exact h.started
  · rw [hnext]
    exact h.shared
  · rw [hnext]
    exact h.disjoint

/-- A number that is spent was not sent and will not be. -/
theorem spent_faithful (r : Relay C) (a b : ChannelEnd C) (first : Nat) (s t s' t' : Session)
    (plaintexts dummies : List Bytes) (h : r.Faithful first s t)
    (hpaired : Paired a.endpoint b.endpoint s' t')
    (hnext : s'.localSequence = s.localSequence + 1)
    (hrecv : b.channel.recvNext = r.receiver.channel.recvNext)
    (hbuf : b.channel.recvBuffer = r.receiver.channel.recvBuffer) :
    Relay.Faithful
      { r with
        sender := a
        receiver := b
        spent := r.spent ++ [s.localSequence]
        plaintexts := plaintexts
        dummies := dummies }
      first s' t' := by
  have hstep := Channel.inStep_congr _ _ _ _ hrecv hbuf h.inStep
  refine ⟨hpaired, h.ascending, fun i hi => ?_, ?_, hstep, fun i hi => ?_, fun k hlow hhigh => ?_,
    fun k hk => ?_⟩
  · have := h.drawn i hi
    omega
  · have := h.started
    omega
  · rw [Channel.Holds, hrecv, hbuf]
    exact h.held i hi
  · -- The number that was drawn is the only new one.
    by_cases heq : k = s.localSequence
    · exact Or.inl (List.mem_append_right _ (List.mem_singleton.mpr heq))
    · rcases h.shared k hlow (by omega) with hk | hk
      · exact Or.inl (List.mem_append_left _ hk)
      · exact Or.inr hk
  · rcases List.mem_append.mp hk with hk | hk
    · have := (h.disjoint k hk).1
      exact ⟨by omega, (h.disjoint k hk).2⟩
    · rw [List.mem_singleton] at hk
      refine ⟨by omega, fun x hx => ?_⟩
      -- Everything sent has a smaller number.
      have hlt : k < s.localSequence := (h.drawn _ hx).2
      omega

/-- While the receiver has not started, nothing has come through. -/
theorem Relay.Faithful.sent_nil {r : Relay C} {first : Nat} {s t : Session}
    (h : r.Faithful first s t) (hneg : r.receiver.channel.recvNext = -1) : r.sent = [] := by
  refine List.eq_nil_iff_forall_not_mem.mpr (fun i hi => ?_)
  rcases h.held i hi with hle | hbuf
  · omega
  · exact hbuf (h.inStep.unstarted hneg i.1)

/-- A DATA packet is accepted in its turn. -/
theorem data_faithful (r : Relay C) (a b : ChannelEnd C) (first : Nat) (s t s' t' : Session)
    (x : Bytes) (plaintexts dummies : List Bytes) (h : r.Faithful first s t)
    (hpaired : Paired a.endpoint b.endpoint s' t')
    (hnext : s'.localSequence = s.localSequence + 1)
    (hchannel : b.channel = (r.receiver.channel.accept s.localSequence x).2) :
    Relay.Faithful
      { r with
        sender := a
        receiver := b
        sent := r.sent ++ [(s.localSequence, x)]
        plaintexts := plaintexts
        dummies := dummies
        returned := r.returned ++ (r.receiver.channel.accept s.localSequence x).1.getD [] }
      first s' t' := by
  have hlast : ∀ i ∈ r.sent, i.1 < s.localSequence := fun i hi => (h.drawn i hi).2
  have hasc := ascending_concat r.sent s.localSequence x h.ascending hlast
  have hmem : (s.localSequence, x) ∈ r.sent ++ [(s.localSequence, x)] :=
    List.mem_append_right _ (List.mem_singleton.mpr rfl)
  have hstep := Channel.inStep_concat _ _ _ x s.localSequence h.inStep hlast
  -- The receive side comes from accepting the packet; the rest is bookkeeping.
  refine ⟨hpaired, hasc, fun i hi => ?_, ?_, ?_, fun i hi => ?_, fun k hlow hhigh => ?_,
    fun k hk => ?_⟩
  · rcases List.mem_append.mp hi with hi | hi
    · have := h.drawn i hi
      omega
    · have := h.started
      rw [List.mem_singleton] at hi
      rw [hi]
      simp only
      omega
  · have := h.started
    omega
  · rw [hchannel]
    -- What came through before was accepted, so the first one accepted is the first.
    refine Channel.accept_inStep _ _ _ _ _ hstep hasc hmem (fun hneg i hi => ?_)
    rw [h.sent_nil hneg, List.nil_append, List.mem_singleton] at hi
    rw [hi]
  · rw [hchannel]
    rcases List.mem_append.mp hi with hi | hi
    · exact Channel.accept_holds _ _ _ _ (h.held i hi)
    · rw [List.mem_singleton] at hi
      rw [hi]
      exact Channel.accept_holds_self _ _ _
  · by_cases heq : k = s.localSequence
    · subst heq
      exact Or.inr ⟨x, hmem⟩
    · rcases h.shared k hlow (by omega) with hk | ⟨y, hy⟩
      · exact Or.inl hk
      · exact Or.inr ⟨y, List.mem_append_left _ hy⟩
  · rcases h.disjoint k hk with ⟨hlt, hnot⟩
    refine ⟨by omega, fun y hy => ?_⟩
    rcases List.mem_append.mp hy with hy | hy
    · exact hnot y hy
    · rw [List.mem_singleton, Prod.mk.injEq] at hy
      omega

/-- Every act of the sender keeps a relay faithful. -/
theorem moved_faithful (r r' : Relay C) (first : Nat) (s t s' t' : Session)
    (h : r.Faithful first s t) (hmove : r.Moved s t r' s' t') : r'.Faithful first s' t' := by
  cases hmove with
  | quiet a _ hpaired hnext => exact quiet_faithful r a first s t _ h hpaired hnext
  | spent a b _ _ plaintexts dummies hpaired hnext hrecv hbuf =>
      exact spent_faithful r a b first s t _ _ plaintexts dummies h hpaired hnext hrecv hbuf
  | data a b _ _ x plaintexts dummies hpaired hnext hchannel =>
      exact data_faithful r a b first s t _ _ x plaintexts dummies h hpaired hnext hchannel

/-- Receiving something does not unpair two ends. -/
theorem paired_received (a b : Endpoint C) (s t : Session) (env : Env) (raw : Bytes) (p : Packet)
    (d : Device C) (h : Paired a b s t) (hrec : Device.Received a.device env raw p d) :
    ∃ s', Paired { a with device := d } b s' t ∧ s'.localSequence = s.localSequence := by
  cases hrec with
  | hello => exact ⟨s, h, rfl⟩
  | pending => exact ⟨s, h, rfl⟩
  | session u _ _ hu =>
      by_cases hpeer : p.senderId = b.device.deviceId
      · -- The session of the pair records a number; its own counter stays.
        rw [hpeer, h.sending, Option.some.injEq] at hu
        subst hu
        refine ⟨s.recorded p.sequence, ⟨h.peerId, ?_, h.receiving, h.sessionKey, h.macKey,
          h.identity, h.largest, h.recent⟩, rfl⟩
        simp only [hpeer]
        exact Dict.get?_set_self _ _ _
      · refine ⟨s, ⟨h.peerId, ?_, h.receiving, h.sessionKey, h.macKey, h.identity, h.largest,
          h.recent⟩, rfl⟩
        simp only
        rw [Dict.get?_set_ne _ _ (Ne.symm hpeer)]
        exact h.sending

/-- The next number of a pair is always admitted. -/
theorem paired_admits (a b : Endpoint C) (s t : Session) (h : Paired a b s t) :
    t.window.Admits replayWindow s.localSequence := by
  -- Everything the receiver has recorded was drawn before.
  refine ⟨fun hmem => ?_, fun hle => ?_⟩
  · have := h.recent _ hmem
    omega
  · have hmax := h.largest
    simp only [SeqWindow.edge, Session.window, replayWindow] at hle
    omega

/-- The ACK path of the receiver records a number at most, and leaves the
    receive side alone. -/
theorem receiveAck_wraps (a : Endpoint C) (b : ChannelEnd C) (env : Env) (raw plaintext : Bytes)
    (s t : Session) (n : Nat) (p : Packet) (h : Paired a b.endpoint s t)
    (hw : Wraps C a.device.deviceId t raw n plaintext p) (hn : n < s.localSequence) :
    ∃ t', Paired a ((ChannelEnd.receiveAck env raw).run b).final.endpoint s t' ∧
      ((ChannelEnd.receiveAck env raw).run b).final.channel.recvNext = b.channel.recvNext ∧
      ((ChannelEnd.receiveAck env raw).run b).final.channel.recvBuffer = b.channel.recvBuffer := by
  simp only [ChannelEnd.receiveAck, EStateM.run_bind, ChannelEnd.run_onDevice]
  rcases receivePacket_wraps b.endpoint.device env _ raw plaintext t n p hw h.receiving with
    ⟨_, hrun⟩ | ⟨_, x, hrun⟩
  · have hnoted := paired_noted a b.endpoint s t n h hn
    rw [hrun]
    simp only
    -- From here on nothing touches the device.
    rcases Device.decryptPacket_cases p (b.endpoint.device.noted a.device.deviceId t n) with
      ⟨payload, _, hdec⟩ | ⟨_, x, hdec⟩
    · rw [hdec]
      simp only
      cases SackFrame.decode payload with
      | error x => exact ⟨_, hnoted, rfl, rfl⟩
      | ok sack => exact ⟨_, hnoted, rfl, rfl⟩
    · rw [hdec]
      exact ⟨_, hnoted, rfl, rfl⟩
  · rw [hrun]
    exact ⟨t, h, rfl, rfl⟩

/-- A sender that drew nothing has only moved. -/
theorem drew_quiet (r : Relay C) (a : ChannelEnd C) (s t s' : Session)
    (h : Paired r.sender.endpoint r.receiver.endpoint s t)
    (h' : Paired a.endpoint r.receiver.endpoint s' t)
    (hnext : s'.localSequence = s.localSequence) : r.Moved s t (r.drew a) s' t := by
  have hmoved := Relay.Moved.quiet (r := r) (s := s) a s' h' hnext
  unfold Relay.drew
  rw [ChannelEnd.nextSequence_paired a r.receiver s' t h', hnext,
    ChannelEnd.nextSequence_paired r.sender r.receiver s t h, Nat.sub_self, List.range'_zero,
    List.append_nil]
  exact hmoved

/-- A sender that drew a number has spent it. -/
theorem drew_advanced (r : Relay C) (c : Channel) (s t : Session)
    (h : Paired r.sender.endpoint r.receiver.endpoint s t) :
    r.drew ⟨c, r.sender.endpoint.advanced r.receiver.endpoint.device.deviceId s⟩
      = { r with
          sender := ⟨c, r.sender.endpoint.advanced r.receiver.endpoint.device.deviceId s⟩
          spent := r.spent ++ [s.localSequence] } := by
  have hnext : ChannelEnd.nextSequence
      ⟨c, r.sender.endpoint.advanced r.receiver.endpoint.device.deviceId s⟩
        = s.localSequence + 1 :=
    ChannelEnd.nextSequence_paired ⟨c, _⟩ r.receiver _ t (paired_advanced _ _ s t h)
  unfold Relay.drew
  rw [hnext, ChannelEnd.nextSequence_paired r.sender r.receiver s t h]
  simp only [Nat.add_sub_cancel_left, List.range'_one]

/-- So it has when nothing comes of the number. -/
theorem drew_spent (r : Relay C) (s t : Session)
    (h : Paired r.sender.endpoint r.receiver.endpoint s t) :
    r.Moved s t (r.drew { r.sender with
        endpoint := r.sender.endpoint.advanced r.receiver.endpoint.device.deviceId s })
      { s with localSequence := s.localSequence + 1 } t := by
  rw [drew_advanced r r.sender.channel s t h]
  exact .spent _ r.receiver _ t _ _ (paired_advanced _ _ s t h) rfl rfl rfl

/-- DATA that is passed on is accepted, or it is late. -/
theorem pass_wraps (r : Relay C) (env env' : Env) (useMac : Bool) (x wire : Bytes) (s t : Session)
    (p : Packet) (h : Paired r.sender.endpoint r.receiver.endpoint s t)
    (hseal : DataSealed r.sender.endpoint.device env useMac r.receiver.endpoint.device.deviceId x
      s p) (hwire : p.toBytes = .ok wire) :
    (Session.Timely env'.receiveMs env.buildMs ∧ ∃ sack,
      (ChannelEnd.receive env' wire).run r.receiver = .ok
        ((r.receiver.channel.accept s.localSequence x).1, sack)
        ⟨(r.receiver.channel.accept s.localSequence x).2,
          r.receiver.endpoint.noted r.sender.endpoint.device.deviceId t s.localSequence⟩) ∨
    (¬ Session.Timely env'.receiveMs env.buildMs ∧
      ∃ e, (ChannelEnd.receive env' wire).run r.receiver = .error e r.receiver) := by
  have hwraps := dataSealed_wraps _ env useMac _ x wire s t p hseal hwire h.sessionKey h.macKey
    h.identity
  have hstamp : wireTimestamp wire = env.buildMs := by
    rw [← hwraps.timestampMs_eq]
    exact (Device.sealPacket_eq_ok _ _ _ _ _ _ _ _ _ _ hseal).1.timestampMs
  -- The number is the next one, so only the time can speak against it.
  rcases receive_wraps r.receiver env' _ wire x t _ p hwraps h.receiving with
    ⟨hadmits, hrun⟩ | ⟨hno, e, hrun⟩
  · rw [hstamp] at hadmits
    exact Or.inl ⟨hadmits.1, _, hrun⟩
  · rw [hstamp] at hno
    exact Or.inr ⟨fun htime => hno ⟨htime, paired_admits _ _ s t h⟩, e, hrun⟩

/-- DATA of either kind, once it is built. -/
theorem passData_moved (r : Relay C) (c : Channel) (env env' : Env) (useMac : Bool)
    (x wire : Bytes) (plaintexts dummies : List Bytes) (s t : Session) (p : Packet)
    (h : Paired r.sender.endpoint r.receiver.endpoint s t)
    (hseal : DataSealed r.sender.endpoint.device env useMac r.receiver.endpoint.device.deviceId x
      s p) (hwire : p.toBytes = .ok wire) :
    ∃ s' t', r.Moved s t
      (Relay.passData { r with plaintexts := plaintexts, dummies := dummies }
        ⟨c, r.sender.endpoint.advanced r.receiver.endpoint.device.deviceId s⟩ env env'
        s.localSequence x wire) s' t' := by
  have hadv := paired_advanced _ _ s t h
  rcases pass_wraps r env env' useMac x wire s t p h hseal hwire with
    ⟨htime, sack, hrun⟩ | ⟨hlate, e, hrun⟩
  · rw [Relay.passData, if_pos htime]
    simp only [Relay.pass, hrun]
    exact ⟨_, _, .data _ ⟨_, _⟩ _ _ x plaintexts dummies
      (paired_noted _ _ _ t s.localSequence hadv (Nat.lt_succ_self _)) rfl rfl⟩
  · -- Late DATA does not reach the channel, and its number is lost.
    rw [Relay.passData, if_neg hlate]
    simp only [Relay.pass, hrun]
    exact ⟨_, t, .spent _ r.receiver _ t plaintexts dummies hadv rfl rfl rfl⟩

/-- A message of the channel. -/
theorem send_relayed (r : Relay C) (first : Nat) (s t : Session) (h : r.Faithful first s t)
    (env : Env) (now : Rat) (plaintext : Bytes) (env' : Env) :
    ∃ s' t', r.Moved s t (r.step (.send env now plaintext env')) s' t' := by
  have hout := ChannelEnd.send_outcome env now plaintext r.sender
  simp only [Relay.step]
  generalize (ChannelEnd.send env now plaintext).run r.sender = res at hout
  cases hout with
  | full => exact ⟨s, t, drew_quiet r _ s t s h.paired h.paired rfl⟩
  | refused => exact ⟨s, t, drew_quiet r _ s t s h.paired h.paired rfl⟩
  | spoilt peerId u x hpeer hget =>
      rcases paired_session _ _ s t u peerId h.paired hpeer hget with ⟨rfl, rfl⟩
      exact ⟨_, t, drew_spent r u t h.paired⟩
  | sent peerId u p wire hroom hpeer hget hseal hwire =>
      rcases paired_session _ _ s t u peerId h.paired hpeer hget with ⟨rfl, rfl⟩
      -- The number the channel reports is the one that was drawn.
      have hnumber : p.sequence = u.localSequence :=
        (Device.sealPacket_eq_ok _ _ _ _ _ _ _ _ _ _ hseal).1.sequence
      simp only [hnumber]
      exact passData_moved r _ env env' _ plaintext wire _ r.dummies u t p h.paired hseal hwire

/-- A cover packet. -/
theorem cover_relayed (r : Relay C) (first : Nat) (s t : Session) (h : r.Faithful first s t)
    (env : Env) (nowMs : Rat) (urandom : Nat → Bytes) (cover : CoverTraffic) (env' : Env) :
    ∃ s' t', r.Moved s t (r.step (.cover env nowMs urandom cover env')) s' t' := by
  simp only [Relay.step, ChannelEnd.maybeSend_run]
  by_cases hdue : nowMs - cover.lastSendMs < cover.intervalMs
  · rw [if_pos hdue]
    exact ⟨s, t, drew_quiet r _ s t s h.paired h.paired rfl⟩
  · rw [if_neg hdue]
    have hbuild := ChannelEnd.dataPacket_builds env cover.useMac (urandom cover.coverSize)
      r.sender.endpoint
    generalize (ChannelEnd.dataPacket env cover.useMac (urandom cover.coverSize)).run
      r.sender.endpoint = res at hbuild
    cases hbuild with
    | refused => exact ⟨s, t, drew_quiet r _ s t s h.paired h.paired rfl⟩
    -- The number is drawn and no packet comes of it.
    | spoilt peerId u x hpeer hget =>
        rcases paired_session _ _ s t u peerId h.paired hpeer hget with ⟨rfl, rfl⟩
        exact ⟨_, t, drew_spent r u t h.paired⟩
    -- A cover packet is a DATA packet like any other, and its plaintext is noted nowhere.
    | built peerId u p wire hpeer hget hseal hwire =>
        rcases paired_session _ _ s t u peerId h.paired hpeer hget with ⟨rfl, rfl⟩
        have hnumber : wireSequence wire = u.localSequence :=
          (dataSealed_wraps _ env _ _ _ wire u t p hseal hwire h.paired.sessionKey
            h.paired.macKey h.paired.identity).wireSequence_eq
        simp only [hnumber]
        exact passData_moved r _ env env' _ _ wire r.plaintexts _ u t p h.paired hseal hwire

/-- An ACK of either kind, once it is built. -/
theorem ack_relayed (r : Relay C) (first : Nat) (s t : Session) (h : r.Faithful first s t)
    (env env' : Env) (payload : Except Exn Bytes) :
    ∃ s' t', r.Moved s t
      (match (ChannelEnd.onProtocol (ChannelEnd.ackBytes env payload)).run r.sender with
        | .ok wire a => (r.drew a).passAck env' wire
        | .error _ a => r.drew a) s' t' := by
  rw [ChannelEnd.run_onProtocol]
  have hbuild := ChannelEnd.ackBytes_builds env payload r.sender.endpoint
  generalize (ChannelEnd.ackBytes env payload).run r.sender.endpoint = res at hbuild
  cases hbuild with
  | refused => exact ⟨s, t, drew_quiet r _ s t s h.paired h.paired rfl⟩
  | spoilt peerId u x hpeer hget =>
      rcases paired_session _ _ s t u peerId h.paired hpeer hget with ⟨rfl, rfl⟩
      exact ⟨_, t, drew_spent r u t h.paired⟩
  -- The acknowledgement uses a number up on both sides and reaches no window.
  | built peerId u p wire hpeer hget hseal hwire =>
      rcases paired_session _ _ s t u peerId h.paired hpeer hget with ⟨rfl, rfl⟩
      rcases hseal with ⟨plaintext, hseal⟩
      have hadv := paired_advanced _ _ u t h.paired
      have hwraps := signed_wraps _ env .ack _ plaintext wire u t _ p (by decide) hseal hwire
        h.paired.sessionKey h.paired.identity
      have hdrew := drew_advanced r r.sender.channel u t h.paired
      simp only
      rw [hdrew]
      rcases receiveAck_wraps _ r.receiver env' wire plaintext _ t _ p hadv hwraps
        (Nat.lt_succ_self _) with ⟨t', hpaired, hrecv, hbuf⟩
      exact ⟨_, t', .spent _ _ _ t' _ _ hpaired rfl hrecv hbuf⟩

/-- What every act of the sender does. -/
theorem relay_moved (r : Relay C) (first : Nat) (s t : Session) (h : r.Faithful first s t)
    (a : RelayAct) : ∃ s' t', r.Moved s t (r.step a) s' t' := by
  cases a with
  | send env now plaintext env' => exact send_relayed r first s t h env now plaintext env'
  | cover env nowMs urandom cover env' =>
      exact cover_relayed r first s t h env nowMs urandom cover env'
  | ack env acked env' =>
      simp only [Relay.step, ChannelEnd.acknowledgement_eq]
      exact ack_relayed r first s t h env env' _
  | sackAck env sack env' =>
      simp only [Relay.step, ChannelEnd.buildSackAck_eq]
      exact ack_relayed r first s t h env env' _
  | processSack sack => exact ⟨s, t, drew_quiet r _ s t s h.paired h.paired rfl⟩
  -- What the sender receives of the other way moves its replay window only.
  | receive env raw =>
      have hout := ChannelEnd.receive_outcome env raw r.sender
      simp only [Relay.step]
      generalize (ChannelEnd.receive env raw).run r.sender = res at hout
      cases hout with
      | refused => exact ⟨s, t, drew_quiet r _ s t s h.paired h.paired rfl⟩
      | garbled x p d hrec =>
          rcases paired_received _ _ s t env raw p d h.paired hrec with ⟨s', hpaired, hnext⟩
          exact ⟨s', t, drew_quiet r _ s t s' h.paired hpaired hnext⟩
      | accepted p d plaintext hrec =>
          rcases paired_received _ _ s t env raw p d h.paired hrec with ⟨s', hpaired, hnext⟩
          exact ⟨s', t, drew_quiet r _ s t s' h.paired hpaired hnext⟩
  | receiveAck env raw =>
      simp only [Relay.step]
      rcases ChannelEnd.receiveAck_final env raw r.sender with hsame | ⟨p, d, hrec, hfin⟩
      · rw [hsame]
        exact ⟨s, t, drew_quiet r _ s t s h.paired h.paired rfl⟩
      · rcases paired_received _ _ s t env raw p d h.paired hrec with ⟨s', hpaired, hnext⟩
        refine ⟨s', t, ?_⟩
        rcases hfin with hfin | ⟨sack, hfin⟩
        · rw [hfin]
          exact drew_quiet r _ s t s' h.paired hpaired hnext
        · rw [hfin]
          exact drew_quiet r _ s t s' h.paired hpaired hnext

/-- A faithful relay with nothing left in the buffer has returned everything. -/
theorem faithful_returned (r : Relay C) (first : Nat) (s t : Session) (h : r.Faithful first s t)
    (hempty : ∀ k, r.receiver.channel.recvBuffer.get? k = none) :
    (∀ i ∈ r.sent, (i.1 : Int) ≤ r.receiver.channel.recvNext) ∧
      r.returned = r.sent.flatMap Prod.snd := by
  have hpassed : ∀ i ∈ r.sent, (i.1 : Int) ≤ r.receiver.channel.recvNext := by
    intro i hi
    rcases h.held i hi with hle | hbuf
    · exact hle
    · exact absurd (hempty i.1) hbuf
  refine ⟨hpassed, ?_⟩
  rw [h.inStep.returned]
  exact upTo_all _ _ hpassed

/-- Without a hole the buffer is empty: the number after the one reached would
    be on a DATA packet, and the receiver would have passed it. -/
theorem whole_empty (r : Relay C) (first : Nat) (s t : Session) (h : r.Faithful first s t)
    (hwhole : r.Whole) (k : Nat) :
    r.receiver.channel.recvBuffer.get? k = none := by
  by_contra hsome
  rcases Option.ne_none_iff_exists'.mp hsome with ⟨x, hx⟩
  rcases h.inStep.buffered k x hx with ⟨hbeyond, hk⟩
  rcases h.inStep.reached with hneg | ⟨i, hi, hreached⟩
  · exact hsome (h.inStep.unstarted hneg k)
  · have hlow := (h.drawn i hi).1
    have hhigh : k < s.localSequence := (h.drawn _ hk).2
    rcases h.shared (i.1 + 1) (by omega) (by omega) with hspent | ⟨y, hy⟩
    · exact hwhole (i.1 + 1) hspent i hi _ hk ⟨by omega, by simp only; omega⟩
    · rcases h.held _ hy with hle | hbuf
      · simp only at hle
        omega
      · rcases Option.ne_none_iff_exists'.mp hbuf with ⟨z, hz⟩
        have hnext := (h.inStep.buffered _ z hz).1
        simp only at hnext
        omega

/-- A faithful relay is transparent exactly when it is unbroken. -/
theorem faithful_transparent_iff (r : Relay C) (first : Nat) (s t : Session)
    (h : r.Faithful first s t) : r.Transparent ↔ r.Unbroken := by
  constructor
  · rintro ⟨hreturned, hsize⟩
    have hempty := (Dict.size_eq_zero _).mp hsize
    rcases faithful_returned r first s t h hempty with ⟨hpassed, hall⟩
    refine ⟨?_, ?_⟩
    · rintro k hk i hi j hj ⟨hik, hkj⟩
      -- The receiver has passed the hole, so it was no hole.
      have hjle := hpassed j hj
      rcases h.inStep.gapless k (by omega) ⟨i, hi, by omega⟩ with ⟨x, hx⟩
      exact (h.disjoint k hk).2 x hx
    · rw [← hall]
      exact hreturned
  · rintro ⟨hwhole, hcarried⟩
    have hempty := whole_empty r first s t h hwhole
    refine ⟨?_, (Dict.size_eq_zero _).mpr hempty⟩
    rw [(faithful_returned r first s t h hempty).2]
    exact hcarried

/-- Every act keeps a relay faithful. -/
theorem step_faithful (r : Relay C) (first : Nat) (a : RelayAct)
    (h : ∃ s t, r.Faithful first s t) : ∃ s t, (r.step a).Faithful first s t := by
  rcases h with ⟨s, t, hr⟩
  rcases relay_moved r first s t hr a with ⟨s', t', hmove⟩
  exact ⟨s', t', moved_faithful _ _ _ _ _ _ _ hr hmove⟩

/-- Passing DATA on changes nothing but the receiver and what it returned. -/
theorem pass_accounted (r : Relay C) (env : Env) (raw : Bytes) (h : r.Accounted) :
    (r.pass env raw).Accounted := by
  unfold Relay.pass
  cases (ChannelEnd.receive env raw).run r.receiver with
  | ok out b => exact ⟨h.counted, h.dull⟩
  | error e b => exact ⟨h.counted, h.dull⟩

/-- A message that is put down adds to the messages. -/
theorem plaintext_accounted (r : Relay C) (a : ChannelEnd C) (n : Nat) (x : Bytes)
    (h : r.Accounted) :
    Relay.Accounted
      { r with
        sender := a
        sent := r.sent ++ [(n, x)]
        plaintexts := r.plaintexts ++ [x] } := by
  have hcount := h.counted
  refine ⟨?_, fun hdull => ?_⟩
  · simp only [List.flatMap_append, List.flatMap_singleton, List.flatten_append,
      List.flatten_singleton, List.length_append]
    omega
  · simp only [List.flatMap_append, List.flatMap_singleton, List.flatten_append,
      List.flatten_singleton]
    rw [h.dull hdull]

/-- A cover packet that is put down adds to the dummies. -/
theorem dummy_accounted (r : Relay C) (a : ChannelEnd C) (n : Nat) (x : Bytes)
    (h : r.Accounted) :
    Relay.Accounted
      { r with sender := a, sent := r.sent ++ [(n, x)], dummies := r.dummies ++ [x] } := by
  have hcount := h.counted
  refine ⟨?_, fun hdull => ?_⟩
  · simp only [List.flatMap_append, List.flatMap_singleton, List.flatten_append,
      List.flatten_singleton, List.length_append]
    omega
  · -- A dummy that carries nothing adds nothing.
    have hx : x = [] := hdull x (List.mem_append_right _ (List.mem_singleton.mpr rfl))
    have hold := h.dull (fun d hd => hdull d (List.mem_append_left _ hd))
    simp only [List.flatMap_append, List.flatMap_singleton]
    rw [hold, hx, List.append_nil]

/-- An act in time keeps the account. -/
theorem step_accounted (r : Relay C) (a : RelayAct) (h : r.Accounted) (htime : a.InTime) :
    (r.step a).Accounted := by
  -- An act that passes nothing leaves both counts alone.
  have hdrew : ∀ a, (r.drew a).Accounted := fun a => ⟨h.counted, h.dull⟩
  cases a with
  | send env now plaintext env' =>
      have htimely : Session.Timely env'.receiveMs env.buildMs := htime
      simp only [Relay.step]
      cases (ChannelEnd.send env now plaintext).run r.sender with
      | error e a => exact hdrew a
      | ok out a =>
          cases out with
          | none => exact hdrew a
          | some sent =>
              simp only [Relay.passData]
              rw [if_pos htimely]
              exact pass_accounted _ env' _ (plaintext_accounted r a _ plaintext h)
  | cover env nowMs urandom cover env' =>
      have htimely : Session.Timely env'.receiveMs env.buildMs := htime
      simp only [Relay.step]
      cases (ChannelEnd.maybeSend env nowMs urandom cover).run r.sender with
      | error e a => exact hdrew a
      | ok out a =>
          rcases out with ⟨wire, cover'⟩
          cases wire with
          | none => exact hdrew a
          | some wire =>
              simp only [Relay.passData]
              rw [if_pos htimely]
              exact pass_accounted _ env' _ (dummy_accounted r a _ _ h)
  | ack env acked env' =>
      simp only [Relay.step]
      cases (ChannelEnd.acknowledgement env acked).run r.sender with
      | error e a => exact hdrew a
      | ok wire a => exact ⟨h.counted, h.dull⟩
  | sackAck env sack env' =>
      simp only [Relay.step]
      cases (ChannelEnd.buildSackAck env sack).run r.sender with
      | error e a => exact hdrew a
      | ok wire a => exact ⟨h.counted, h.dull⟩
  | receive env raw => exact hdrew _
  | receiveAck env raw => exact hdrew _
  | processSack sack => exact hdrew _

/-- Where nothing is late, the DATA carries what the messages do exactly when
    no dummy carries anything. -/
theorem accounted_iff (r : Relay C) (h : r.Accounted) :
    r.Unbroken ↔ r.Whole ∧ ∀ d ∈ r.dummies, d = [] := by
  refine ⟨fun ⟨hwhole, hcarried⟩ => ⟨hwhole, ?_⟩, fun ⟨hwhole, hdull⟩ => ⟨hwhole, h.dull hdull⟩⟩
  have hlen := h.counted
  rw [hcarried] at hlen
  have hzero : r.dummies.flatten = [] := List.eq_nil_of_length_eq_zero (by omega)
  exact List.flatten_eq_nil_iff.mp hzero

/-- Freshly paired ends make a faithful relay. -/
theorem opened_faithful (a b : ChannelEnd C) (s t : Session)
    (h : Paired a.endpoint b.endpoint s t) (hb : b.channel.Fresh) :
    (Relay.opened a b).Faithful s.localSequence s t := by
  refine ⟨h, List.Pairwise.nil, ?_, Nat.le_refl _, Channel.fresh_inStep _ hb, ?_, ?_, ?_⟩
  · intro i hi
    simp only [Relay.opened, List.not_mem_nil] at hi
  · intro i hi
    simp only [Relay.opened, List.not_mem_nil] at hi
  · intro k hlow hhigh
    omega
  · intro k hk
    simp only [Relay.opened, List.not_mem_nil] at hk

/-- On one session, whatever messages, cover packets and ACKs the sender builds
    and whatever it receives meanwhile, and every packet passed on in order: the
    receiver has returned exactly the messages, with nothing left in its buffer,
    if and only if no number between two DATA packets that came in time was on
    anything else, and these carry what the messages do. Where nothing is late,
    they do exactly when no cover packet carried a byte. -/
theorem transparent_iff_unbroken (a b : ChannelEnd C) (s t : Session)
    (hpaired : Paired a.endpoint b.endpoint s t) (hb : b.channel.Fresh) (acts : List RelayAct) :
    let r := acts.foldl Relay.step (Relay.opened a b)
    (r.Transparent ↔ r.Unbroken) ∧
      ((∀ act ∈ acts, act.InTime) → (r.Unbroken ↔ r.Whole ∧ ∀ d ∈ r.dummies, d = [])) := by
  intro r
  constructor
  · have hrun := along_invariant
      (fun r => ∃ s' t', Relay.Faithful (C := C) r s.localSequence s' t')
      (fun r act hr (_ : True) => step_faithful r s.localSequence act hr) _ acts
      ⟨s, t, opened_faithful a b s t hpaired hb⟩ (along_true _ _)
    rcases hrun with ⟨s', t', hfaithful⟩
    exact faithful_transparent_iff _ _ s' t' hfaithful
  · intro htime
    have hstart : (Relay.opened a b).Accounted := ⟨rfl, fun _ => rfl⟩
    exact accounted_iff r (along_invariant Relay.Accounted step_accounted _ acts hstart
      (along_of_forall _ acts htime))

/-- An ACK, two messages in a row and another ACK. -/
def acksAround : List RelayAct :=
  [.ack toyEnv 0 toyEnv, .send toyEnv 0 [1] toyEnv, .send toyEnv 0 [2] toyEnv,
    .sackAck toyEnv ⟨0, []⟩ toyEnv]

/-- The messages come out. -/
theorem acks_around_transparent :
    (acksAround.foldl Relay.step (Relay.opened (toyEnds {}).1 (toyEnds {}).2)).Transparent := by
  rcases toyEnds_paired {} with ⟨s, t, hpaired⟩
  exact (transparent_iff_unbroken (toyEnds {}).1 (toyEnds {}).2 s t hpaired default_fresh
    acksAround).1.mpr (by decide +kernel)

/-- Two messages with an ACK between them. -/
def ackBetween : List RelayAct :=
  [.send toyEnv 0 [1] toyEnv, .ack toyEnv 0 toyEnv, .send toyEnv 0 [2] toyEnv]

/-- A message followed by a cover packet of one byte. -/
def coverAfter : List RelayAct :=
  [.send toyEnv 0 [1] toyEnv,
    .cover toyEnv 2000 (fun n => List.replicate n 9) { coverSize := 1, lastSendMs := 0 } toyEnv]

/-- The message behind the ACK is stuck, and the random byte is returned. -/
theorem ack_stalls_and_cover_leaks :
    ((∀ act ∈ ackBetween, act.InTime) ∧ ¬ (ackBetween.foldl Relay.step
      (Relay.opened (toyEnds {}).1 (toyEnds {}).2)).Transparent) ∧
    (∀ act ∈ coverAfter, act.InTime) ∧ ¬ (coverAfter.foldl Relay.step
      (Relay.opened (toyEnds {}).1 (toyEnds {}).2)).Transparent := by
  decide +kernel

end Ztlnp
