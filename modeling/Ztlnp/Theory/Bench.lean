import Ztlnp.Core.Reliability
import Ztlnp.Theory.Transparency

/-!
# Everything That Draws a Number

One session with everything on it that builds packets: the builders of the
device, the two reliable channels, the cover traffic and the confirmation of
the handshake.

They share a counter. It is advanced before a packet is built, and a number
that does not fit the header makes the packet fail, so whatever comes out
carries the number that was next and the counter has moved past it. `Draws`
lists what that leaves: a builder is refused before it draws, spoils the
number it drew, or emits a packet under it. All of the builders are of that
form, and the order of the numbers on the wire follows from it alone.

The channels key their dictionaries with the number they read back out of the
bytes. What they hold was emitted, so a number that is next is not among it.

Beside each channel an audit keeps what its methods have returned and raised.
With it the channel is an outbox, and every act on the bench is a move of it.

## Main definitions

* `Numbered`, `Numbered.run`: The builders that draw from the session.
* `Audit`, `Report`: What the methods of a channel have returned and raised.
* `Bench`, `BenchAct`, `Bench.step`: The machine.
* `Bench.slidingOutbox`, `Bench.reliableOutbox`: Its channels as outboxes.
* `Bench.Ordered`: The numbers on the wire ascend, and what the channels have
  issued was emitted.
* `Bench.Exhausted`: Every builder raises.
* `Draws`, `Emission`: The paths of a builder.
* `Bench.Stepped`: What an act can do.

## Theorems

* `numbered_draws`: Every builder draws its number before it can fail.
* `step_stepped`: The inventory of acts is complete.
* `stepped_ordered`: Every act keeps the bench ordered.
* `stepped_slidingMove`, `stepped_reliableMove`: Every act is a move of both
  outboxes.
* `numbers_unique`: Numbers on the wire ascend and fit, and nothing in a
  channel is overwritten.
-/

namespace Ztlnp

variable {C : Primitives}

/-- The packets that are built under a number of the session, one for every
    builder. -/
inductive Numbered
  | data (plaintext : Bytes)
  | dataMac (plaintext : Bytes)
  | ack (ackedSequence : Nat)
  | bye
  | sackAck (sack : SackFrame)
  | keyExchange
deriving DecidableEq

namespace ChannelEnd

/-- A packet that the device builds for the peer of the protocol, in bytes. -/
def peerBytes (build : Bytes → EStateM Exn (Device C) Packet) :
    EStateM Exn (ChannelEnd C) Bytes := do
  let peerId ← onProtocol Endpoint.requirePeer
  let packet ← onDevice (build peerId)
  ofExcept packet.toBytes

end ChannelEnd

/-- The builders. The confirmation of the handshake draws its number and is
    built in one go. -/
def Numbered.run (env : Env) : Numbered → EStateM Exn (ChannelEnd C) Bytes
  | data plaintext => ChannelEnd.peerBytes (fun id => Device.buildDataPacket env id plaintext)
  | dataMac plaintext =>
    ChannelEnd.peerBytes (fun id => Device.buildDataPacketMac env id plaintext)
  | ack n => ChannelEnd.peerBytes (fun id => Device.buildAckPacket env id n)
  | bye => ChannelEnd.peerBytes (fun id => Device.buildByePacket env id)
  | sackAck sack => ChannelEnd.buildSackAck env sack
  | keyExchange => do
    let peerId ← ChannelEnd.onProtocol Endpoint.requirePeer
    ChannelEnd.onDevice (Endpoint.confirmKeys env peerId)

/-- An exception of a poll, with the numbers it reports as lost. -/
structure Report where
  lost : List Nat
  error : Exn
deriving DecidableEq

/-- What the methods of a channel have returned and raised: the packets of
    `send`, the numbers that acknowledgements removed and the sum of the counts
    they returned, and the outcomes of the polls. -/
structure Audit where
  issued : List (Nat × Bytes) := []
  acked : List Nat := []
  total : Nat := 0
  reports : List Report := []
  returned : List (List Bytes) := []
deriving DecidableEq

/-- The packets in flight with their past. -/
def Audit.outbox (a : Audit) (box : Dict Nat WindowedPacket) :
    Outbox Nat WindowedPacket Bytes where
  box := box
  issued := a.issued
  retired := a.acked
  reported := a.reports.map Report.lost
  handed := a.returned

theorem Audit.outbox_report (a : Audit) (box : Dict Nat WindowedPacket) (lost : List Nat)
    (error : Exn) :
    Audit.outbox { a with reports := a.reports ++ [⟨lost, error⟩] } box
      = { a.outbox box with reported := (a.outbox box).reported ++ [lost] } := by
  simp only [Audit.outbox, List.map_append, List.map_cons, List.map_nil]

/-- A session with a channel of either kind and a source of cover traffic on
    it, everything that was emitted, and the audits of the channels. -/
structure Bench (C : Primitives) where
  endpoint : Endpoint C
  sliding : Channel
  reliable : ReliableChannel
  cover : CoverTraffic
  wires : List Bytes := []
  slidingAudit : Audit := {}
  reliableAudit : Audit := {}
deriving DecidableEq

/-- What can happen on a bench. -/
inductive BenchAct
  | build (env : Env) (b : Numbered)
  | maybeSend (env : Env) (nowMs : Rat) (urandom : Nat → Bytes)
  | send (env : Env) (now : Rat) (plaintext : Bytes)
  | sendReliable (env : Env) (now : Rat) (plaintext : Bytes)
  | processSack (sack : SackFrame)
  | processAck (sequence : Nat)
  | poll (due sent : Nat → Rat)
  | pollReliable (due sent : Nat → Rat)

namespace Bench

/-- The sliding-window channel on its protocol. -/
def slidingEnd (b : Bench C) : ChannelEnd C := ⟨b.sliding, b.endpoint⟩

/-- The stop-and-wait channel on the same protocol. -/
def reliableEnd (b : Bench C) : ReliableEnd C := ⟨b.reliable, b.endpoint⟩

/-- The sliding window with its past. -/
def slidingOutbox (b : Bench C) : Outbox Nat WindowedPacket Bytes :=
  b.slidingAudit.outbox b.sliding.sendWindow

/-- The pending packets with their past. -/
def reliableOutbox (b : Bench C) : Outbox Nat WindowedPacket Bytes :=
  b.reliableAudit.outbox b.reliable.pending

/-- The number that the session will hand out next. -/
def next (b : Bench C) : Nat := b.slidingEnd.nextSequence

/-- One act, recorded. A call that raises emits nothing. -/
def step (b : Bench C) : BenchAct → Bench C
  | .build env n =>
    match (n.run env).run b.slidingEnd with
    | .ok wire s => { b with endpoint := s.endpoint, wires := b.wires ++ [wire] }
    | .error _ s => { b with endpoint := s.endpoint }
  | .maybeSend env nowMs urandom =>
    match (ChannelEnd.maybeSend env nowMs urandom b.cover).run b.slidingEnd with
    | .ok (wire, cover) s =>
      { b with endpoint := s.endpoint, cover := cover, wires := b.wires ++ wire.toList }
    | .error _ s => { b with endpoint := s.endpoint }
  | .send env now plaintext =>
    match (ChannelEnd.send env now plaintext).run b.slidingEnd with
    | .ok (some (n, wire)) s =>
      { b with
        endpoint := s.endpoint
        sliding := s.channel
        wires := b.wires ++ [wire]
        slidingAudit := { b.slidingAudit with issued := b.slidingAudit.issued ++ [(n, wire)] } }
    | r => { b with endpoint := r.final.endpoint, sliding := r.final.channel }
  | .sendReliable env now plaintext =>
    match (ReliableEnd.send env now plaintext).run b.reliableEnd with
    | .ok (n, wire) s =>
      { b with
        endpoint := s.endpoint
        reliable := s.channel
        wires := b.wires ++ [wire]
        reliableAudit := { b.reliableAudit with issued := b.reliableAudit.issued ++ [(n, wire)] } }
    | .error _ s => { b with endpoint := s.endpoint, reliable := s.channel }
  | .processSack sack =>
    -- The numbers that are counted are those of the window that the frame names.
    { b with
      sliding := (b.sliding.processSack sack).1
      slidingAudit := { b.slidingAudit with
        acked := b.slidingAudit.acked ++
          b.sliding.sendWindow.keys.filter (fun n => n ∈ sack.allAcked)
        total := b.slidingAudit.total + (b.sliding.processSack sack).2 } }
  | .processAck n =>
    { b with
      reliable := (b.reliable.processAck n).1
      reliableAudit := { b.reliableAudit with
        acked := b.reliableAudit.acked ++ if (b.reliable.processAck n).2 then [n] else []
        total := b.reliableAudit.total + if (b.reliable.processAck n).2 then 1 else 0 } }
  | .poll due sent =>
    match (Channel.getRetransmissions due sent).run b.sliding with
    | .ok again c =>
      { b with
        sliding := c
        slidingAudit := { b.slidingAudit with returned := b.slidingAudit.returned ++ [again] } }
    | .error x c =>
      { b with
        sliding := c
        slidingAudit := { b.slidingAudit with reports := b.slidingAudit.reports ++
          [⟨(b.sliding.sendWindow.filter (b.sliding.isLost due)).keys, x⟩] } }
  | .pollReliable due sent =>
    match (ReliableChannel.getRetransmissions due sent).run b.reliable with
    | .ok again r =>
      { b with
        reliable := r
        reliableAudit := { b.reliableAudit with
          returned := b.reliableAudit.returned ++ [again] } }
    | .error x r =>
      { b with
        reliable := r
        reliableAudit := { b.reliableAudit with reports := b.reliableAudit.reports ++
          [⟨(b.reliable.pending.filter (b.reliable.asWindow.isLost due)).keys, x⟩] } }

/-- A DATA packet of the sliding window can be built. -/
def builds (b : Bench C) (env : Env) (plaintext : Bytes) : Bool :=
  ((ChannelEnd.dataPacket env b.sliding.useMac plaintext).run b.endpoint).returned.isSome

/-- Nothing has been emitted yet, and the channels are as they are opened. -/
def opened (e : Endpoint C) (c : Channel) (r : ReliableChannel) (cover : CoverTraffic) :
    Bench C :=
  { endpoint := e, sliding := c, reliable := r, cover := cover }

/-- The numbers on the wire ascend, fit, and are not to be handed out again, and
    what the channels have issued was emitted under its number. -/
structure Ordered (b : Bench C) : Prop where
  ascending : (b.wires.map wireSequence).Pairwise (· < ·)
  drawn : ∀ w ∈ b.wires, wireSequence w < b.next ∧ wireSequence w < 2 ^ 32
  sliding : ∀ i ∈ b.slidingAudit.issued, i.2 ∈ b.wires ∧ wireSequence i.2 = i.1
  reliable : ∀ i ∈ b.reliableAudit.issued, i.2 ∈ b.wires ∧ wireSequence i.2 = i.1

/-- Every builder raises, and nothing is emitted. A cover packet that is not due
    and a window that is full do not get as far. -/
structure Exhausted (b : Bench C) : Prop where
  build : ∀ env (n : Numbered), ((n.run env).run b.slidingEnd).returned = none
  cover : ∀ env nowMs urandom, ¬ nowMs - b.cover.lastSendMs < b.cover.intervalMs →
    ((ChannelEnd.maybeSend env nowMs urandom b.cover).run b.slidingEnd).returned = none
  sliding : ∀ env now plaintext, b.sliding.canSend = true →
    ((ChannelEnd.send env now plaintext).run b.slidingEnd).returned = none
  reliable : ∀ env now plaintext,
    ((ReliableEnd.send env now plaintext).run b.reliableEnd).returned = none
  wires : ∀ a, (b.step a).wires = b.wires

/-- The bench is ordered, and its channels hold what they have issued. -/
structure Sound (b : Bench C) : Prop where
  ordered : b.Ordered
  window : b.slidingOutbox.Sound (retrySchedule b.sliding.maxRetries)
  pending : b.reliableOutbox.Sound (retrySchedule b.reliable.maxRetries)

end Bench

namespace ChannelEnd

/-- The paths of a builder: the packet it emits carries the number that was
    next. -/
def Draws (e : Endpoint C) (r : EStateM.Result Exn (Endpoint C) Bytes) : Prop :=
  Builds (fun _ s p => p.sequence = s.localSequence) e r

theorem Builds.mono {Seals Seals' : Bytes → Session → Packet → Prop} {e : Endpoint C}
    {r : EStateM.Result Exn (Endpoint C) Bytes} (h : Builds Seals e r)
    (hseals : ∀ id s p, Seals id s p → Seals' id s p) : Builds Seals' e r := by
  cases h with
  | refused x => exact .refused x
  | spoilt peerId s x hpeer hget => exact .spoilt peerId s x hpeer hget
  | built peerId s p wire hpeer hget hseal hwire =>
      exact .built peerId s p wire hpeer hget (hseals _ _ _ hseal) hwire

theorem sealedAs_sequence {d : Device C} {env : Env} {t : PacketType} {flags : Nat}
    {plaintext : Bytes} {auth : Device C → Session → Packet → Except Exn Bytes} {id : Bytes}
    {s : Session} {p : Packet} (h : SealedAs d env t flags plaintext auth id s p) :
    p.sequence = s.localSequence :=
  (Device.sealPacket_eq_ok _ _ _ _ _ _ _ _ _ _ h).1.sequence

theorem dataPacket_draws (env : Env) (useMac : Bool) (plaintext : Bytes) (e : Endpoint C) :
    Draws e ((dataPacket env useMac plaintext).run e) :=
  (dataPacket_builds env useMac plaintext e).mono (fun _ _ _ h => sealedAs_sequence h)

theorem ackBytes_draws (env : Env) (payload : Except Exn Bytes) (e : Endpoint C) :
    Draws e ((ackBytes env payload).run e) :=
  (ackBytes_builds env payload e).mono (fun _ _ _ ⟨_, h⟩ => sealedAs_sequence h)

/-- A builder that needs the peer does nothing without one. -/
theorem draws_requirePeer (x : Bytes → EStateM Exn (Endpoint C) Bytes) (e : Endpoint C)
    (hx : ∀ peerId, e.proto.peerId = some peerId → Draws e ((x peerId).run e)) :
    Draws e ((Endpoint.requirePeer >>= x).run e) := by
  rw [EStateM.run_bind]
  rcases Endpoint.requirePeer_cases e with ⟨peerId, hpeer, hreq⟩ | ⟨_, y, hreq⟩
  · rw [hreq]
    exact hx peerId hpeer
  · rw [hreq]
    exact .refused y

/-- What the three builders around a given plaintext have in common. -/
theorem peerBytes_sealed (env : Env) (t : PacketType) (flags : Nat) (plaintext : Bytes)
    (auth : Device C → Session → Packet → Except Exn Bytes) :
    peerBytes (fun id => Device.buildSealed env t flags id plaintext auth)
      = onProtocol (Endpoint.requirePeer >>= fun id =>
          sealedBytes env t flags id plaintext auth) := by
  simp only [peerBytes, sealedBytes, onProtocol_bind, onProtocol_ofExcept]
  rfl

/-- The confirmation of the handshake. The session it is sealed under is the one
    that has already moved on. -/
theorem confirmKeys_draws (env : Env) (peerId : Bytes) (e : Endpoint C)
    (hpeer : e.proto.peerId = some peerId) :
    Draws e ((Endpoint.onDevice (Endpoint.confirmKeys env peerId)).run e) := by
  cases hget : e.device.sessions.get? peerId with
  | none =>
      -- Without a session the number is not drawn at all.
      have hrun : (Device.onSession peerId Session.nextSequence).run e.device
          = .error (Device.noSession peerId) e.device := by
        simp only [EStateM.run, Device.onSession, hget]
      simp only [Endpoint.run_onDevice, Endpoint.confirmKeys, EStateM.run_bind, hrun]
      exact .refused _
  | some s =>
      -- Both halves read the session that `nextSequence` just stored.
      have hsess : (Device.getSession peerId).run (e.device.advanced peerId s)
          = .ok { s with localSequence := s.localSequence + 1 } (e.device.advanced peerId s) := by
        rw [Device.getSession_eq_ok]
        exact ⟨Dict.get?_set_self _ _ _, rfl⟩
      simp only [Endpoint.run_onDevice, Endpoint.confirmKeys, Endpoint.buildKeyExchangePacket,
        EStateM.run_bind, Device.onSession_nextSequence peerId e.device s hget, hsess,
        EStateM.run_get]
      cases hseal : (e.device.advanced peerId s).sealPacket env .keyExchange flagEncrypted peerId
          keyExchangeOk { s with localSequence := s.localSequence + 1 } s.localSequence
          Device.signed with
      | error x => exact .spoilt peerId s x hpeer hget
      | ok p =>
          -- The draw is spent by now, whether or not the packet still fails.
          simp only [run_ofExcept_ok]
          cases hbytes : p.toBytes with
          | error x => exact .spoilt peerId s x hpeer hget
          | ok wire =>
              exact .built peerId s p wire hpeer hget
                (Device.sealPacket_eq_ok _ _ _ _ _ _ _ _ _ _ hseal).1.sequence hbytes

/-- Every builder is a program on the protocol that draws its number before it
    can fail. -/
theorem numbered_draws (env : Env) (n : Numbered) :
    ∃ x : EStateM Exn (Endpoint C) Bytes, n.run env = onProtocol x ∧ ∀ e, Draws e (x.run e) := by
  -- Every numbered packet but the confirmation and the acknowledgements is sealed.
  have hsealed : ∀ t flags plaintext (auth : Device C → Session → Packet → Except Exn Bytes),
      ∃ x : EStateM Exn (Endpoint C) Bytes,
        peerBytes (fun id => Device.buildSealed env t flags id plaintext auth) = onProtocol x ∧
          ∀ e, Draws e (x.run e) := by
    intro t flags plaintext auth
    refine ⟨_, peerBytes_sealed env t flags plaintext auth, fun e => ?_⟩
    refine draws_requirePeer _ e (fun peerId hpeer => ?_)
    exact (sealedBytes_builds env t flags peerId plaintext auth e hpeer).mono
      (fun _ _ _ h => sealedAs_sequence h)
  cases n with
  | data plaintext => exact hsealed _ _ _ _
  | dataMac plaintext => exact hsealed _ _ _ _
  | bye => exact hsealed _ _ _ _
  | ack n => exact ⟨_, acknowledgement_eq env n, ackBytes_draws env _⟩
  | sackAck sack => exact ⟨_, buildSackAck_eq env sack, ackBytes_draws env _⟩
  | keyExchange =>
      refine ⟨Endpoint.requirePeer >>= fun id => Endpoint.onDevice (Endpoint.confirmKeys env id),
        ?_, fun e => draws_requirePeer _ e (fun id hid => confirmKeys_draws env id e hid)⟩
      rw [onProtocol_bind]
      rfl

/-- What a builder does to its protocol, and what it puts on the wire. -/
inductive Emission (e : Endpoint C) : Endpoint C → List Bytes → Prop
  | refused : Emission e e []
  /-- A number was drawn and nothing was emitted. -/
  | spoilt (peerId : Bytes) (s : Session) (hpeer : e.proto.peerId = some peerId)
      (hget : e.device.sessions.get? peerId = some s) :
      Emission e (e.advanced peerId s) []
  /-- A number was drawn, and it fits. -/
  | emitted (peerId : Bytes) (s : Session) (wire : Bytes) (hpeer : e.proto.peerId = some peerId)
      (hget : e.device.sessions.get? peerId = some s)
      (hnumber : wireSequence wire = s.localSequence) (hfits : s.localSequence < 2 ^ 32) :
      Emission e (e.advanced peerId s) [wire]

/-- A packet that could be serialised has a number that fits. -/
theorem toBytes_fits (p : Packet) (wire : Bytes) (h : p.toBytes = .ok wire) :
    wireSequence wire = p.sequence ∧ p.sequence < 2 ^ 32 :=
  ⟨p.sequence_at_offset wire h, ((p.toBytes_eq_ok wire).mp h).1.2.2.1⟩

theorem Draws.emission {e : Endpoint C} {r : EStateM.Result Exn (Endpoint C) Bytes}
    (h : Draws e r) : Emission e r.final r.returned.toList := by
  cases h with
  | refused x => exact .refused
  | spoilt peerId s x hpeer hget => exact .spoilt peerId s hpeer hget
  | built peerId s p wire hpeer hget hseal hwire =>
      have hfits := toBytes_fits p wire hwire
      rw [hseal] at hfits
      exact .emitted peerId s wire hpeer hget hfits.1 hfits.2

end ChannelEnd

/-- A poll of the stop-and-wait channel. -/
def ReliableChannel.timer (r : ReliableChannel) (due sent : Nat → Rat) :
    Timer Nat (retrySchedule r.maxRetries) :=
  retryTimer due sent r.maxTimeoutMs r.maxRetries

/-- A poll of this channel sweeps its pending packets. -/
theorem ReliableChannel.getRetransmissions_polls (due sent : Nat → Rat) (r : ReliableChannel) :
    (getRetransmissions due sent).run r =
      if (r.timer due sent).lost r.pending = [] then
        .ok (((r.timer due sent).overdue r.pending).entries.map (fun e => e.2.packetBytes))
          { r with pending := (r.timer due sent).swept r.pending }
      else
        .error (retransmitError ((r.timer due sent).lost r.pending) r.maxRetries)
          { r with pending := (r.timer due sent).swept r.pending } := by
  rw [getRetransmissions_run, Channel.getRetransmissions_run]
  by_cases hlost : (r.asWindow.timer due sent).lost r.asWindow.sendWindow = []
  · rw [if_pos hlost]
    exact (if_pos hlost).symm
  · rw [if_neg hlost]
    exact (if_neg hlost).symm

namespace ReliableEnd

theorem send_run (env : Env) (now : Rat) (plaintext : Bytes) (s : ReliableEnd C) :
    (send env now plaintext).run s =
      match (ChannelEnd.dataPacket env s.channel.useMac plaintext).run s.endpoint with
      | .ok wire e =>
        .ok (beDecode (field wire sequenceOffset 4), wire)
          ⟨s.channel.enqueued (beDecode (field wire sequenceOffset 4)) wire now, e⟩
      | .error x e => .error x { s with endpoint := e } := by
  simp only [send, EStateM.run_bind, EStateM.run_get, onProtocol, run_zoom]
  cases (ChannelEnd.dataPacket env s.channel.useMac plaintext).run s.endpoint with
  | ok wire e => rfl
  | error x e => rfl

end ReliableEnd

namespace Bench

open ChannelEnd (Emission)

/-- What an act can do. -/
inductive Stepped (b : Bench C) : BenchAct → Bench C → Prop
  | built (env : Env) (n : Numbered) (e : Endpoint C) (wires : List Bytes)
      (hemit : Emission b.endpoint e wires) :
      Stepped b (.build env n) { b with endpoint := e, wires := b.wires ++ wires }
  | covered (env : Env) (nowMs : Rat) (urandom : Nat → Bytes) (e : Endpoint C)
      (cover : CoverTraffic) (wires : List Bytes) (hemit : Emission b.endpoint e wires) :
      Stepped b (.maybeSend env nowMs urandom)
        { b with endpoint := e, cover := cover, wires := b.wires ++ wires }
  /-- The window is full, or the build has failed. -/
  | held (env : Env) (now : Rat) (plaintext : Bytes) (e : Endpoint C)
      (hheld : ¬ (b.sliding.canSend = true ∧ b.builds env plaintext = true))
      (hemit : Emission b.endpoint e []) :
      Stepped b (.send env now plaintext) { b with endpoint := e }
  | sent (env : Env) (now : Rat) (plaintext : Bytes) (e : Endpoint C) (wire : Bytes)
      (hroom : b.sliding.canSend = true) (hbuilds : b.builds env plaintext = true)
      (hemit : Emission b.endpoint e [wire]) :
      Stepped b (.send env now plaintext)
        { b with
          endpoint := e
          sliding := b.sliding.enqueued (wireSequence wire) wire now
          wires := b.wires ++ [wire]
          slidingAudit := { b.slidingAudit with
            issued := b.slidingAudit.issued ++ [(wireSequence wire, wire)] } }
  | heldReliable (env : Env) (now : Rat) (plaintext : Bytes) (e : Endpoint C)
      (hemit : Emission b.endpoint e []) :
      Stepped b (.sendReliable env now plaintext) { b with endpoint := e }
  | sentReliable (env : Env) (now : Rat) (plaintext : Bytes) (e : Endpoint C) (wire : Bytes)
      (hemit : Emission b.endpoint e [wire]) :
      Stepped b (.sendReliable env now plaintext)
        { b with
          endpoint := e
          reliable := b.reliable.enqueued (wireSequence wire) wire now
          wires := b.wires ++ [wire]
          reliableAudit := { b.reliableAudit with
            issued := b.reliableAudit.issued ++ [(wireSequence wire, wire)] } }
  | processed (sack : SackFrame) : Stepped b (.processSack sack) (b.step (.processSack sack))
  | acknowledged (n : Nat) : Stepped b (.processAck n) (b.step (.processAck n))
  | returned (due sent : Nat → Rat)
      (hlost : (b.sliding.timer due sent).lost b.sliding.sendWindow = []) :
      Stepped b (.poll due sent)
        { b with
          sliding := { b.sliding with
            sendWindow := (b.sliding.timer due sent).swept b.sliding.sendWindow }
          slidingAudit := { b.slidingAudit with returned := b.slidingAudit.returned ++
            [((b.sliding.timer due sent).overdue b.sliding.sendWindow).entries.map
              (fun e => e.2.packetBytes)] } }
  | raised (due sent : Nat → Rat)
      (hlost : (b.sliding.timer due sent).lost b.sliding.sendWindow ≠ []) :
      Stepped b (.poll due sent)
        { b with
          sliding := { b.sliding with
            sendWindow := (b.sliding.timer due sent).swept b.sliding.sendWindow }
          slidingAudit := { b.slidingAudit with reports := b.slidingAudit.reports ++
            [⟨(b.sliding.timer due sent).lost b.sliding.sendWindow,
              retransmitError ((b.sliding.timer due sent).lost b.sliding.sendWindow)
                b.sliding.maxRetries⟩] } }
  | returnedReliable (due sent : Nat → Rat)
      (hlost : (b.reliable.timer due sent).lost b.reliable.pending = []) :
      Stepped b (.pollReliable due sent)
        { b with
          reliable := { b.reliable with
            pending := (b.reliable.timer due sent).swept b.reliable.pending }
          reliableAudit := { b.reliableAudit with returned := b.reliableAudit.returned ++
            [((b.reliable.timer due sent).overdue b.reliable.pending).entries.map
              (fun e => e.2.packetBytes)] } }
  | raisedReliable (due sent : Nat → Rat)
      (hlost : (b.reliable.timer due sent).lost b.reliable.pending ≠ []) :
      Stepped b (.pollReliable due sent)
        { b with
          reliable := { b.reliable with
            pending := (b.reliable.timer due sent).swept b.reliable.pending }
          reliableAudit := { b.reliableAudit with reports := b.reliableAudit.reports ++
            [⟨(b.reliable.timer due sent).lost b.reliable.pending,
              retransmitError ((b.reliable.timer due sent).lost b.reliable.pending)
                b.reliable.maxRetries⟩] } }

/-- The inventory is complete. -/
theorem step_stepped (b : Bench C) (a : BenchAct) : b.Stepped a (b.step a) := by
  cases a with
  | build env n =>
      rcases ChannelEnd.numbered_draws (C := C) env n with ⟨x, hx, hdraws⟩
      have hemit := (hdraws b.endpoint).emission
      simp only [step, hx, ChannelEnd.run_onProtocol, slidingEnd]
      cases hrun : x.run b.endpoint with
      | ok wire e =>
          rw [hrun] at hemit
          exact .built env n e [wire] hemit
      | error y e =>
          rw [hrun] at hemit
          have hquiet := Stepped.built (b := b) env n e [] hemit
          rwa [List.append_nil] at hquiet
  -- A cover packet draws only once the interval is over.
  | maybeSend env nowMs urandom =>
      have hemit := (ChannelEnd.dataPacket_draws env b.cover.useMac (urandom b.cover.coverSize)
        b.endpoint).emission
      simp only [step, ChannelEnd.maybeSend_run, slidingEnd]
      by_cases hdue : nowMs - b.cover.lastSendMs < b.cover.intervalMs
      · rw [if_pos hdue]
        exact .covered env nowMs urandom b.endpoint b.cover [] .refused
      · rw [if_neg hdue]
        cases hrun : (ChannelEnd.dataPacket env b.cover.useMac
            (urandom b.cover.coverSize)).run b.endpoint with
        | ok wire e =>
            rw [hrun] at hemit
            exact .covered env nowMs urandom e _ [wire] hemit
        | error y e =>
            rw [hrun] at hemit
            have hquiet := Stepped.covered (b := b) env nowMs urandom e b.cover [] hemit
            rwa [List.append_nil] at hquiet
  | send env now plaintext =>
      have hemit := (ChannelEnd.dataPacket_draws env b.sliding.useMac plaintext
        b.endpoint).emission
      simp only [step, ChannelEnd.send_run, slidingEnd]
      -- A full window refuses before the builder, so nothing is drawn.
      by_cases hroom : b.sliding.canSend = true
      · rw [if_pos hroom]
        cases hrun : (ChannelEnd.dataPacket env b.sliding.useMac plaintext).run b.endpoint with
        | ok wire e =>
            have hbuilds : b.builds env plaintext = true := by
              rw [builds, hrun]
              rfl
            rw [hrun] at hemit
            exact .sent env now plaintext e wire hroom hbuilds hemit
        | error y e =>
            have hbuilds : ¬ b.builds env plaintext = true := by
              rw [builds, hrun]
              exact Bool.false_ne_true
            rw [hrun] at hemit
            exact .held env now plaintext e (fun h => hbuilds h.2) hemit
      · rw [if_neg hroom]
        exact .held env now plaintext b.endpoint (fun h => hroom h.1) .refused
  | sendReliable env now plaintext =>
      have hemit := (ChannelEnd.dataPacket_draws env b.reliable.useMac plaintext
        b.endpoint).emission
      simp only [step, ReliableEnd.send_run, reliableEnd]
      cases hrun : (ChannelEnd.dataPacket env b.reliable.useMac plaintext).run b.endpoint with
      | ok wire e =>
          rw [hrun] at hemit
          exact .sentReliable env now plaintext e wire hemit
      | error y e =>
          rw [hrun] at hemit
          exact .heldReliable env now plaintext e hemit
  | processSack sack => exact .processed sack
  | processAck n => exact .acknowledged n
  -- Neither half of the pollers touches the endpoint, so no number is drawn.
  | poll due sent =>
      simp only [step, Channel.getRetransmissions_run]
      by_cases hlost : (b.sliding.timer due sent).lost b.sliding.sendWindow = []
      · rw [if_pos hlost]
        exact .returned due sent hlost
      · rw [if_neg hlost]
        exact .raised due sent hlost
  | pollReliable due sent =>
      simp only [step, ReliableChannel.getRetransmissions_polls]
      by_cases hlost : (b.reliable.timer due sent).lost b.reliable.pending = []
      · rw [if_pos hlost]
        exact .returnedReliable due sent hlost
      · rw [if_neg hlost]
        exact .raisedReliable due sent hlost

/-- The number that is next on a protocol. -/
theorem next_eq (b : Bench C) (peerId : Bytes) (s : Session)
    (hpeer : b.endpoint.proto.peerId = some peerId)
    (hget : b.endpoint.device.sessions.get? peerId = some s) : b.next = s.localSequence := by
  simp only [next, ChannelEnd.nextSequence, slidingEnd, hpeer, Option.bind_some, hget]

theorem next_advanced (b : Bench C) (peerId : Bytes) (s : Session)
    (hpeer : b.endpoint.proto.peerId = some peerId) :
    next { b with endpoint := b.endpoint.advanced peerId s } = s.localSequence + 1 := by
  refine next_eq _ peerId { s with localSequence := s.localSequence + 1 } hpeer ?_
  exact Dict.get?_set_self _ _ _

/-- What a builder emits carries the number that was next, and the session has
    moved past it. -/
theorem emission_numbers (b : Bench C) (e : Endpoint C) (wires : List Bytes)
    (h : Emission b.endpoint e wires) :
    b.next ≤ next { b with endpoint := e } ∧
      ∀ w ∈ wires, wires = [w] ∧ wireSequence w = b.next ∧
        b.next < next { b with endpoint := e } ∧ b.next < 2 ^ 32 := by
  cases h with
  | refused => exact ⟨Nat.le_refl _, fun w hw => absurd hw List.not_mem_nil⟩
  | spoilt peerId s hpeer hget =>
      rw [next_advanced b peerId s hpeer, next_eq b peerId s hpeer hget]
      exact ⟨Nat.le_succ _, fun w hw => absurd hw List.not_mem_nil⟩
  | emitted peerId s wire hpeer hget hnumber hfits =>
      rw [next_advanced b peerId s hpeer, next_eq b peerId s hpeer hget]
      refine ⟨Nat.le_succ _, fun w hw => ?_⟩
      rw [List.mem_singleton.mp hw]
      exact ⟨rfl, hnumber, Nat.lt_succ_self _, hfits⟩

/-- What a builder does keeps a bench ordered. -/
theorem emission_ordered (b : Bench C) (e : Endpoint C) (wires : List Bytes) (h : b.Ordered)
    (hemit : Emission b.endpoint e wires) :
    Ordered { b with endpoint := e, wires := b.wires ++ wires } := by
  rcases emission_numbers b e wires hemit with ⟨hle, hnew⟩
  have hissued : ∀ i : Nat × Bytes, i.2 ∈ b.wires ∧ wireSequence i.2 = i.1 →
      i.2 ∈ b.wires ++ wires ∧ wireSequence i.2 = i.1 :=
    fun i hi => ⟨List.mem_append_left _ hi.1, hi.2⟩
  refine ⟨?_, fun w hw => ?_, fun i hi => hissued i (h.sliding i hi),
    fun i hi => hissued i (h.reliable i hi)⟩
  · -- Whatever was emitted before lies below the number that was next.
    rw [List.map_append, List.pairwise_append]
    refine ⟨h.ascending, ?_, fun m hm n hn => ?_⟩
    · cases wires with
      | nil => exact List.Pairwise.nil
      | cons w rest =>
          rw [(hnew w List.mem_cons_self).1]
          exact List.pairwise_singleton _ _
    · rcases List.mem_map.mp hm with ⟨v, hv, rfl⟩
      rcases List.mem_map.mp hn with ⟨w, hw, rfl⟩
      rw [(hnew w hw).2.1]
      exact (h.drawn v hv).1
  · rcases List.mem_append.mp hw with hw | hw
    · exact ⟨Nat.lt_of_lt_of_le (h.drawn w hw).1 hle, (h.drawn w hw).2⟩
    · rcases hnew w hw with ⟨_, hnumber, hlt, hfits⟩
      rw [hnumber]
      exact ⟨hlt, hfits⟩

/-- What a channel issues was emitted. -/
theorem issued_emitted (wires : List Bytes) (issued : List (Nat × Bytes)) (wire : Bytes)
    (h : ∀ i ∈ issued, i.2 ∈ wires ++ [wire] ∧ wireSequence i.2 = i.1) (i : Nat × Bytes)
    (hi : i ∈ issued ++ [(wireSequence wire, wire)]) :
    i.2 ∈ wires ++ [wire] ∧ wireSequence i.2 = i.1 := by
  rcases List.mem_append.mp hi with hi | hi
  · exact h i hi
  · rw [List.mem_singleton.mp hi]
    exact ⟨List.mem_append_right _ (List.mem_singleton_self _), rfl⟩

/-- Every act keeps a bench ordered. -/
theorem stepped_ordered (b b' : Bench C) (a : BenchAct) (h : b.Ordered)
    (hstep : b.Stepped a b') : b'.Ordered := by
  cases hstep with
  | built env n e wires hemit => exact emission_ordered b e wires h hemit
  | covered env nowMs urandom e cover wires hemit =>
      have ho := emission_ordered b e wires h hemit
      exact ⟨ho.ascending, ho.drawn, ho.sliding, ho.reliable⟩
  | held env now plaintext e hheld hemit =>
      have ho := emission_ordered b e [] h hemit
      rwa [List.append_nil] at ho
  | heldReliable env now plaintext e hemit =>
      have ho := emission_ordered b e [] h hemit
      rwa [List.append_nil] at ho
  | sent env now plaintext e wire hroom hbuilds hemit =>
      have ho := emission_ordered b e [wire] h hemit
      exact ⟨ho.ascending, ho.drawn, issued_emitted b.wires _ wire ho.sliding, ho.reliable⟩
  | sentReliable env now plaintext e wire hemit =>
      have ho := emission_ordered b e [wire] h hemit
      exact ⟨ho.ascending, ho.drawn, ho.sliding, issued_emitted b.wires _ wire ho.reliable⟩
  -- Nothing else emits or issues anything.
  | processed sack => exact ⟨h.ascending, h.drawn, h.sliding, h.reliable⟩
  | acknowledged n => exact ⟨h.ascending, h.drawn, h.sliding, h.reliable⟩
  | returned due sent hlost => exact ⟨h.ascending, h.drawn, h.sliding, h.reliable⟩
  | raised due sent hlost => exact ⟨h.ascending, h.drawn, h.sliding, h.reliable⟩
  | returnedReliable due sent hlost => exact ⟨h.ascending, h.drawn, h.sliding, h.reliable⟩
  | raisedReliable due sent hlost => exact ⟨h.ascending, h.drawn, h.sliding, h.reliable⟩

/-- What was issued lies below the number that is next. -/
theorem Ordered.issued_lt {b : Bench C} (h : b.Ordered) (issued : List (Nat × Bytes))
    (hissued : ∀ i ∈ issued, i.2 ∈ b.wires ∧ wireSequence i.2 = i.1) (i : Nat × Bytes)
    (hi : i ∈ issued) : i.1 < b.next := by
  rcases hissued i hi with ⟨hmem, hnumber⟩
  rw [← hnumber]
  exact (h.drawn i.2 hmem).1

/-- A send puts a packet into the outbox under a number and bytes that were
    never used. -/
theorem issued_move (b : Bench C) (h : b.Ordered) (audit : Audit)
    (hissued : ∀ i ∈ audit.issued, i.2 ∈ b.wires ∧ wireSequence i.2 = i.1)
    (box : Dict Nat WindowedPacket) (maxRetries : Nat) (w : WindowedPacket)
    (hnumber : wireSequence w.packetBytes = b.next) (hnew : w.retries = 0) :
    Outbox.Move (retrySchedule maxRetries) (audit.outbox box)
      (Audit.outbox { audit with
        issued := audit.issued ++ [(wireSequence w.packetBytes, w.packetBytes)] }
        (box.set (wireSequence w.packetBytes) w)) := by
  have hlt := h.issued_lt audit.issued hissued
  refine .issued (wireSequence w.packetBytes) w (fun i hi heq => ?_) (fun i hi heq => ?_) hnew
  · have hi := hlt i hi
    omega
  · have hi' := hlt i hi
    rw [← (hissued i hi).2, heq] at hi'
    exact absurd hi' (Nat.not_lt.mpr hnumber.ge)

/-- A poll that raises reports what it found lost. -/
theorem raised_move (audit : Audit) (box : Dict Nat WindowedPacket) {maxRetries : Nat}
    (t : Timer Nat (retrySchedule maxRetries)) (hlost : t.lost box ≠ []) (error : Exn) :
    Outbox.Move (retrySchedule maxRetries) (audit.outbox box)
      (Audit.outbox { audit with reports := audit.reports ++ [⟨t.lost box, error⟩] }
        (t.swept box)) := by
  rw [audit.outbox_report]
  exact .raised t hlost

/-- Of the keys of a dictionary, one is the given one or none is. -/
theorem filter_keys_eq (box : Dict Nat WindowedPacket) (n : Nat) :
    box.keys.filter (fun k => decide (k = n)) = if (box.get? n).isSome then [n] else [] := by
  rw [Dict.keys, List.filter_map]
  have hentries := box.filter_entries n
  simp only [Function.comp_def, hentries]
  cases box.get? n with
  | none => rfl
  | some w => rfl

/-- An acknowledgement of one number removes that number, if it is there. -/
theorem processAck_move (b : Bench C) (n : Nat) :
    Outbox.Move (retrySchedule b.reliable.maxRetries) b.reliableOutbox
      (b.step (.processAck n)).reliableOutbox := by
  have hmove := Outbox.Move.retired (S := retrySchedule b.reliable.maxRetries)
    (l := b.reliableOutbox) (fun k => decide (k = n))
  simp only [← decide_not, reliableOutbox, Audit.outbox, filter_keys_eq] at hmove
  exact hmove

/-- Every act is a move of the outbox of the sliding window. -/
theorem stepped_slidingMove (b b' : Bench C) (a : BenchAct) (h : b.Ordered)
    (hstep : b.Stepped a b') :
    Outbox.Move (retrySchedule b.sliding.maxRetries) b.slidingOutbox b'.slidingOutbox := by
  cases hstep with
  | sent env now plaintext e wire hroom hbuilds hemit =>
      have hnumber := (emission_numbers b e [wire] hemit).2 wire (List.mem_singleton_self _)
      exact issued_move b h b.slidingAudit h.sliding b.sliding.sendWindow _
        { sequence := wireSequence wire, packetBytes := wire, sentAt := now,
          nextTimeoutMs := b.sliding.baseMs } hnumber.2.1 rfl
  | processed sack =>
      have hmove := Outbox.Move.retired (S := retrySchedule b.sliding.maxRetries)
        (l := b.slidingOutbox) (fun n => decide (n ∈ sack.allAcked))
      simp only [← decide_not] at hmove
      exact hmove
  | returned due sent hlost => exact .returned (b.sliding.timer due sent) hlost
  | raised due sent hlost => exact raised_move b.slidingAudit _ _ hlost _
  | _ => exact .stayed

/-- Every act is a move of the outbox of the other channel. -/
theorem stepped_reliableMove (b b' : Bench C) (a : BenchAct) (h : b.Ordered)
    (hstep : b.Stepped a b') :
    Outbox.Move (retrySchedule b.reliable.maxRetries) b.reliableOutbox b'.reliableOutbox := by
  cases hstep with
  | sentReliable env now plaintext e wire hemit =>
      have hnumber := (emission_numbers b e [wire] hemit).2 wire (List.mem_singleton_self _)
      exact issued_move b h b.reliableAudit h.reliable b.reliable.pending _
        { sequence := wireSequence wire, packetBytes := wire, sentAt := now,
          nextTimeoutMs := b.reliable.baseTimeoutMs } hnumber.2.1 rfl
  | acknowledged n => exact processAck_move b n
  | returnedReliable due sent hlost => exact .returned (b.reliable.timer due sent) hlost
  | raisedReliable due sent hlost => exact raised_move b.reliableAudit _ _ hlost _
  | _ => exact .stayed

/-- The number of attempts is fixed when a channel is opened. -/
theorem stepped_limits (b b' : Bench C) (a : BenchAct) (hstep : b.Stepped a b') :
    b'.sliding.maxRetries = b.sliding.maxRetries ∧
      b'.reliable.maxRetries = b.reliable.maxRetries := by
  cases hstep <;> exact ⟨rfl, rfl⟩

/-- Every act keeps a bench sound. -/
theorem step_sound (b : Bench C) (a : BenchAct) (h : b.Sound) : (b.step a).Sound := by
  have hstep := step_stepped b a
  rcases stepped_limits b _ a hstep with ⟨hsliding, hreliable⟩
  refine ⟨stepped_ordered b _ a h.ordered hstep, ?_, ?_⟩
  · rw [hsliding]
    exact Outbox.move_sound h.window (stepped_slidingMove b _ a h.ordered hstep)
  · rw [hreliable]
    exact Outbox.move_sound h.pending (stepped_reliableMove b _ a h.ordered hstep)

/-- Nothing is outstanding on a bench as it is opened. -/
theorem opened_sound (e : Endpoint C) (c : Channel) (r : ReliableChannel) (cover : CoverTraffic)
    (hc : c.sendWindow = .empty) (hr : r.pending = .empty) : (opened e c r cover).Sound := by
  have hempty : ∀ (S : Schedule WindowedPacket Bytes) (box : Dict Nat WindowedPacket),
      box = .empty → (Audit.outbox {} box).Sound S := by
    intro S box hbox
    refine ⟨List.nodup_nil, List.nodup_nil, fun k w hw => ?_, fun sent hsent => ?_⟩
    · simp only [Audit.outbox, hbox, Dict.get?_empty, reduceCtorEq] at hw
    · exact absurd hsent List.not_mem_nil
  exact ⟨⟨List.Pairwise.nil, fun w hw => absurd hw List.not_mem_nil,
    fun i hi => absurd hi List.not_mem_nil, fun i hi => absurd hi List.not_mem_nil⟩,
    hempty _ _ hc, hempty _ _ hr⟩

/-- What holds on every bench that is in use. -/
theorem run_sound (e : Endpoint C) (c : Channel) (r : ReliableChannel) (cover : CoverTraffic)
    (hc : c.sendWindow = .empty) (hr : r.pending = .empty) (acts : List BenchAct) :
    (acts.foldl step (opened e c r cover)).Sound :=
  along_invariant Sound (fun b a h _ => step_sound b a h) _ acts (opened_sound e c r cover hc hr)
    (along_true _ acts)

/-- Once the numbers are used up, nothing is emitted. -/
theorem emission_exhausted (b : Bench C) (e : Endpoint C) (wires : List Bytes)
    (hlimit : 2 ^ 32 ≤ b.next) (h : Emission b.endpoint e wires) : wires = [] := by
  rw [List.eq_nil_iff_forall_not_mem]
  intro w hw
  have hfits := ((emission_numbers b e wires h).2 w hw).2.2.2
  omega

/-- A builder of any kind then raises. -/
theorem draws_exhausted (b : Bench C) (r : EStateM.Result Exn (Endpoint C) Bytes)
    (hlimit : 2 ^ 32 ≤ b.next) (h : ChannelEnd.Draws b.endpoint r) : ∃ x e, r = .error x e := by
  cases r with
  | error x e => exact ⟨x, e, rfl⟩
  | ok wire e =>
      exact absurd (emission_exhausted b e [wire] hlimit h.emission) (List.cons_ne_nil _ _)

/-- Once the numbers are used up, they stay so. -/
theorem exhausted_of_limit (b : Bench C) (hlimit : 2 ^ 32 ≤ b.next) : b.Exhausted := by
  -- All four channel calls draw their number through the one data builder.
  have hdata : ∀ env useMac plaintext, ∃ x e,
      (ChannelEnd.dataPacket env useMac plaintext).run b.endpoint = .error x e :=
    fun env useMac plaintext => draws_exhausted b _ hlimit
      (ChannelEnd.dataPacket_draws env useMac plaintext b.endpoint)
  refine ⟨fun env n => ?_, fun env nowMs urandom hdue => ?_, fun env now plaintext hroom => ?_,
    fun env now plaintext => ?_, fun a => ?_⟩
  · rcases ChannelEnd.numbered_draws (C := C) env n with ⟨x, hx, hdraws⟩
    rcases draws_exhausted b _ hlimit (hdraws b.endpoint) with ⟨y, e, hrun⟩
    rw [hx, ChannelEnd.run_onProtocol, slidingEnd, hrun]
    rfl
  · rcases hdata env b.cover.useMac (urandom b.cover.coverSize) with ⟨x, e, hrun⟩
    rw [ChannelEnd.maybeSend_run, if_neg hdue, slidingEnd, hrun]
    rfl
  · rcases hdata env b.sliding.useMac plaintext with ⟨x, e, hrun⟩
    rw [ChannelEnd.send_run, slidingEnd, if_pos hroom, hrun]
    rfl
  · rcases hdata env b.reliable.useMac plaintext with ⟨x, e, hrun⟩
    rw [ReliableEnd.send_run, reliableEnd, hrun]
    rfl
  · -- Whatever the act emits is empty, as an emission would be a number below the limit.
    have hstep := step_stepped b a
    generalize b.step a = b' at hstep
    cases hstep with
    | built env n e wires hemit =>
        rw [emission_exhausted b e wires hlimit hemit, List.append_nil]
    | covered env nowMs urandom e cover wires hemit =>
        rw [emission_exhausted b e wires hlimit hemit, List.append_nil]
    | sent env now plaintext e wire hroom hbuilds hemit =>
        exact absurd (emission_exhausted b e _ hlimit hemit) (List.cons_ne_nil _ _)
    | sentReliable env now plaintext e wire hemit =>
        exact absurd (emission_exhausted b e _ hlimit hemit) (List.cons_ne_nil _ _)
    | _ => rfl

/-- What a channel holds was issued, so it lies below the number that is next. -/
theorem Ordered.outstanding_lt {b : Bench C} (h : b.Ordered) (audit : Audit)
    (hissued : ∀ i ∈ audit.issued, i.2 ∈ b.wires ∧ wireSequence i.2 = i.1)
    (box : Dict Nat WindowedPacket) {S : Schedule WindowedPacket Bytes}
    (hs : (audit.outbox box).Sound S) (n : Nat) (w : WindowedPacket) (hw : box.get? n = some w) :
    n < b.next :=
  h.issued_lt audit.issued hissued _ (hs.box n w hw).1

/-- The numbers in the send window were handed out. -/
theorem Sound.below_next {b : Bench C} (h : b.Sound) (n : Nat)
    (hn : n ∈ b.sliding.sendWindow.keys) : n < b.next := by
  rcases (Dict.mem_keys _ _).mp hn with ⟨w, hw⟩
  exact h.ordered.outstanding_lt _ h.ordered.sliding _ h.window n w hw

/-- The number of a packet that is built is in neither channel. -/
theorem Sound.unused {b : Bench C} (h : b.Sound) :
    b.sliding.sendWindow.get? b.next = none ∧ b.reliable.pending.get? b.next = none := by
  constructor
  · rw [Option.eq_none_iff_forall_ne_some]
    intro w hw
    exact Nat.lt_irrefl _ (h.ordered.outstanding_lt _ h.ordered.sliding _ h.window _ w hw)
  · rw [Option.eq_none_iff_forall_ne_some]
    intro w hw
    exact Nat.lt_irrefl _ (h.ordered.outstanding_lt _ h.ordered.reliable _ h.pending _ w hw)

/-- A DATA packet that is built carries the number that was next. -/
theorem dataPacket_number (b : Bench C) (env : Env) (useMac : Bool) (plaintext wire : Bytes)
    (e : Endpoint C)
    (h : (ChannelEnd.dataPacket env useMac plaintext).run b.endpoint = .ok wire e) :
    wireSequence wire = b.next := by
  have hemit := (ChannelEnd.dataPacket_draws env useMac plaintext b.endpoint).emission
  rw [h] at hemit
  exact ((emission_numbers b e [wire] hemit).2 wire (List.mem_singleton_self _)).2.1

/-- So does what either channel sends. -/
theorem send_number (b : Bench C) (env : Env) (now : Rat) (plaintext wire : Bytes) (n : Nat)
    (s : ChannelEnd C)
    (h : (ChannelEnd.send env now plaintext).run b.slidingEnd = .ok (some (n, wire)) s) :
    n = b.next := by
  rw [ChannelEnd.send_run, slidingEnd] at h
  by_cases hroom : b.sliding.canSend = true
  · rw [if_pos hroom] at h
    cases hrun : (ChannelEnd.dataPacket env b.sliding.useMac plaintext).run b.endpoint with
    | error x e =>
        simp only [hrun, reduceCtorEq] at h
    | ok wire' e =>
        simp only [hrun, EStateM.Result.ok.injEq, Option.some.injEq, Prod.mk.injEq] at h
        rw [← h.1.1]
        exact dataPacket_number b env _ plaintext wire' e hrun
  · rw [if_neg hroom] at h
    simp only [EStateM.Result.ok.injEq, reduceCtorEq, false_and] at h

theorem sendReliable_number (b : Bench C) (env : Env) (now : Rat) (plaintext wire : Bytes)
    (n : Nat) (s : ReliableEnd C)
    (h : (ReliableEnd.send env now plaintext).run b.reliableEnd = .ok (n, wire) s) :
    n = b.next := by
  rw [ReliableEnd.send_run, reliableEnd] at h
  cases hrun : (ChannelEnd.dataPacket env b.reliable.useMac plaintext).run b.endpoint with
  | error x e => simp only [hrun, reduceCtorEq] at h
  | ok wire' e =>
      simp only [hrun, EStateM.Result.ok.injEq, Prod.mk.injEq] at h
      rw [← h.1.1]
      exact dataPacket_number b env _ plaintext wire' e hrun

end Bench

/-- Whatever is built, sent, acknowledged and polled on one session, in any
    order: the numbers on the wire ascend and fit their field; once they are
    used up every builder raises; and a send of either channel never finds its
    number taken. -/
theorem numbers_unique (e : Endpoint C) (c : Channel) (r : ReliableChannel) (cover : CoverTraffic)
    (hc : c.sendWindow = .empty) (hr : r.pending = .empty) (acts : List BenchAct) :
    let b := acts.foldl Bench.step (Bench.opened e c r cover)
    (b.wires.map wireSequence).Pairwise (· < ·) ∧
      (∀ w ∈ b.wires, wireSequence w < 2 ^ 32) ∧
      (2 ^ 32 ≤ b.next → b.Exhausted) ∧
      (∀ env now plaintext n wire s,
        (ChannelEnd.send env now plaintext).run b.slidingEnd = .ok (some (n, wire)) s →
          b.sliding.sendWindow.get? n = none) ∧
      ∀ env now plaintext n wire s,
        (ReliableEnd.send env now plaintext).run b.reliableEnd = .ok (n, wire) s →
          b.reliable.pending.get? n = none := by
  intro b
  have h : b.Sound := Bench.run_sound e c r cover hc hr acts
  refine ⟨h.ordered.ascending, fun w hw => (h.ordered.drawn w hw).2, b.exhausted_of_limit,
    fun env now plaintext n wire s hsend => ?_, fun env now plaintext n wire s hsend => ?_⟩
  · rw [b.send_number env now plaintext wire n s hsend]
    exact h.unused.1
  · rw [b.sendReliable_number env now plaintext wire n s hsend]
    exact h.unused.2

/-- The first of the toy ends with channels on it. -/
def toyBench (c : Channel) (r : ReliableChannel) : Bench toyPrimitives :=
  Bench.opened (toyEnds {}).1.endpoint c r { coverSize := 1, lastSendMs := 0 }

/-- One packet of every builder. -/
def everyBuilder : List BenchAct :=
  [.build toyEnv (.data [1]), .sendReliable toyEnv 0 [2], .build toyEnv (.ack 0),
    .maybeSend toyEnv 2000 (fun n => List.replicate n 9), .build toyEnv .keyExchange,
    .send toyEnv 0 [3], .build toyEnv (.sackAck ⟨0, []⟩), .build toyEnv (.dataMac [4]),
    .build toyEnv .bye]

/-- They are numbered one after the other. -/
theorem everyBuilder_numbers :
    let b := everyBuilder.foldl Bench.step (toyBench {} {})
    b.wires.length = 9 ∧ (b.wires.map wireSequence).Pairwise (· < ·) :=
  ⟨by decide +kernel, (numbers_unique _ {} {} _ rfl rfl everyBuilder).1⟩

end Ztlnp
