import Ztlnp.Core.Channel
import Ztlnp.Lib.Outbox
import Ztlnp.Theory.Misdelivery

/-!
# What a Channel Can Do

One inventory per method of a channel that reaches the device, as `Handlers`
has them for the protocol.

A send either builds a packet, and then the session has moved on by one and
the packet is in the window; or it raises, and then the session may have moved
on all the same; or the window is full. A receive goes through the two steps
of the device, of which the first records the number of the packet, and only
then touches the channel.

## Main definitions

* `DataSealed`: A DATA packet for a peer, under either authentication.
* `ChannelEnd.sealedBytes`, `ChannelEnd.ackBytes`: What the builders share.
* `ChannelEnd.Builds`: The paths of a builder.
* `retrySchedule`, `Channel.timer`: The send window as an outbox.
* `ChannelEnd.SendOutcome`, `ChannelEnd.ReceiveOutcome`: The inventories.

## Theorems

* `dataPacket_builds`, `ackBytes_builds`: Building a DATA packet and an ACK.
* `send_run`: A send is a build and an entry in the window.
* `send_outcome`, `receive_outcome`: The inventories are complete.
* `receiveAck_final`: The ACK path does not touch the receive side.
* `buildSackAck_final`: Building an ACK draws a number.
* `getRetransmissions_run`: A poll sweeps the window and may raise.
* `getRetransmissions_kept`, `getRetransmissions_returned`: Sending again
  changes timers, drops what is lost, and hands out bytes from the window.
-/

namespace Ztlnp

variable {C : Primitives}

/-- A DATA packet that a device sealed for a peer, under the number its
    session had next. -/
def DataSealed (d : Device C) (env : Env) (useMac : Bool) (peerId plaintext : Bytes)
    (s : Session) (p : Packet) : Prop :=
  (d.advanced peerId s).sealPacket env .data
    (if useMac then flagEncrypted ||| flagMacAuth else flagEncrypted) peerId plaintext s
    s.localSequence (if useMac then Device.tagged else Device.signed) = .ok p

/-- An endpoint once a session of its device has handed out a number. -/
def Endpoint.advanced (e : Endpoint C) (peerId : Bytes) (s : Session) : Endpoint C :=
  { e with device := e.device.advanced peerId s }

/-- How a channel reads the packets in flight. -/
def retrySchedule (maxRetries : Nat) : Schedule WindowedPacket Bytes :=
  ⟨WindowedPacket.packetBytes, WindowedPacket.retries, maxRetries⟩

/-- One poll of a channel. -/
def retryTimer (due sent : Nat → Rat) (maxMs : Rat) (maxRetries : Nat) :
    Timer Nat (retrySchedule maxRetries) where
  due n w := w.isDue (due n)
  again n w := w.recordRetransmit (sent n) maxMs
  again_bytes _ _ := rfl
  again_retries _ _ := rfl

/-- The exception of a poll that finds packets lost. -/
def retransmitError (lost : List Nat) (maxRetries : Nat) : Exn :=
  ⟨.retransmitError, "Packet(s) with sequence number(s) " ++
    String.intercalate ", " (lost.map toString) ++ " exceeded max_retries=" ++
    toString maxRetries ++ " without acknowledgement"⟩

/-- A poll of the sliding window. -/
def Channel.timer (c : Channel) (due sent : Nat → Rat) : Timer Nat (retrySchedule c.maxRetries) :=
  retryTimer due sent c.maxMs c.maxRetries

namespace Channel

/-- A poll sweeps the window, and raises if something was lost. -/
theorem getRetransmissions_run (due sent : Nat → Rat) (c : Channel) :
    (getRetransmissions due sent).run c =
      if (c.timer due sent).lost c.sendWindow = [] then
        .ok (((c.timer due sent).overdue c.sendWindow).entries.map (fun e => e.2.packetBytes))
          { c with sendWindow := (c.timer due sent).swept c.sendWindow }
      else
        .error (retransmitError ((c.timer due sent).lost c.sendWindow) c.maxRetries)
          { c with sendWindow := (c.timer due sent).swept c.sendWindow } := by
  simp only [getRetransmissions, EStateM.run_bind, EStateM.run_get, EStateM.run_set]
  by_cases hlost : (c.sendWindow.filter (c.isLost due)).keys = []
  · rw [if_neg (not_not.mpr hlost)]
    exact (if_pos hlost).symm
  · rw [if_pos hlost]
    exact (if_neg hlost).symm

/-- Whether it raises or not, the rest of the channel is left alone. -/
theorem getRetransmissions_final (due sent : Nat → Rat) (c : Channel) :
    ((getRetransmissions due sent).run c).final
      = { c with sendWindow := (c.timer due sent).swept c.sendWindow } := by
  rw [getRetransmissions_run]
  by_cases hlost : (c.timer due sent).lost c.sendWindow = []
  · rw [if_pos hlost]
    rfl
  · rw [if_neg hlost]
    rfl

/-- What is left in the window after sending again was there before, with the
    same bytes. -/
theorem getRetransmissions_kept (due sent : Nat → Rat) (c : Channel) (n : Nat)
    (w : WindowedPacket)
    (h : ((getRetransmissions due sent).run c).final.sendWindow.get? n = some w) :
    ∃ w', c.sendWindow.get? n = some w' ∧ w.packetBytes = w'.packetBytes := by
  rw [getRetransmissions_final] at h
  rcases (c.timer due sent).swept_entry c.sendWindow n w h with ⟨w', hw', _, hbytes, _⟩
  exact ⟨w', hw', hbytes⟩

/-- What is sent again comes from the window. -/
theorem getRetransmissions_returned (due sent : Nat → Rat) (c : Channel) (again : List Bytes)
    (c' : Channel) (h : (getRetransmissions due sent).run c = .ok again c') (raw : Bytes)
    (hraw : raw ∈ again) : ∃ n w, c.sendWindow.get? n = some w ∧ w.packetBytes = raw := by
  rw [getRetransmissions_run] at h
  by_cases hlost : (c.timer due sent).lost c.sendWindow = []
  · rw [if_pos hlost, EStateM.Result.ok.injEq] at h
    rw [← h.1, List.mem_map] at hraw
    rcases hraw with ⟨⟨n, w⟩, hmem, hbytes⟩
    have hget := (Dict.get?_eq_some _ _ _).mpr hmem
    rw [Timer.overdue, Dict.get?_filter, Option.filter_eq_some_iff] at hget
    exact ⟨n, w, hget.1, hbytes⟩
  · rw [if_neg hlost] at h
    simp only [reduceCtorEq] at h

end Channel

namespace ChannelEnd

@[simp]
theorem run_onProtocol {α : Type} (x : EStateM Exn (Endpoint C) α) (s : ChannelEnd C) :
    (onProtocol x).run s = match x.run s.endpoint with
      | .ok a e => .ok a { s with endpoint := e }
      | .error ex e => .error ex { s with endpoint := e } := by
  rw [onProtocol, run_zoom]
  cases x.run s.endpoint with
  | ok a _ => rfl
  | error ex _ => rfl

@[simp]
theorem run_onDevice {α : Type} (x : EStateM Exn (Device C) α) (s : ChannelEnd C) :
    (onDevice x).run s = match x.run s.endpoint.device with
      | .ok a d => .ok a { s with endpoint := { s.endpoint with device := d } }
      | .error ex d => .error ex { s with endpoint := { s.endpoint with device := d } } := by
  simp only [onDevice, run_onProtocol, Endpoint.run_onDevice]
  cases x.run s.endpoint.device with
  | ok a d => rfl
  | error ex d => rfl

theorem onProtocol_bind {α β : Type} (x : EStateM Exn (Endpoint C) α)
    (f : α → EStateM Exn (Endpoint C) β) :
    onProtocol (x >>= f) = onProtocol x >>= fun a => onProtocol (f a) :=
  zoom_bind endpoint (fun e s => { s with endpoint := e }) (fun _ _ => rfl) (fun _ _ _ => rfl) x f

theorem onProtocol_ofExcept {α : Type} (x : Except Exn α) :
    onProtocol (C := C) (ofExcept x) = ofExcept x :=
  zoom_ofExcept endpoint (fun e s => { s with endpoint := e }) (fun _ => rfl) x

theorem onDevice_bind {α β : Type} (x : EStateM Exn (Device C) α)
    (f : α → EStateM Exn (Device C) β) :
    onDevice (x >>= f) = onDevice x >>= fun a => onDevice (f a) := by
  unfold onDevice
  rw [← onProtocol_bind]
  exact congrArg onProtocol (zoom_bind Endpoint.device (fun d e => { e with device := d })
    (fun _ _ => rfl) (fun _ _ _ => rfl) x f)

theorem onDevice_ofExcept {α : Type} (x : Except Exn α) :
    onDevice (C := C) (ofExcept x) = ofExcept x := by
  unfold onDevice
  rw [← onProtocol_ofExcept]
  exact congrArg onProtocol (zoom_ofExcept Endpoint.device (fun d e => { e with device := d })
    (fun _ => rfl) x)

/-- The two steps every way of building bytes for a peer ends in. -/
def sealedBytes (env : Env) (ptype : PacketType) (flags : Nat) (peerId plaintext : Bytes)
    (auth : Device C → Session → Packet → Except Exn Bytes) : EStateM Exn (Endpoint C) Bytes := do
  let packet ← Endpoint.onDevice (Device.buildSealed env ptype flags peerId plaintext auth)
  ofExcept packet.toBytes

/-- What both kinds of ACK are: the payload is packed after the session is
    looked up and before anything is drawn. -/
def ackBytes (env : Env) (payload : Except Exn Bytes) : EStateM Exn (Endpoint C) Bytes := do
  let peerId ← Endpoint.requirePeer
  let _ ← Endpoint.onDevice (Device.getSession peerId)
  let payload ← ofExcept payload
  sealedBytes env .ack flagEncrypted peerId payload Device.signed

/-- The paths of a method that builds bytes for the peer. -/
inductive Builds (Seals : Bytes → Session → Packet → Prop) (e : Endpoint C) :
    EStateM.Result Exn (Endpoint C) Bytes → Prop
  | refused (x : Exn) : Builds Seals e (.error x e)
  /-- A number was drawn and no packet came of it. -/
  | spoilt (peerId : Bytes) (s : Session) (x : Exn) (hpeer : e.proto.peerId = some peerId)
      (hget : e.device.sessions.get? peerId = some s) :
      Builds Seals e (.error x (e.advanced peerId s))
  | built (peerId : Bytes) (s : Session) (p : Packet) (wire : Bytes)
      (hpeer : e.proto.peerId = some peerId) (hget : e.device.sessions.get? peerId = some s)
      (hseal : Seals peerId s p) (hwire : p.toBytes = .ok wire) :
      Builds Seals e (.ok wire (e.advanced peerId s))

/-- A packet that a device sealed for a peer, under the number its session had
    next. -/
def SealedAs (d : Device C) (env : Env) (ptype : PacketType) (flags : Nat) (plaintext : Bytes)
    (auth : Device C → Session → Packet → Except Exn Bytes) (peerId : Bytes) (s : Session)
    (p : Packet) : Prop :=
  (d.advanced peerId s).sealPacket env ptype flags peerId plaintext s s.localSequence auth = .ok p

/-- The last two steps either do nothing or draw a number. -/
theorem sealedBytes_builds (env : Env) (ptype : PacketType) (flags : Nat)
    (peerId plaintext : Bytes) (auth : Device C → Session → Packet → Except Exn Bytes)
    (e : Endpoint C) (hpeer : e.proto.peerId = some peerId) :
    Builds (SealedAs e.device env ptype flags plaintext auth) e
      ((sealedBytes env ptype flags peerId plaintext auth).run e) := by
  simp only [sealedBytes, EStateM.run_bind, Endpoint.run_onDevice]
  -- The number is drawn before the packet is sealed, so a failure from here on has cost it.
  cases hget : e.device.sessions.get? peerId with
  | none =>
      rw [Device.buildSealed_none _ _ _ _ _ _ _ hget]
      exact .refused _
  | some s =>
      rw [Device.buildSealed_some _ _ _ _ _ _ _ _ hget]
      cases hseal : (e.device.advanced peerId s).sealPacket env ptype flags peerId plaintext s
          s.localSequence auth with
      | error x => exact .spoilt peerId s x hpeer hget
      | ok p =>
          simp only [run_ofExcept_ok]
          cases hbytes : p.toBytes with
          | error x => exact .spoilt peerId s x hpeer hget
          | ok wire => exact .built peerId s p wire hpeer hget hseal hbytes

/-- Building a DATA packet. -/
theorem dataPacket_builds (env : Env) (useMac : Bool) (plaintext : Bytes) (e : Endpoint C) :
    Builds (fun peerId s p => DataSealed e.device env useMac peerId plaintext s p) e
      ((dataPacket env useMac plaintext).run e) := by
  -- Both ways end in the same two steps; they differ in the guards before.
  rcases Endpoint.requirePeer_cases e with ⟨peerId, hpeer, hreq⟩ | ⟨_, x, hreq⟩
  · cases useMac with
    | true =>
        have hend := sealedBytes_builds env .data (flagEncrypted ||| flagMacAuth) peerId plaintext
          Device.tagged e hpeer
        rw [dataPacket, if_pos rfl, EStateM.run_bind, hreq]
        exact hend
    -- Without the MAC the packet goes through `send_data`, which asks for an established
    -- protocol first.
    | false =>
        have hend := sealedBytes_builds env .data flagEncrypted peerId plaintext
          Device.signed e hpeer
        rw [dataPacket, if_neg Bool.false_ne_true, Endpoint.sendData, EStateM.run_bind]
        rcases Endpoint.requireEstablished_cases e with ⟨_, hest⟩ | ⟨_, y, hest⟩
        · rw [hest]
          simp only
          rw [EStateM.run_bind, hreq]
          exact hend
        · rw [hest]
          exact .refused y
  · cases useMac with
    | true =>
        rw [dataPacket, if_pos rfl, EStateM.run_bind, hreq]
        exact .refused x
    | false =>
        rw [dataPacket, if_neg Bool.false_ne_true, Endpoint.sendData, EStateM.run_bind]
        rcases Endpoint.requireEstablished_cases e with ⟨_, hest⟩ | ⟨_, y, hest⟩
        · rw [hest]
          simp only
          rw [EStateM.run_bind, hreq]
          exact .refused x
        · rw [hest]
          exact .refused y

/-- Building an ACK. -/
theorem ackBytes_builds (env : Env) (payload : Except Exn Bytes) (e : Endpoint C) :
    Builds (fun peerId s p => ∃ plaintext,
        SealedAs e.device env .ack flagEncrypted plaintext Device.signed peerId s p) e
      ((ackBytes env payload).run e) := by
  simp only [ackBytes, EStateM.run_bind]
  rcases Endpoint.requirePeer_cases e with ⟨peerId, hpeer, hreq⟩ | ⟨_, x, hreq⟩
  · rw [hreq]
    simp only [Endpoint.run_onDevice]
    cases hsess : (Device.getSession peerId).run e.device with
    | error x d =>
        rw [(Device.getSession_eq_error _ _ _ _ hsess).2]
        exact .refused x
    | ok t d =>
        rcases (Device.getSession_eq_ok _ _ _ _).mp hsess with ⟨_, rfl⟩
        simp only
        -- A payload that cannot be packed raises before a number is drawn.
        cases payload with
        | error x => exact .refused x
        | ok plaintext =>
            simp only [run_ofExcept_ok]
            have hend := sealedBytes_builds env .ack flagEncrypted peerId plaintext
              Device.signed e hpeer
            generalize (sealedBytes env .ack flagEncrypted peerId plaintext
              Device.signed).run e = r at hend
            cases hend with
            | refused x => exact .refused x
            | spoilt id s x hpeer hget => exact .spoilt id s x hpeer hget
            | built id s p wire hpeer hget hseal hwire =>
                exact .built id s p wire hpeer hget ⟨plaintext, hseal⟩ hwire
  · rw [hreq]
    exact .refused x

/-- The paths of a send. -/
inductive SendOutcome (env : Env) (now : Rat) (plaintext : Bytes) (s : ChannelEnd C) :
    EStateM.Result Exn (ChannelEnd C) (Option (Nat × Bytes)) → Prop
  | full (hfull : s.channel.canSend = false) : SendOutcome env now plaintext s (.ok none s)
  | refused (x : Exn) : SendOutcome env now plaintext s (.error x s)
  /-- A number was drawn and no packet came of it. -/
  | spoilt (peerId : Bytes) (t : Session) (x : Exn)
      (hpeer : s.endpoint.proto.peerId = some peerId)
      (hget : s.endpoint.device.sessions.get? peerId = some t) :
      SendOutcome env now plaintext s
        (.error x { s with endpoint := s.endpoint.advanced peerId t })
  | sent (peerId : Bytes) (t : Session) (p : Packet) (wire : Bytes)
      (hroom : s.channel.canSend = true)
      (hpeer : s.endpoint.proto.peerId = some peerId)
      (hget : s.endpoint.device.sessions.get? peerId = some t)
      (hseal : DataSealed s.endpoint.device env s.channel.useMac peerId plaintext t p)
      (hwire : p.toBytes = .ok wire) :
      SendOutcome env now plaintext s (.ok (some (p.sequence, wire))
        ⟨s.channel.enqueued p.sequence wire now, s.endpoint.advanced peerId t⟩)

theorem send_run (env : Env) (now : Rat) (plaintext : Bytes) (s : ChannelEnd C) :
    (send env now plaintext).run s =
      if s.channel.canSend then
        match (dataPacket env s.channel.useMac plaintext).run s.endpoint with
        | .ok wire e =>
          .ok (some (beDecode (field wire sequenceOffset 4), wire))
            ⟨s.channel.enqueued (beDecode (field wire sequenceOffset 4)) wire now, e⟩
        | .error x e => .error x { s with endpoint := e }
      else .ok none s := by
  rw [send, EStateM.run_bind, EStateM.run_get]
  by_cases hroom : s.channel.canSend = true
  · simp only [hroom, if_true, EStateM.run_bind, run_onProtocol]
    cases (dataPacket env s.channel.useMac plaintext).run s.endpoint with
    | ok wire e => rfl
    | error x e => rfl
  · simp only [hroom, Bool.false_eq_true, if_false]
    rfl

theorem send_outcome (env : Env) (now : Rat) (plaintext : Bytes) (s : ChannelEnd C) :
    SendOutcome env now plaintext s ((send env now plaintext).run s) := by
  rw [send_run]
  by_cases hroom : s.channel.canSend = true
  · rw [if_pos hroom]
    have hbuild := dataPacket_builds env s.channel.useMac plaintext s.endpoint
    generalize (dataPacket env s.channel.useMac plaintext).run s.endpoint = r at hbuild
    cases hbuild with
    | refused x => exact .refused x
    | spoilt peerId t x hpeer hget => exact .spoilt peerId t x hpeer hget
    | built peerId t p wire hpeer hget hseal hwire =>
        simp only
        -- The channel reads the number back from the bytes.
        rw [p.sequence_at_offset wire hwire]
        exact .sent peerId t p wire hroom hpeer hget hseal hwire
  · have hfull : s.channel.canSend = false := by simpa only [Bool.not_eq_true] using hroom
    rw [if_neg hroom]
    exact .full hfull

/-- The paths of a receive. -/
inductive ReceiveOutcome (env : Env) (raw : Bytes) (s : ChannelEnd C) :
    EStateM.Result Exn (ChannelEnd C) (Option Bytes × SackFrame) → Prop
  | refused (x : Exn) : ReceiveOutcome env raw s (.error x s)
  /-- The packet was received and did not decrypt. -/
  | garbled (x : Exn) (p : Packet) (d : Device C)
      (hrec : Device.Received s.endpoint.device env raw p d) :
      ReceiveOutcome env raw s
        (.error x { s with endpoint := { s.endpoint with device := d } })
  | accepted (p : Packet) (d : Device C) (plaintext : Bytes)
      (hrec : Device.Received s.endpoint.device env raw p d)
      (hplain : d.Decrypts p plaintext) :
      ReceiveOutcome env raw s (.ok
        ((s.channel.accept p.sequence plaintext).1,
          (s.channel.accept p.sequence plaintext).2.buildSack)
        ⟨(s.channel.accept p.sequence plaintext).2, { s.endpoint with device := d }⟩)

theorem receive_outcome (env : Env) (raw : Bytes) (s : ChannelEnd C) :
    ReceiveOutcome env raw s ((receive env raw).run s) := by
  simp only [receive, EStateM.run_bind, run_onDevice]
  rcases Device.receivePacket_cases env raw s.endpoint.device with ⟨p, d, hrec⟩ | ⟨x, hx⟩
  · rw [Device.receivePacket_of_received env raw _ d p hrec]
    simp only
    -- The number is recorded by now, and stays so if the packet does not decrypt.
    rcases Device.decryptPacket_cases p d with ⟨plaintext, hplain, hdec⟩ | ⟨_, x, hdec⟩
    · rw [hdec]
      exact .accepted p d plaintext hrec hplain
    · rw [hdec]
      exact .garbled x p d hrec
  · rw [hx]
    exact .refused x

/-- The ACK path touches the device as a reception does, and of the channel
    only the send side. -/
theorem receiveAck_final (env : Env) (raw : Bytes) (s : ChannelEnd C) :
    ((receiveAck env raw).run s).final = s ∨
    ∃ p d, Device.Received s.endpoint.device env raw p d ∧
      (((receiveAck env raw).run s).final
          = { s with endpoint := { s.endpoint with device := d } } ∨
        ∃ sack, ((receiveAck env raw).run s).final
          = ⟨(s.channel.processSack sack).1, { s.endpoint with device := d }⟩) := by
  simp only [receiveAck, EStateM.run_bind, run_onDevice]
  rcases Device.receivePacket_cases env raw s.endpoint.device with ⟨p, d, hrec⟩ | ⟨x, hx⟩
  · right
    refine ⟨p, d, hrec, ?_⟩
    rw [Device.receivePacket_of_received env raw _ d p hrec]
    simp only
    rcases Device.decryptPacket_cases p d with ⟨payload, _, hdec⟩ | ⟨_, x, hdec⟩
    · rw [hdec]
      simp only
      -- A payload that is no frame raises after the packet was received.
      cases SackFrame.decode payload with
      | error x =>
          left
          rfl
      | ok sack =>
          right
          exact ⟨sack, rfl⟩
    · left
      rw [hdec]
      rfl
  · left
    rw [hx]
    rfl

/-- An ACK around a frame is built like any other. -/
theorem buildSackAck_eq (env : Env) (sack : SackFrame) :
    buildSackAck (C := C) env sack = onProtocol (ackBytes env sack.encode) := by
  simp only [buildSackAck, ackBytes, sealedBytes, onDevice, onProtocol_bind, onProtocol_ofExcept]

/-- Building an ACK around a frame draws a number, or does nothing. -/
theorem buildSackAck_final (env : Env) (sack : SackFrame) (s : ChannelEnd C) :
    ((buildSackAck env sack).run s).final = s ∨
    ∃ peerId t, s.endpoint.proto.peerId = some peerId ∧
      s.endpoint.device.sessions.get? peerId = some t ∧
      ((buildSackAck env sack).run s).final
        = { s with endpoint := s.endpoint.advanced peerId t } := by
  rw [buildSackAck_eq, run_onProtocol]
  have hbuild := ackBytes_builds env sack.encode s.endpoint
  generalize (ackBytes env sack.encode).run s.endpoint = r at hbuild
  cases hbuild with
  | refused x => exact Or.inl rfl
  | spoilt peerId t x hpeer hget => exact Or.inr ⟨peerId, t, hpeer, hget, rfl⟩
  | built peerId t p wire hpeer hget => exact Or.inr ⟨peerId, t, hpeer, hget, rfl⟩

end ChannelEnd

end Ztlnp
