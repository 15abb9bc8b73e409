import Ztlnp.Core.Protocol

/-!
# What the Handlers Can Do

One inventory per handler of the protocol machine: every path through it,
with the endpoint it leaves behind and whether it returned or raised.

The inventories are inductive relations, one constructor per path, so that a
proof about the machine is a case analysis over named paths and never an
unfolding of the handlers. A path that raises after writing is a path like
any other; its constructor says what was written.

`processIncoming_cases` splits an incoming packet into its reception, which
`Device.Received` describes, and one handler on the device that reception
left.

## Main definitions

* `HelloOutcome`: The paths of a HELLO.
* `Completes`: The exchange the protocol remembers yields a session.
* `Confirmed`: A KEY_EXCHANGE payload decrypts to the confirmation.
* `KeyExchangeOutcome`: The paths of a KEY_EXCHANGE.
* `afterBye`: What a BYE does.
* `Outcome`: The paths of any packet.

## Theorems

* `processIncoming_cases`: Reception, then one handler.
* `confirmKeys_cases`: Building a confirmation draws one sequence number.
* `handleHello_outcome`, `handleKeyExchange_outcome`, `handleBye_run`,
  `dispatch_outcome`: The inventories are complete.
* `requireEstablished_cases`, `requirePeer_cases`: The guards of the entry
  points.
-/

namespace Ztlnp

namespace Endpoint

variable {C : Primitives}

@[simp]
theorem run_modifyProto (f : Protocol → Protocol) (e : Endpoint C) :
    (modifyProto f).run e = .ok () { e with proto := f e.proto } := rfl

@[simp]
theorem run_onDevice {α : Type} (x : EStateM Exn (Device C) α) (e : Endpoint C) :
    (onDevice x).run e = match x.run e.device with
      | .ok a d => .ok a { e with device := d }
      | .error ex d => .error ex { e with device := d } := by
  rw [onDevice, run_zoom]
  cases x.run e.device with
  | ok a _ => rfl
  | error ex _ => rfl

/-- A machine in a terminal state refuses everything. -/
theorem processIncoming_terminal (env : Env) (raw : Bytes) (e : Endpoint C)
    (hterm : e.proto.state = .closed ∨ e.proto.state = .error) :
    ∃ x, (processIncoming env raw).run e = .error x e := by
  simp only [processIncoming, EStateM.run_bind, EStateM.run_get, if_pos hterm]
  exact ⟨_, rfl⟩

/-- Any other machine receives the packet and hands it to its handler. -/
theorem processIncoming_of_received (env : Env) (raw : Bytes) (e : Endpoint C) (p : Packet)
    (d : Device C) (hopen : e.proto.state ≠ .closed ∧ e.proto.state ≠ .error)
    (hrec : Device.Received e.device env raw p d) :
    (processIncoming env raw).run e = (dispatch env p).run { e with device := d } := by
  simp only [processIncoming, EStateM.run_bind, EStateM.run_get, if_neg (not_or.mpr hopen),
    run_onDevice, Device.receivePacket_of_received env raw e.device d p hrec]

/-- A packet that is refused changes nothing. -/
theorem processIncoming_of_refused (env : Env) (raw : Bytes) (e : Endpoint C) (x : Exn)
    (hopen : e.proto.state ≠ .closed ∧ e.proto.state ≠ .error)
    (hx : (Device.receivePacket env raw).run e.device = .error x e.device) :
    (processIncoming env raw).run e = .error x e := by
  simp only [processIncoming, EStateM.run_bind, EStateM.run_get, if_neg (not_or.mpr hopen),
    run_onDevice, hx]

/-- A packet that is refused, or that meets a machine in a terminal state,
    changes nothing; any other is handed to its handler. -/
theorem processIncoming_cases (env : Env) (raw : Bytes) (e : Endpoint C) :
    (∃ x, (processIncoming env raw).run e = .error x e) ∨
    ((e.proto.state ≠ .closed ∧ e.proto.state ≠ .error) ∧
      ∃ p d, Device.Received e.device env raw p d ∧
        (processIncoming env raw).run e = (dispatch env p).run { e with device := d }) := by
  by_cases hterm : e.proto.state = .closed ∨ e.proto.state = .error
  · exact Or.inl (processIncoming_terminal env raw e hterm)
  · have hopen := not_or.mp hterm
    rcases Device.receivePacket_cases env raw e.device with ⟨p, d, hp⟩ | ⟨x, hx⟩
    · -- Received: the handler runs on the device reception left behind.
      exact Or.inr ⟨hopen, p, d, hp, processIncoming_of_received env raw e p d hopen hp⟩
    · exact Or.inl ⟨x, processIncoming_of_refused env raw e x hopen hx⟩

/-- Building a confirmation from an existing session draws one number,
    whether or not the packet is then built. -/
theorem confirmKeys_cases (env : Env) (peerId : Bytes) (d : Device C) (s : Session)
    (h : d.sessions.get? peerId = some s) :
    (∃ b, (confirmKeys env peerId).run d = .ok b (d.advanced peerId s)) ∨
      (∃ x, (confirmKeys env peerId).run d = .error x (d.advanced peerId s)) := by
  -- The packet is built under the session as it is after the draw.
  have hget : (Device.getSession peerId).run (d.advanced peerId s)
      = .ok { s with localSequence := s.localSequence + 1 } (d.advanced peerId s) := by
    rw [Device.getSession_eq_ok]
    exact ⟨Dict.get?_set_self _ _ _, rfl⟩
  simp only [confirmKeys, buildKeyExchangePacket, EStateM.run_bind,
    Device.onSession_nextSequence peerId d s h, hget, EStateM.run_get]
  -- From here on only the result can differ, not the device.
  cases (d.advanced peerId s).sealPacket env .keyExchange flagEncrypted peerId keyExchangeOk
      { s with localSequence := s.localSequence + 1 } s.localSequence Device.signed with
  | error x => exact Or.inr ⟨x, rfl⟩
  | ok q =>
      simp only [run_ofExcept_ok]
      cases q.toBytes with
      | ok b => exact Or.inl ⟨b, rfl⟩
      | error x => exact Or.inr ⟨x, rfl⟩

/-- The paths of a HELLO. -/
inductive HelloOutcome (env : Env) (p : Packet) (e : Endpoint C) :
    EStateM.Result Exn (Endpoint C) (Option Bytes) → Prop
  /-- The payload is too short; nothing is written. -/
  | short (x : Exn) (hlen : p.payload.length < 64) : HelloOutcome env p e (.error x e)
  /-- An idle machine becomes the responder. -/
  | answered (b : Bytes) (hlen : 64 ≤ p.payload.length) (hstate : e.proto.state = .idle) :
      HelloOutcome env p e (.ok (some b)
        ⟨{ e.proto.metHello p with iAmInitiator := false, state := .helloReceived },
          (e.device.withEphemeral env p.senderId).withPending p.senderId (p.payload.take 32)⟩)
  /-- An idle machine fails while it builds its answer. -/
  | unanswered (x : Exn) (d : Device C) (hlen : 64 ≤ p.payload.length)
      (hstate : e.proto.state = .idle)
      (hdev : d = e.device.withEphemeral env p.senderId ∨
        d = (e.device.withEphemeral env p.senderId).withPending p.senderId
          (p.payload.take 32)) :
      HelloOutcome env p e (.error x ⟨{ e.proto.metHello p with iAmInitiator := false }, d⟩)
  /-- The initiator's exchange is refused. -/
  | refused (x : Exn) (hlen : 64 ≤ p.payload.length) (hstate : e.proto.state = .helloSent)
      (hex : e.device.exchangedSession p.senderId (p.payload.take 32) (field p.payload 32 32)
        true = .error x) :
      HelloOutcome env p e (.error x { e with proto := e.proto.metHello p })
  /-- The initiator's exchange raises after the session is stored. -/
  | halfway (s : Session) (x : Exn) (hlen : 64 ≤ p.payload.length)
      (hstate : e.proto.state = .helloSent)
      (hex : e.device.exchangedSession p.senderId (p.payload.take 32) (field p.payload 32 32)
        true = .ok s) (hpub : e.device.ephemeralPublic.get? p.senderId = none) :
      HelloOutcome env p e (.error x ⟨e.proto.metHello p,
        { e.device with
          sessions := e.device.sessions.set p.senderId s
          ephemeralPrivate := e.device.ephemeralPrivate.pop p.senderId }⟩)
  /-- The initiator has a session and sends its confirmation. -/
  | exchanged (s : Session) (b : Bytes) (hlen : 64 ≤ p.payload.length)
      (hstate : e.proto.state = .helloSent)
      (hex : e.device.exchangedSession p.senderId (p.payload.take 32) (field p.payload 32 32)
        true = .ok s) :
      HelloOutcome env p e (.ok (some b)
        ⟨{ e.proto.metHello p with state := .keyExchangeSent },
          (e.device.installed p.senderId s).advanced p.senderId s⟩)
  /-- The initiator has a session and fails to build its confirmation. -/
  | unconfirmed (s : Session) (x : Exn) (hlen : 64 ≤ p.payload.length)
      (hstate : e.proto.state = .helloSent)
      (hex : e.device.exchangedSession p.senderId (p.payload.take 32) (field p.payload 32 32)
        true = .ok s) :
      HelloOutcome env p e (.error x
        ⟨e.proto.metHello p, (e.device.installed p.senderId s).advanced p.senderId s⟩)
  /-- A HELLO in any other state is rejected after the fields are written. -/
  | unexpected (x : Exn) (hlen : 64 ≤ p.payload.length) (hidle : e.proto.state ≠ .idle)
      (hsent : e.proto.state ≠ .helloSent) :
      HelloOutcome env p e (.error x { e with proto := e.proto.metHello p })

theorem installed_get?_self (d : Device C) (peerId : Bytes) (s : Session) :
    (d.installed peerId s).sessions.get? peerId = some s :=
  Dict.get?_set_self _ _ _

/-- The responder's path of a HELLO. -/
theorem handleHello_idle (env : Env) (p : Packet) (e : Endpoint C)
    (hlen : 64 ≤ p.payload.length) (hstate : e.proto.state = .idle) :
    HelloOutcome env p e ((handleHello env p).run e) := by
  have hgen := Device.generateEphemeralKeypair_final env p.senderId e.device
  have hbuild := Device.buildHelloPacket_final env (some p.senderId)
    ((e.device.withEphemeral env p.senderId).withPending p.senderId (p.payload.take 32))
  have hbytes := Device.buildHelloPacket_toBytes env (some p.senderId)
    ((e.device.withEphemeral env p.senderId).withPending p.senderId (p.payload.take 32))
  -- The second request for a pair finds the first one, so one pair is stored.
  rw [Option.getD_some, Device.withEphemeral_again] at hbuild
  rcases e with ⟨⟨st, peerId, ed, x, ini⟩, d⟩
  subst hstate
  simp only [handleHello, if_neg (not_lt.mpr hlen), EStateM.run_bind, run_modifyProto,
    EStateM.run_get, Protocol.metHello, run_onDevice]
  cases hg : (Device.generateEphemeralKeypair env p.senderId).run d with
  | error x d' =>
      rw [hg] at hgen
      exact .unanswered x d' hlen rfl (Or.inl hgen)
  | ok pub d' =>
      rw [hg] at hgen
      have hd : d' = d.withEphemeral env p.senderId := hgen
      subst hd
      simp only [Device.registerPendingPeer, EStateM.run_modify]
      cases hb : (Device.buildHelloPacket env (some p.senderId)).run
          ((d.withEphemeral env p.senderId).withPending p.senderId (p.payload.take 32)) with
      | error x d' =>
          rw [hb] at hbuild
          exact .unanswered x d' hlen rfl (Or.inr hbuild)
      | ok q d' =>
          rw [hb] at hbuild
          have hd : d' = (d.withEphemeral env p.senderId).withPending p.senderId
            (p.payload.take 32) := hbuild
          -- A HELLO that was built always serialises.
          rcases hbytes q d' hb with ⟨b, hq⟩
          subst hd
          simp only [hq]
          exact .answered b hlen rfl

/-- The initiator's path of a HELLO. -/
theorem handleHello_helloSent (env : Env) (p : Packet) (e : Endpoint C)
    (hlen : 64 ≤ p.payload.length) (hstate : e.proto.state = .helloSent) :
    HelloOutcome env p e ((handleHello env p).run e) := by
  rcases e with ⟨⟨st, peerId, ed, x, ini⟩, d⟩
  subst hstate
  simp only [handleHello, if_neg (not_lt.mpr hlen), EStateM.run_bind, run_modifyProto,
    EStateM.run_get, Protocol.metHello, run_onDevice]
  -- The exchange is refused, raises halfway, or installs a session.
  rcases Device.completeKeyExchange_cases p.senderId (p.payload.take 32)
    (field p.payload 32 32) true d with ⟨x, hex, hrun⟩ | ⟨s, x, hex, hpub, hrun⟩ |
    ⟨s, hex, _, hrun⟩
  · rw [hrun]
    exact .refused x hlen rfl hex
  · rw [hrun]
    exact .halfway s x hlen rfl hex hpub
  · rw [hrun]
    -- With the session in place the confirmation draws its first number.
    rcases confirmKeys_cases env p.senderId (d.installed p.senderId s) s
      (installed_get?_self d p.senderId s) with ⟨b, hconf⟩ | ⟨x, hconf⟩
    · simp only [hconf]
      exact .exchanged s b hlen rfl hex
    · simp only [hconf]
      exact .unconfirmed s x hlen rfl hex

/-- In every other state a HELLO is rejected, after the fields were written. -/
theorem handleHello_unexpected (env : Env) (p : Packet) (e : Endpoint C)
    (hlen : 64 ≤ p.payload.length) (hidle : e.proto.state ≠ .idle)
    (hsent : e.proto.state ≠ .helloSent) :
    ∃ x, (handleHello env p).run e = .error x { e with proto := e.proto.metHello p } := by
  rcases e with ⟨⟨st, peerId, ed, x, ini⟩, d⟩
  simp only [handleHello, if_neg (not_lt.mpr hlen), EStateM.run_bind, run_modifyProto,
    EStateM.run_get, Protocol.metHello]
  cases st with
  | idle => exact absurd rfl hidle
  | helloSent => exact absurd rfl hsent
  | helloReceived => exact ⟨_, rfl⟩
  | keyExchangeSent => exact ⟨_, rfl⟩
  | established => exact ⟨_, rfl⟩
  | closed => exact ⟨_, rfl⟩
  | error => exact ⟨_, rfl⟩

/-- The paths of a HELLO are complete. -/
theorem handleHello_outcome (env : Env) (p : Packet) (e : Endpoint C) :
    HelloOutcome env p e ((handleHello env p).run e) := by
  by_cases hlen : p.payload.length < 64
  · simp only [handleHello, if_pos hlen]
    exact .short _ hlen
  · by_cases hidle : e.proto.state = .idle
    · exact handleHello_idle env p e (not_lt.mp hlen) hidle
    · by_cases hsent : e.proto.state = .helloSent
      · exact handleHello_helloSent env p e (not_lt.mp hlen) hsent
      · rcases handleHello_unexpected env p e (not_lt.mp hlen) hidle hsent with ⟨x, hx⟩
        rw [hx]
        exact .unexpected x (not_lt.mp hlen) hidle hsent

/-- The exchange the protocol remembers would yield this session. -/
def Completes (e : Endpoint C) (peerId : Bytes) (s : Session) : Prop :=
  ∃ ed x, e.proto.peerId = some peerId ∧ e.proto.peerEd25519Pub = some ed ∧
    e.proto.peerX25519Pub = some x ∧ e.device.exchangedSession peerId ed x false = .ok s

/-- There is one exchange to complete at most. -/
theorem completes_eq (e : Endpoint C) (id id' : Bytes) (s s' : Session)
    (h : e.Completes id s) (h' : e.Completes id' s') : id' = id ∧ s' = s := by
  rcases h with ⟨ed, x, hid, hed, hx, hs⟩
  rcases h' with ⟨ed', x', hid', hed', hx', hs'⟩
  rw [hid, Option.some.injEq] at hid'
  rw [hed, Option.some.injEq] at hed'
  rw [hx, Option.some.injEq] at hx'
  rw [← hid', ← hed', ← hx', hs, Except.ok.injEq] at hs'
  exact ⟨hid'.symm, hs'.symm⟩

/-- What completing the remembered exchange does. -/
theorem completeRemembered_cases (e : Endpoint C) :
    ((¬ ∃ peerId s, e.Completes peerId s) ∧ ∃ x, completeRemembered.run e = .error x e) ∨
    (∃ peerId s x, e.Completes peerId s ∧ e.device.ephemeralPublic.get? peerId = none ∧
      completeRemembered.run e = .error x
        { e with device := { e.device with
            sessions := e.device.sessions.set peerId s
            ephemeralPrivate := e.device.ephemeralPrivate.pop peerId } }) ∨
    (∃ peerId s, e.Completes peerId s ∧ e.device.ephemeralPublic.get? peerId ≠ none ∧
      completeRemembered.run e = .ok peerId { e with device := e.device.installed peerId s }) := by
  rcases e with ⟨⟨st, peerId?, ed?, x?, ini⟩, d⟩
  simp only [completeRemembered, Completes, EStateM.run_bind, EStateM.run_get]
  -- Three fields may be missing, each with an error of its own.
  cases peerId? with
  | none =>
      left
      refine ⟨?_, _, rfl⟩
      rintro ⟨_, _, _, _, hnone, _⟩
      simp only [reduceCtorEq] at hnone
  | some peerId =>
      cases ed? with
      | none =>
          left
          refine ⟨?_, _, rfl⟩
          rintro ⟨_, _, _, _, _, hnone, _⟩
          simp only [reduceCtorEq] at hnone
      | some ed =>
          cases x? with
          | none =>
              left
              refine ⟨?_, _, rfl⟩
              rintro ⟨_, _, _, _, _, _, hnone, _⟩
              simp only [reduceCtorEq] at hnone
          | some x =>
              simp only [EStateM.run_bind, run_onDevice]
              -- All there: the device decides.
              rcases Device.completeKeyExchange_cases peerId ed x false d with
                ⟨y, hex, hrun⟩ | ⟨s, y, hex, hpub, hrun⟩ | ⟨s, hex, hpub, hrun⟩
              · left
                rw [hrun]
                refine ⟨?_, y, rfl⟩
                rintro ⟨_, s, _, _, ⟨rfl⟩, ⟨rfl⟩, ⟨rfl⟩, hs⟩
                rw [hex] at hs
                simp only [reduceCtorEq] at hs
              · right
                left
                rw [hrun]
                exact ⟨peerId, s, y, ⟨ed, x, rfl, rfl, rfl, hex⟩, hpub, rfl⟩
              · right
                right
                rw [hrun]
                exact ⟨peerId, s, ⟨ed, x, rfl, rfl, rfl, hex⟩, hpub, rfl⟩

/-- The peer's session is there and the payload decrypts to the confirmation,
    under the session of whoever sent it. -/
def Confirmed (e : Endpoint C) (p : Packet) : Prop :=
  (∃ peerId s, e.proto.peerId = some peerId ∧ e.device.sessions.get? peerId = some s) ∧
    e.device.Decrypts p keyExchangeOk

/-- The paths of a KEY_EXCHANGE. -/
inductive KeyExchangeOutcome (env : Env) (p : Packet) (e : Endpoint C) :
    EStateM.Result Exn (Endpoint C) (Option Bytes) → Prop
  /-- The responder has nothing to complete. -/
  | refused (x : Exn) (hstate : e.proto.state = .helloReceived)
      (hno : ¬ ∃ peerId s, e.Completes peerId s) : KeyExchangeOutcome env p e (.error x e)
  /-- The responder's exchange raises after the session is stored. -/
  | halfway (peerId : Bytes) (s : Session) (x : Exn) (hstate : e.proto.state = .helloReceived)
      (hcomp : e.Completes peerId s) (hpub : e.device.ephemeralPublic.get? peerId = none) :
      KeyExchangeOutcome env p e (.error x
        { e with device := { e.device with
            sessions := e.device.sessions.set peerId s
            ephemeralPrivate := e.device.ephemeralPrivate.pop peerId } })
  /-- The new session refuses the packet. -/
  | stale (peerId : Bytes) (s : Session) (x : Exn) (hstate : e.proto.state = .helloReceived)
      (hcomp : e.Completes peerId s) (hpub : e.device.ephemeralPublic.get? peerId ≠ none)
      (hadmits : ¬ s.Admits env.confirmMs p.sequence p.timestampMs) :
      KeyExchangeOutcome env p e (.error x { e with device := e.device.installed peerId s })
  /-- The payload is not the confirmation. -/
  | unconfirmed (peerId : Bytes) (s : Session) (x : Exn)
      (hstate : e.proto.state = .helloReceived) (hcomp : e.Completes peerId s)
      (hpub : e.device.ephemeralPublic.get? peerId ≠ none)
      (hadmits : s.Admits env.confirmMs p.sequence p.timestampMs)
      (hplain : ¬ (e.device.installed peerId (s.recorded p.sequence)).Decrypts p
        keyExchangeOk) :
      KeyExchangeOutcome env p e (.error x
        { e with device := e.device.installed peerId (s.recorded p.sequence) })
  /-- The responder is established, whether or not its answer is then built. -/
  | established (peerId : Bytes) (s : Session)
      (r : EStateM.Result Exn (Endpoint C) (Option Bytes))
      (hstate : e.proto.state = .helloReceived) (hcomp : e.Completes peerId s)
      (hpub : e.device.ephemeralPublic.get? peerId ≠ none)
      (hadmits : s.Admits env.confirmMs p.sequence p.timestampMs)
      (hplain : (e.device.installed peerId (s.recorded p.sequence)).Decrypts p keyExchangeOk)
      (hfinal : r.final = ⟨{ e.proto with state := .established },
        (e.device.installed peerId (s.recorded p.sequence)).advanced peerId
          (s.recorded p.sequence)⟩) :
      KeyExchangeOutcome env p e r
  /-- The initiator does not see the confirmation. -/
  | unanswered (x : Exn) (hstate : e.proto.state = .keyExchangeSent)
      (hplain : ¬ e.Confirmed p) : KeyExchangeOutcome env p e (.error x e)
  /-- The initiator is established. -/
  | answered (hstate : e.proto.state = .keyExchangeSent) (hplain : e.Confirmed p) :
      KeyExchangeOutcome env p e
        (.ok none { e with proto := { e.proto with state := .established } })
  /-- A KEY_EXCHANGE in any other state is rejected. -/
  | unexpected (x : Exn) (hreceived : e.proto.state ≠ .helloReceived)
      (hsent : e.proto.state ≠ .keyExchangeSent) : KeyExchangeOutcome env p e (.error x e)

/-- Decrypting and comparing: the handler goes on exactly when the payload is
    the confirmation, and nothing has been written. -/
theorem confirmation_cases {α : Type} (p : Packet) (k : Unit → EStateM Exn (Endpoint C) α)
    (e : Endpoint C) :
    (e.device.Decrypts p keyExchangeOk ∧
      (onDevice (Device.decryptPacket p) >>= fun plain => requireConfirmation plain >>= k).run e
        = (k ()).run e) ∨
    (¬ e.device.Decrypts p keyExchangeOk ∧
      ∃ x, (onDevice (Device.decryptPacket p) >>= fun plain =>
        requireConfirmation plain >>= k).run e = .error x e) := by
  simp only [EStateM.run_bind, run_onDevice]
  rcases Device.decryptPacket_cases p e.device with ⟨plain, hplain, hrun⟩ | ⟨hnone, x, hrun⟩
  · rw [hrun]
    simp only [requireConfirmation]
    -- It decrypted to something; is it the confirmation?
    by_cases hok : plain = keyExchangeOk
    · left
      subst hok
      exact ⟨hplain, by rw [if_neg (not_not.mpr rfl), EStateM.run_pure]⟩
    · right
      rw [if_pos hok]
      refine ⟨fun hdec => hok ?_, _, rfl⟩
      rw [(Device.decryptPacket_eq_ok p e.device e.device _).mpr ⟨hdec, rfl⟩] at hrun
      exact (EStateM.Result.ok.inj hrun).1.symm
  · right
    rw [hrun]
    exact ⟨hnone _, x, rfl⟩

/-- The first use of a session that was just installed: it is recorded in
    place, or the packet is refused. -/
theorem checkReplay_installed (env : Env) (p : Packet) (d : Device C) (peerId : Bytes)
    (s : Session) :
    (s.Admits env.confirmMs p.sequence p.timestampMs ∧
      (Device.onSession peerId (Session.checkReplay env.confirmMs p.sequence p.timestampMs)).run
        (d.installed peerId s) = .ok () (d.installed peerId (s.recorded p.sequence))) ∨
    (¬ s.Admits env.confirmMs p.sequence p.timestampMs ∧
      ∃ x, (Device.onSession peerId (Session.checkReplay env.confirmMs p.sequence
        p.timestampMs)).run (d.installed peerId s) = .error x (d.installed peerId s)) := by
  have hget := installed_get?_self d peerId s
  by_cases hadmits : s.Admits env.confirmMs p.sequence p.timestampMs
  · left
    refine ⟨hadmits, ?_⟩
    rw [Device.onSession_eq_ok]
    refine ⟨s, _, hget, Session.checkReplay_admits s _ _ _ hadmits, ?_⟩
    -- Recording writes over the entry that installing wrote.
    simp only [Device.installed, Dict.set_set]
  · right
    rcases Session.checkReplay_refuses s _ _ _ hadmits with ⟨x, _, hx⟩
    have hx' : Session.checkReplay env.confirmMs p.sequence p.timestampMs s = .error x s := hx
    refine ⟨hadmits, x, ?_⟩
    simp only [EStateM.run, Device.onSession, hget, hx', Dict.set_get?_self _ _ _ hget]

/-- The responder's path of a KEY_EXCHANGE. -/
theorem handleKeyExchange_helloReceived (env : Env) (p : Packet) (e : Endpoint C)
    (hstate : e.proto.state = .helloReceived) :
    KeyExchangeOutcome env p e ((handleKeyExchange env p).run e) := by
  rw [handleKeyExchange, EStateM.run_bind, EStateM.run_get]
  simp only [hstate]
  rw [EStateM.run_bind]
  rcases completeRemembered_cases e with ⟨hno, x, hrun⟩ | ⟨peerId, s, x, hcomp, hpub, hrun⟩ |
    ⟨peerId, s, hcomp, hpub, hrun⟩
  · rw [hrun]
    exact .refused x hstate hno
  · rw [hrun]
    exact .halfway peerId s x hstate hcomp hpub
  · rw [hrun]
    simp only []
    rw [EStateM.run_bind, run_onDevice]
    -- The session is stored now, and stays whatever the checks say.
    rcases checkReplay_installed env p e.device peerId s with ⟨hadmits, hcheck⟩ |
      ⟨hadmits, x, hcheck⟩
    · simp only [hcheck]
      rcases confirmation_cases p (fun _ => do
          modifyProto (fun pr => { pr with state := .established })
          return some (← onDevice (confirmKeys env peerId)))
        { e with device := e.device.installed peerId (s.recorded p.sequence) } with
        ⟨hplain, hgo⟩ | ⟨hplain, x, hgo⟩
      · refine .established peerId s _ hstate hcomp hpub hadmits hplain ?_
        rw [hgo]
        simp only [EStateM.run_bind, run_modifyProto, run_onDevice]
        -- Established is written before the answer is built.
        rcases confirmKeys_cases env peerId (e.device.installed peerId (s.recorded p.sequence))
          (s.recorded p.sequence) (installed_get?_self _ _ _) with ⟨b, hc⟩ | ⟨x, hc⟩
        · rw [hc]
          rfl
        · rw [hc]
          rfl
      · rw [hgo]
        exact .unconfirmed peerId s x hstate hcomp hpub hadmits hplain
    · simp only [hcheck]
      exact .stale peerId s x hstate hcomp hpub hadmits

/-- Using the peer identifier as bytes. -/
theorem requirePeer_cases (e : Endpoint C) :
    (∃ peerId, e.proto.peerId = some peerId ∧ requirePeer.run e = .ok peerId e) ∨
      (e.proto.peerId = none ∧ ∃ x, requirePeer.run e = .error x e) := by
  simp only [requirePeer, EStateM.run_bind, EStateM.run_get]
  cases e.proto.peerId with
  | none => exact Or.inr ⟨rfl, _, rfl⟩
  | some peerId => exact Or.inl ⟨peerId, rfl, rfl⟩

/-- The initiator's path of a KEY_EXCHANGE. -/
theorem handleKeyExchange_keyExchangeSent (env : Env) (p : Packet) (e : Endpoint C)
    (hstate : e.proto.state = .keyExchangeSent) :
    KeyExchangeOutcome env p e ((handleKeyExchange env p).run e) := by
  rw [handleKeyExchange, EStateM.run_bind, EStateM.run_get]
  simp only [hstate]
  rw [EStateM.run_bind]
  rcases requirePeer_cases e with ⟨peerId, hpeer, hrun⟩ | ⟨hpeer, x, hrun⟩
  · rw [hrun]
    simp only []
    rw [EStateM.run_bind, run_onDevice]
    -- The lookup result is not used, but a missing session raises.
    cases hget : e.device.sessions.get? peerId with
    | none =>
        have hno : (Device.getSession peerId).run e.device
            = .error (Device.noSession peerId) e.device := by
          simp only [EStateM.run, Device.getSession, hget]
        simp only [hno]
        refine .unanswered _ hstate ?_
        rintro ⟨⟨_, s, hsome, hs⟩, _⟩
        rw [hpeer, Option.some.injEq] at hsome
        rw [← hsome, hget] at hs
        simp only [reduceCtorEq] at hs
    | some s =>
        have hyes := (Device.getSession_eq_ok peerId e.device e.device s).mpr ⟨hget, rfl⟩
        simp only [hyes]
        rcases confirmation_cases p (fun _ => do
            modifyProto (fun pr => { pr with state := .established })
            return (none : Option Bytes)) e with ⟨hplain, hgo⟩ | ⟨hplain, x, hgo⟩
        · rw [hgo]
          exact .answered hstate ⟨⟨peerId, s, hpeer, hget⟩, hplain⟩
        · rw [hgo]
          exact .unanswered x hstate (fun h => hplain h.2)
  · rw [hrun]
    refine .unanswered x hstate ?_
    rintro ⟨⟨_, _, hsome, _⟩, _⟩
    rw [hpeer] at hsome
    simp only [reduceCtorEq] at hsome

/-- In every other state a KEY_EXCHANGE is rejected, and nothing is written. -/
theorem handleKeyExchange_unexpected (env : Env) (p : Packet) (e : Endpoint C)
    (hreceived : e.proto.state ≠ .helloReceived) (hsent : e.proto.state ≠ .keyExchangeSent) :
    ∃ x, (handleKeyExchange env p).run e = .error x e := by
  simp only [handleKeyExchange, EStateM.run_bind, EStateM.run_get]
  cases hstate : e.proto.state with
  | helloReceived => exact absurd hstate hreceived
  | keyExchangeSent => exact absurd hstate hsent
  | idle => exact ⟨_, rfl⟩
  | helloSent => exact ⟨_, rfl⟩
  | established => exact ⟨_, rfl⟩
  | closed => exact ⟨_, rfl⟩
  | error => exact ⟨_, rfl⟩

/-- The paths of a KEY_EXCHANGE are complete. -/
theorem handleKeyExchange_outcome (env : Env) (p : Packet) (e : Endpoint C) :
    KeyExchangeOutcome env p e ((handleKeyExchange env p).run e) := by
  by_cases hreceived : e.proto.state = .helloReceived
  · exact handleKeyExchange_helloReceived env p e hreceived
  · by_cases hsent : e.proto.state = .keyExchangeSent
    · exact handleKeyExchange_keyExchangeSent env p e hsent
    · rcases handleKeyExchange_unexpected env p e hreceived hsent with ⟨x, hx⟩
      rw [hx]
      exact .unexpected x hreceived hsent

/-- The guard of the entry points that need a session. -/
theorem requireEstablished_cases (e : Endpoint C) :
    (e.proto.state = .established ∧ requireEstablished.run e = .ok () e) ∨
      (e.proto.state ≠ .established ∧ ∃ x, requireEstablished.run e = .error x e) := by
  simp only [requireEstablished, EStateM.run_bind, EStateM.run_get]
  by_cases hest : e.proto.state = .established
  · left
    rw [if_neg (not_not.mpr hest)]
    exact ⟨hest, rfl⟩
  · right
    rw [if_pos hest]
    exact ⟨hest, _, rfl⟩

/-- The endpoint after a BYE: an established machine removes its own peer's
    session and closes, any other ignores the packet. -/
def afterBye (e : Endpoint C) : Endpoint C :=
  if e.proto.state = .established then
    ⟨{ e.proto with state := .closed },
      match e.proto.peerId with
      | some peerId => { e.device with sessions := e.device.sessions.pop peerId }
      | none => e.device⟩
  else e

theorem handleBye_run (e : Endpoint C) : handleBye.run e = .ok none e.afterBye := by
  rcases e with ⟨⟨st, peerId, ed, x, ini⟩, d⟩
  unfold afterBye
  simp only [handleBye, EStateM.run_bind, EStateM.run_get]
  by_cases hest : st = .established
  · rw [if_pos hest, if_pos hest]
    cases peerId with
    | none => rfl
    | some peerId => rfl
  · rw [if_neg hest, if_neg hest]
    rfl

/-- What an incoming packet does once it has been received: one inventory for
    every packet type. -/
inductive Outcome (env : Env) (p : Packet) (e : Endpoint C) :
    EStateM.Result Exn (Endpoint C) (Option Bytes) → Prop
  | hello (r : EStateM.Result Exn (Endpoint C) (Option Bytes)) (htype : p.ptype = .hello)
      (hout : HelloOutcome env p e r) : Outcome env p e r
  | keyExchange (r : EStateM.Result Exn (Endpoint C) (Option Bytes))
      (htype : p.ptype = .keyExchange) (hout : KeyExchangeOutcome env p e r) :
      Outcome env p e r
  /-- DATA and ACK are left to the application. -/
  | accepted (htype : p.ptype = .data ∨ p.ptype = .ack)
      (hstate : e.proto.state = .established) : Outcome env p e (.ok none e)
  /-- DATA or ACK too early, or a type with no handler. -/
  | rejected (x : Exn) (htype : p.ptype ≠ .hello ∧ p.ptype ≠ .keyExchange ∧ p.ptype ≠ .bye ∧
      p.ptype ≠ .error) (hstate : p.ptype = .data ∨ p.ptype = .ack →
        e.proto.state ≠ .established) : Outcome env p e (.error x e)
  | bye (htype : p.ptype = .bye) : Outcome env p e (.ok none e.afterBye)
  | error (htype : p.ptype = .error) :
      Outcome env p e (.ok none { e with proto := { e.proto with state := .error } })

theorem dispatch_outcome (env : Env) (p : Packet) (e : Endpoint C) :
    Outcome env p e ((dispatch env p).run e) := by
  unfold dispatch
  cases htype : p.ptype with
  | hello => exact .hello _ htype (handleHello_outcome env p e)
  | keyExchange => exact .keyExchange _ htype (handleKeyExchange_outcome env p e)
  | data =>
      simp only [handleData, EStateM.run_bind]
      rcases requireEstablished_cases e with ⟨hest, hrun⟩ | ⟨hest, x, hrun⟩
      · rw [hrun]
        exact .accepted (Or.inl htype) hest
      · rw [hrun]
        exact .rejected x (by simp [htype]) (fun _ => hest)
  | ack =>
      simp only [handleAck, EStateM.run_bind]
      rcases requireEstablished_cases e with ⟨hest, hrun⟩ | ⟨hest, x, hrun⟩
      · rw [hrun]
        exact .accepted (Or.inr htype) hest
      · rw [hrun]
        exact .rejected x (by simp [htype]) (fun _ => hest)
  | bye =>
      simp only [handleBye_run]
      exact .bye htype
  | error => exact .error htype
  -- These three have no handler.
  | routeAnnounce => exact .rejected _ (by simp [htype]) (by simp [htype])
  | trustEndorse => exact .rejected _ (by simp [htype]) (by simp [htype])
  | keyRotate => exact .rejected _ (by simp [htype]) (by simp [htype])

end Endpoint

end Ztlnp
