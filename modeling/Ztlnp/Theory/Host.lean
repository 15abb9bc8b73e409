import Ztlnp.Lib.Runs
import Ztlnp.Theory.Handlers
import Mathlib.Logic.Function.Basic

/-!
# Hosts

A device with all the protocol instances on it, and what the outside can do
to it.

Protocols are numbered, and a number that was never used is a protocol fresh
from its constructor, so making one is not a step of its own. An act calls
one method of one protocol, or one of the device methods an application calls
directly; the bytes, the clock readings and the random draws it brings are
arbitrary. An act that raises still moves the host, to the state it had
reached.

`Moved` lists what an act can do to a host. Facts about runs are proved by
cases over it.

## Main definitions

* `Host`: A device and its protocols.
* `Host.create`: A host as it starts.
* `Builder`, `Builder.run`: The packet builders of a device, as one family.
* `Act`, `Host.step`: What can happen to a host.
* `Moved`: Everything a step can do.
* `Host.answer`, `toyHandshake`, `toyInitiation`, `toyHello`: A handshake that can be
  evaluated.

## Theorems

* `Builder.run_final`: A builder draws a number or an ephemeral key, or does
  nothing.
* `sendData_final`, `receiveData_final`, `initiate_final`: The same for the
  entry points of a protocol.
* `step_moved`: The inventory is complete.
-/

namespace Ztlnp

/-- A device and the protocols attached to it. -/
structure Host (C : Primitives) where
  device : Device C
  protocols : Nat → Protocol

/-- The packets an application asks a device to build for a peer. -/
inductive Builder
  | hello
  | data (plaintext : Bytes)
  | dataMac (plaintext : Bytes)
  | ack (ackedSequence : Nat)
  | bye
deriving DecidableEq

variable {C : Primitives}

/-- The builder methods of a device. -/
def Builder.run (env : Env) (peerId : Bytes) : Builder → EStateM Exn (Device C) Packet
  | hello => Device.buildHelloPacket env (some peerId)
  | data plaintext => Device.buildDataPacket env peerId plaintext
  | dataMac plaintext => Device.buildDataPacketMac env peerId plaintext
  | ack n => Device.buildAckPacket env peerId n
  | bye => Device.buildByePacket env peerId

/-- What can happen to a host. -/
inductive Act
  | initiate (i : Nat) (env : Env) (peerId : Bytes)
  | processIncoming (i : Nat) (env : Env) (raw : Bytes)
  | sendData (i : Nat) (env : Env) (plaintext : Bytes)
  | receiveData (i : Nat) (env : Env) (raw : Bytes)
  | receivePacket (env : Env) (raw : Bytes)
  | build (env : Env) (peerId : Bytes) (b : Builder)
  | removeSession (peerId : Bytes)
deriving DecidableEq

namespace Host

/-- A new device with nothing but fresh protocols. -/
def create (C : Primitives) (identityPrivate : Bytes) : Host C where
  device := Device.create C identityPrivate
  protocols := fun _ => {}

/-- One protocol, with the device. -/
def endpoint (h : Host C) (i : Nat) : Endpoint C := ⟨h.protocols i, h.device⟩

/-- The host after one of its protocols has moved. -/
def put (h : Host C) (i : Nat) (e : Endpoint C) : Host C :=
  ⟨e.device, Function.update h.protocols i e.proto⟩

/-- The outcome of `process_incoming` on one protocol. -/
def incoming (h : Host C) (i : Nat) (env : Env) (raw : Bytes) :
    EStateM.Result Exn (Endpoint C) (Option Bytes) :=
  (Endpoint.processIncoming env raw).run (h.endpoint i)

/-- One act. -/
def step (h : Host C) : Act → Host C
  | .initiate i env peerId => h.put i ((Endpoint.initiate env peerId).run (h.endpoint i)).final
  | .processIncoming i env raw => h.put i (h.incoming i env raw).final
  | .sendData i env plaintext =>
    h.put i ((Endpoint.sendData env plaintext).run (h.endpoint i)).final
  | .receiveData i env raw =>
    h.put i ((Endpoint.receiveData env raw).run (h.endpoint i)).final
  -- The device can also be used without a protocol.
  | .receivePacket env raw =>
    { h with device := ((Device.receivePacket env raw).run h.device).final }
  | .build env peerId b => { h with device := ((b.run env peerId).run h.device).final }
  | .removeSession peerId =>
    { h with device := ((Device.removeSession peerId).run h.device).final }

theorem put_same (h : Host C) (i : Nat) (d : Device C) :
    h.put i ⟨h.protocols i, d⟩ = { h with device := d } := by
  simp only [put, Function.update_eq_self]

theorem put_self (h : Host C) (i : Nat) : h.put i (h.endpoint i) = h :=
  put_same h i h.device

@[simp]
theorem put_device (h : Host C) (i : Nat) (e : Endpoint C) : (h.put i e).device = e.device := rfl

@[simp]
theorem put_protocols_self (h : Host C) (i : Nat) (e : Endpoint C) :
    (h.put i e).protocols i = e.proto := Function.update_self _ _ _

theorem put_protocols_ne (h : Host C) {i j : Nat} (e : Endpoint C) (hne : j ≠ i) :
    (h.put i e).protocols j = h.protocols j := Function.update_of_ne hne _ _

end Host

/-- A session builder draws a number if there is a session, and otherwise
    does nothing. -/
theorem buildSealed_final (env : Env) (ptype : PacketType) (flags : Nat)
    (peerId plaintext : Bytes) (auth : Device C → Session → Packet → Except Exn Bytes)
    (d : Device C) :
    ((Device.buildSealed env ptype flags peerId plaintext auth).run d).final = d ∨
      ∃ s, d.sessions.get? peerId = some s ∧
        ((Device.buildSealed env ptype flags peerId plaintext auth).run d).final
          = d.advanced peerId s := by
  cases hget : d.sessions.get? peerId with
  | none =>
      left
      rw [Device.buildSealed_none _ _ _ _ _ _ _ hget]
      rfl
  | some s =>
      right
      refine ⟨s, rfl, ?_⟩
      rw [Device.buildSealed_some _ _ _ _ _ _ _ _ hget]
      exact run_ofExcept_final _ _

/-- A builder draws a number, or an ephemeral key, or does nothing. -/
theorem Builder.run_final (env : Env) (peerId : Bytes) (b : Builder) (d : Device C) :
    ((b.run env peerId).run d).final = d ∨
      ((b.run env peerId).run d).final = d.withEphemeral env peerId ∨
      ∃ s, d.sessions.get? peerId = some s ∧
        ((b.run env peerId).run d).final = d.advanced peerId s := by
  cases b with
  | hello =>
      right
      left
      exact Device.buildHelloPacket_final env (some peerId) d
  | data plaintext =>
      rcases buildSealed_final env .data flagEncrypted peerId plaintext Device.signed d with h | h
      · exact Or.inl h
      · exact Or.inr (Or.inr h)
  | dataMac plaintext =>
      rcases buildSealed_final env .data (flagEncrypted ||| flagMacAuth) peerId plaintext
        Device.tagged d with h | h
      · exact Or.inl h
      · exact Or.inr (Or.inr h)
  | bye =>
      rcases buildSealed_final env .bye flagEncrypted peerId (ascii ['B', 'Y', 'E'])
        Device.signed d with h | h
      · exact Or.inl h
      · exact Or.inr (Or.inr h)
  | ack n =>
      -- An ACK packs its number before it draws one, and may fail in between.
      simp only [run, Device.buildAckPacket, EStateM.run_bind]
      cases hget : (Device.getSession peerId).run d with
      | error x d' =>
          left
          exact (Device.getSession_eq_error peerId d d' x hget).2
      | ok s d' =>
          rcases (Device.getSession_eq_ok peerId d d' s).mp hget with ⟨_, rfl⟩
          cases hpack : packUInt 4 n "'I' format requires 0 <= number <= 4294967295" with
          | error x =>
              left
              simp only [run_ofExcept_error]
              rfl
          | ok ackPayload =>
              simp only [run_ofExcept_ok]
              rcases buildSealed_final env .ack flagEncrypted peerId ackPayload Device.signed d'
                with h | h
              · exact Or.inl h
              · exact Or.inr (Or.inr h)

namespace Endpoint

/-- What initiating a handshake leaves behind. -/
theorem initiate_final (env : Env) (peerId : Bytes) (e : Endpoint C) :
    ((initiate env peerId).run e).final = e ∨
      (e.proto.state = .idle ∧ ∃ st, (st = .idle ∨ st = .helloSent) ∧
        ((initiate env peerId).run e).final
          = ⟨{ e.proto with peerId := some peerId, iAmInitiator := true, state := st },
              e.device.withEphemeral env peerId⟩) := by
  have hbuild := Device.buildHelloPacket_final env (some peerId) e.device
  rw [Option.getD_some] at hbuild
  rcases e with ⟨⟨st, p, ed, x, ini⟩, d⟩
  by_cases hidle : st = .idle
  · right
    subst hidle
    refine ⟨rfl, ?_⟩
    simp only [initiate, EStateM.run_bind, EStateM.run_get, ne_eq, not_true_eq_false, if_false,
      run_modifyProto, run_onDevice]
    cases hb : (Device.buildHelloPacket env (some peerId)).run d with
    | error x d' =>
        rw [hb] at hbuild
        have hd : d' = d.withEphemeral env peerId := hbuild
        -- The HELLO was not built: the peer is remembered and the state is not.
        exact ⟨.idle, Or.inl rfl, by rw [← hd]; rfl⟩
    | ok q d' =>
        rw [hb] at hbuild
        have hd : d' = d.withEphemeral env peerId := hbuild
        -- The HELLO was built; serialising it writes nothing.
        refine ⟨.helloSent, Or.inr rfl, ?_⟩
        rw [← hd]
        exact run_ofExcept_final _ _
  · left
    simp only [initiate, EStateM.run_bind, EStateM.run_get, ne_eq, hidle, not_false_eq_true,
      if_true]
    rfl

/-- Sending draws a number from a session, or does nothing. -/
theorem sendData_final (env : Env) (plaintext : Bytes) (e : Endpoint C) :
    ((sendData env plaintext).run e).final = e ∨
      ∃ peerId s, e.device.sessions.get? peerId = some s ∧
        ((sendData env plaintext).run e).final
          = { e with device := e.device.advanced peerId s } := by
  simp only [sendData, EStateM.run_bind]
  rcases requireEstablished_cases e with ⟨_, hreq⟩ | ⟨_, x, hreq⟩
  · rw [hreq]
    rcases requirePeer_cases e with ⟨peerId, _, hpeer⟩ | ⟨_, x, hpeer⟩
    · simp only [hpeer, run_onDevice, Device.buildDataPacket]
      -- Past the guards it is the builder that decides.
      have hbuild := buildSealed_final env .data flagEncrypted peerId plaintext Device.signed
        e.device
      cases hb : (Device.buildSealed env .data flagEncrypted peerId plaintext Device.signed).run
          e.device with
      | error x d =>
          rw [hb] at hbuild
          rcases hbuild with hd | ⟨s, hs, hd⟩
          · left
            exact congrArg (Endpoint.mk e.proto) hd
          · right
            exact ⟨peerId, s, hs, congrArg (Endpoint.mk e.proto) hd⟩
      | ok q d =>
          rw [hb] at hbuild
          -- Serialising writes nothing either.
          have hfin : ((ofExcept q.toBytes : EStateM Exn (Endpoint C) Bytes).run
              { e with device := d }).final = { e with device := d } := run_ofExcept_final _ _
          rcases hbuild with hd | ⟨s, hs, hd⟩
          · left
            exact hfin.trans (congrArg (Endpoint.mk e.proto) hd)
          · right
            exact ⟨peerId, s, hs, hfin.trans (congrArg (Endpoint.mk e.proto) hd)⟩
    · left
      simp only [hpeer]
      rfl
  · left
    rw [hreq]
    rfl

/-- A packet that an established protocol receives is recorded, DATA or not. -/
theorem receiveData_received (env : Env) (raw : Bytes) (e : Endpoint C) (p : Packet)
    (d : Device C) (hest : e.proto.state = .established)
    (hrec : Device.Received e.device env raw p d) :
    ((receiveData env raw).run e).final = { e with device := d } := by
  simp only [receiveData, EStateM.run_bind]
  rcases requireEstablished_cases e with ⟨_, hreq⟩ | ⟨hno, _⟩
  · rw [hreq]
    simp only [run_onDevice, Device.receivePacket_of_received env raw e.device d p hrec]
    by_cases hdata : p.ptype = .data
    · simp only [hdata, ne_eq, not_true_eq_false, if_false, run_onDevice]
      rcases Device.decryptPacket_cases p d with ⟨b, _, hdec⟩ | ⟨_, x, hdec⟩
      · rw [hdec]
        rfl
      · rw [hdec]
        rfl
    · simp only [ne_eq, hdata, not_false_eq_true, if_true]
      rfl
  · exact absurd hest hno

/-- Receiving data is refused with nothing changed, or does what receiving a
    packet does. -/
theorem receiveData_cases (env : Env) (raw : Bytes) (e : Endpoint C) :
    (∃ x, (receiveData env raw).run e = .error x e) ∨
      (e.proto.state = .established ∧ ∃ p d, Device.Received e.device env raw p d ∧
        ((receiveData env raw).run e).final = { e with device := d }) := by
  rcases requireEstablished_cases e with ⟨hest, hreq⟩ | ⟨_, x, hreq⟩
  · rcases Device.receivePacket_cases env raw e.device with ⟨p, d, hp⟩ | ⟨x, hx⟩
    · exact Or.inr ⟨hest, p, d, hp, receiveData_received env raw e p d hest hp⟩
    · left
      simp only [receiveData, EStateM.run_bind, hreq, run_onDevice, hx]
      exact ⟨x, rfl⟩
  · left
    simp only [receiveData, EStateM.run_bind, hreq]
    exact ⟨x, rfl⟩

/-- Receiving data does what receiving a packet does. -/
theorem receiveData_final (env : Env) (raw : Bytes) (e : Endpoint C) :
    ((receiveData env raw).run e).final = e ∨
      ∃ p d, Device.Received e.device env raw p d ∧
        ((receiveData env raw).run e).final = { e with device := d } := by
  rcases receiveData_cases env raw e with ⟨x, hx⟩ | ⟨_, hrec⟩
  · left
    rw [hx]
    rfl
  · exact Or.inr hrec

end Endpoint

/-- What an act can do to a host. -/
inductive Moved (h : Host C) : Act → Host C → Prop
  | stayed (a : Act) : Moved h a h
  /-- A session has handed out a sequence number. -/
  | drew (a : Act) (peerId : Bytes) (s : Session)
      (hget : h.device.sessions.get? peerId = some s) :
      Moved h a { h with device := h.device.advanced peerId s }
  /-- An ephemeral pair is in place. -/
  | keyed (a : Act) (env : Env) (peerId : Bytes) :
      Moved h a { h with device := h.device.withEphemeral env peerId }
  | initiated (i : Nat) (env : Env) (peerId : Bytes) (st : ProtocolState)
      (hidle : (h.protocols i).state = .idle) (hst : st = .idle ∨ st = .helloSent) :
      Moved h (.initiate i env peerId) (h.put i
        ⟨{ h.protocols i with peerId := some peerId, iAmInitiator := true, state := st },
          h.device.withEphemeral env peerId⟩)
  /-- A packet was received and no protocol moved. -/
  | observed (a : Act) (env : Env) (raw : Bytes) (p : Packet) (d : Device C)
      (hrec : Device.Received h.device env raw p d) : Moved h a { h with device := d }
  | removed (peerId : Bytes) : Moved h (.removeSession peerId)
      { h with device := { h.device with sessions := h.device.sessions.pop peerId } }
  /-- A packet was received and handled. -/
  | handled (i : Nat) (env : Env) (raw : Bytes) (p : Packet) (d : Device C)
      (r : EStateM.Result Exn (Endpoint C) (Option Bytes))
      (hopen : (h.protocols i).state ≠ .closed ∧ (h.protocols i).state ≠ .error)
      (hrec : Device.Received h.device env raw p d)
      (hrun : h.incoming i env raw = r)
      (hout : Endpoint.Outcome env p ⟨h.protocols i, d⟩ r) :
      Moved h (.processIncoming i env raw) (h.put i r.final)

/-- The inventory of moves is complete. -/
theorem step_moved (h : Host C) (a : Act) : Moved h a (h.step a) := by
  cases a with
  | initiate i env peerId =>
      simp only [Host.step]
      rcases Endpoint.initiate_final env peerId (h.endpoint i) with hf | ⟨hidle, st, hst, hf⟩
      · rw [hf, Host.put_self]
        exact .stayed _
      · rw [hf]
        exact .initiated i env peerId st hidle hst
  | processIncoming i env raw =>
      simp only [Host.step]
      rcases Endpoint.processIncoming_cases env raw (h.endpoint i) with
        ⟨x, hx⟩ | ⟨hopen, p, d, hrec, hrun⟩
      · -- Refused, or in a terminal state: nothing moved.
        have hinc : h.incoming i env raw = .error x (h.endpoint i) := hx
        rw [hinc]
        simp only [EStateM.Result.final, Host.put_self]
        exact .stayed _
      · -- Received: the handler's inventory takes over.
        refine .handled i env raw p d _ hopen hrec rfl ?_
        rw [Host.incoming, hrun]
        exact Endpoint.dispatch_outcome env p _
  | sendData i env plaintext =>
      simp only [Host.step]
      rcases Endpoint.sendData_final env plaintext (h.endpoint i) with hf | ⟨peerId, s, hs, hf⟩
      · rw [hf, Host.put_self]
        exact .stayed _
      · rw [hf]
        exact Host.put_same h i _ ▸ .drew _ peerId s hs
  | receiveData i env raw =>
      simp only [Host.step]
      rcases Endpoint.receiveData_final env raw (h.endpoint i) with hf | ⟨p, d, hrec, hf⟩
      · rw [hf, Host.put_self]
        exact .stayed _
      · rw [hf]
        exact Host.put_same h i _ ▸ .observed _ env raw p d hrec
  | receivePacket env raw =>
      simp only [Host.step]
      rcases Device.receivePacket_cases env raw h.device with ⟨p, d, hrec⟩ | ⟨x, hx⟩
      · rw [Device.receivePacket_of_received env raw h.device d p hrec]
        exact .observed _ env raw p d hrec
      · rw [hx]
        exact .stayed _
  | build env peerId b =>
      simp only [Host.step]
      rcases b.run_final env peerId h.device with hf | hf | ⟨s, hs, hf⟩
      · rw [hf]
        exact .stayed _
      · rw [hf]
        exact .keyed _ env peerId
      · rw [hf]
        exact .drew _ peerId s hs
  | removeSession peerId =>
      exact .removed peerId

/-- The state of a host after `process_incoming`, and the answer to send. -/
def Host.answer (h : Host C) (i : Nat) (env : Env) (raw : Bytes) : Host C × Bytes :=
  (h.step (.processIncoming i env raw),
    match h.incoming i env raw with
    | .ok (some b) _ => b
    | _ => [])

/-- A handshake under the toy primitives between two hosts that are already
    running, on one protocol of each: the hosts afterwards, and what the
    initiator was sent. -/
def toyHandshake (initiator responder : Host toyPrimitives) (i j : Nat) :
    Host toyPrimitives × Host toyPrimitives × List Bytes :=
  match (Endpoint.initiate toyEnv responder.device.deviceId).run (initiator.endpoint i) with
  | .error _ _ => (initiator, responder, [])
  | .ok hello e =>
    -- HELLO, HELLO back, KEY_EXCHANGE, KEY_EXCHANGE back.
    let (responder, helloBack) := responder.answer j toyEnv hello
    let (initiator, confirm) := (initiator.put i e).answer i toyEnv helloBack
    let (responder, confirmBack) := responder.answer j toyEnv confirm
    let (initiator, _) := initiator.answer i toyEnv confirmBack
    (initiator, responder, [helloBack, confirmBack])

/-- The acts of the initiator in a handshake. -/
def toyInitiation (initiator responder : Host toyPrimitives) (i j : Nat) : List Act :=
  .initiate i toyEnv responder.device.deviceId ::
    (toyHandshake initiator responder i j).2.2.map (.processIncoming i toyEnv)

/-- The first message of a handshake under the toy primitives. -/
def toyHello (initiator : Host toyPrimitives) (peerId : Bytes) : Bytes :=
  match (Endpoint.initiate toyEnv peerId).run (initiator.endpoint 0) with
  | .ok hello _ => hello
  | .error _ _ => []

end Ztlnp
