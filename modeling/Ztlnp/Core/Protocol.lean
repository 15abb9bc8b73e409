import Ztlnp.Core.Device

/-!
# The Protocol State Machine

The handshake and data machine of `protocol.py`.

A protocol object holds a reference to its device, and several protocols may
share one. The programs here therefore run on an `Endpoint`, a protocol
together with the device it is attached to at the time of the call; the
sharing is put back in `Theory.Host`.

The handlers write before they decide. A HELLO overwrites the three peer
fields first and only then looks at the state, and a KEY_EXCHANGE installs
its session before it is checked. The order of the writes is the source's.

Optional fields that are `None` behave as Python makes them: a lookup under
`None` fails in the error message, and no key is ever `None`.

What each handler can do is listed in `Theory.Handlers`.

## Main definitions

* `ProtocolState`, `Protocol`: The machine.
* `Endpoint`: A protocol and its device.
* `Endpoint.initiate`, `Endpoint.processIncoming`, `Endpoint.sendData`,
  `Endpoint.receiveData`: The entry points.
* `Endpoint.handleHello`, `Endpoint.handleKeyExchange`, `Endpoint.handleData`,
  `Endpoint.handleAck`, `Endpoint.handleBye`, `Endpoint.dispatch`: The
  handlers.
* `Protocol.metHello`: The peer fields as a HELLO sets them.
-/

namespace Ztlnp

/-- The states of the machine. -/
inductive ProtocolState
  | idle
  | helloSent
  | helloReceived
  | keyExchangeSent
  | established
  | closed
  | error
deriving DecidableEq, Repr

/-- The name `Enum.name` reports. -/
def ProtocolState.name : ProtocolState → String
  | idle => "IDLE"
  | helloSent => "HELLO_SENT"
  | helloReceived => "HELLO_RECEIVED"
  | keyExchangeSent => "KEY_EXCHANGE_SENT"
  | established => "ESTABLISHED"
  | closed => "CLOSED"
  | error => "ERROR"

/-- A protocol instance, apart from its device. -/
structure Protocol where
  state : ProtocolState := .idle
  peerId : Option Bytes := none
  peerEd25519Pub : Option Bytes := none
  peerX25519Pub : Option Bytes := none
  iAmInitiator : Bool := false
deriving DecidableEq, Repr

namespace Protocol

/-- The peer fields as a HELLO sets them. -/
def metHello (pr : Protocol) (p : Packet) : Protocol :=
  { pr with
    peerId := some p.senderId
    peerEd25519Pub := some (p.payload.take 32)
    peerX25519Pub := some (field p.payload 32 32) }

end Protocol

/-- A protocol with the device it is attached to. -/
structure Endpoint (C : Primitives) where
  proto : Protocol
  device : Device C
deriving DecidableEq

/-- `b"KEY_EXCHANGE_OK"`. -/
def keyExchangeOk : Bytes :=
  ascii ['K', 'E', 'Y', '_', 'E', 'X', 'C', 'H', 'A', 'N', 'G', 'E', '_', 'O', 'K']

namespace Endpoint

variable {C : Primitives}

/-- Call a method of the device. -/
def onDevice {α : Type} (x : EStateM Exn (Device C) α) : EStateM Exn (Endpoint C) α :=
  zoom Endpoint.device (fun d e => { e with device := d }) x

/-- Write the protocol's own fields. -/
def modifyProto (f : Protocol → Protocol) : EStateM Exn (Endpoint C) Unit :=
  modify (fun e => { e with proto := f e.proto })

/-- The peer identifier, where the code uses it as bytes. Under `None` the
    session lookup fails while formatting its message. -/
def requirePeer : EStateM Exn (Endpoint C) Bytes := do
  match (← get).proto.peerId with
  | some peerId => return peerId
  | none => throw ⟨.attributeError, "'NoneType' object has no attribute 'hex'"⟩

/-- `_require_established`. -/
def requireEstablished : EStateM Exn (Endpoint C) Unit := do
  let e ← get
  if e.proto.state ≠ .established then
    throw ⟨.handshakeError, "Session is not established (state: " ++ e.proto.state.name ++ ")"⟩

/-- `initiate`. -/
def initiate (env : Env) (peerId : Bytes) : EStateM Exn (Endpoint C) Bytes := do
  let e ← get
  if e.proto.state ≠ .idle then
    throw ⟨.handshakeError, "Cannot initiate: current state is " ++ e.proto.state.name⟩
  else
    -- The peer is remembered before anything can fail, the state is set after.
    modifyProto (fun pr => { pr with peerId := some peerId, iAmInitiator := true })
    let hello ← onDevice (Device.buildHelloPacket env (some peerId))
    modifyProto (fun pr => { pr with state := .helloSent })
    ofExcept hello.toBytes

/-- `_build_key_exchange_packet`, with the sequence number already drawn. -/
def buildKeyExchangePacket (env : Env) (peerId : Bytes) (sequence : Nat) :
    EStateM Exn (Device C) Bytes := do
  let session ← Device.getSession peerId
  let d ← get
  let packet ← ofExcept (d.sealPacket env .keyExchange flagEncrypted peerId keyExchangeOk
    session sequence Device.signed)
  ofExcept packet.toBytes

/-- Draw a number from the peer's session and build the KEY_EXCHANGE. -/
def confirmKeys (env : Env) (peerId : Bytes) : EStateM Exn (Device C) Bytes := do
  let sequence ← Device.onSession peerId Session.nextSequence
  buildKeyExchangePacket env peerId sequence

/-- `_handle_hello`. -/
def handleHello (env : Env) (p : Packet) : EStateM Exn (Endpoint C) (Option Bytes) := do
  if p.payload.length < 64 then
    throw ⟨.handshakeError, "HELLO payload too short (expected 64 bytes)"⟩
  else
    let ed := p.payload.take 32
    let x := field p.payload 32 32
    -- The peer fields are overwritten in every state, also where the HELLO is then rejected.
    modifyProto (fun pr => pr.metHello p)
    let e ← get
    match e.proto.state with
    | .idle =>
      -- Responder: answer with a HELLO of its own, around the same ephemeral pair.
      modifyProto (fun pr => { pr with iAmInitiator := false })
      let _ ← onDevice (Device.generateEphemeralKeypair env p.senderId)
      onDevice (Device.registerPendingPeer p.senderId ed)
      let hello ← onDevice (Device.buildHelloPacket env (some p.senderId))
      modifyProto (fun pr => { pr with state := .helloReceived })
      return some (← ofExcept hello.toBytes)
    | .helloSent =>
      -- Initiator: whoever sent this HELLO becomes the peer of the exchange.
      let _ ← onDevice (Device.completeKeyExchange p.senderId ed x true)
      let ke ← onDevice (confirmKeys env p.senderId)
      modifyProto (fun pr => { pr with state := .keyExchangeSent })
      return some ke
    | st =>
      throw ⟨.handshakeError, "Received unexpected HELLO in state " ++ st.name⟩

/-- `complete_key_exchange` on the fields the protocol remembers. Under `None`
    no ephemeral key is found, and a missing public key is not bytes. -/
def completeRemembered : EStateM Exn (Endpoint C) Bytes := do
  let e ← get
  match e.proto.peerId, e.proto.peerEd25519Pub, e.proto.peerX25519Pub with
  | some peerId, some ed, some x =>
    let _ ← onDevice (Device.completeKeyExchange peerId ed x false)
    return peerId
  | none, _, _ => throw ⟨.valueError,
      "No ephemeral key pair for peer; call generate_ephemeral_keypair() first"⟩
  | some _, _, _ => throw ⟨.typeError, "argument 'data': a bytes-like object is required"⟩

/-- Raise unless the payload is the confirmation. -/
def requireConfirmation (plaintext : Bytes) : EStateM Exn (Endpoint C) Unit :=
  if plaintext ≠ keyExchangeOk then
    throw ⟨.handshakeError, "KEY_EXCHANGE payload mismatch"⟩
  else pure ()

/-- `_handle_key_exchange`. -/
def handleKeyExchange (env : Env) (p : Packet) : EStateM Exn (Endpoint C) (Option Bytes) := do
  let e ← get
  match e.proto.state with
  | .helloReceived =>
    -- Responder: the session is installed first and checked afterwards.
    let peerId ← completeRemembered
    onDevice (Device.onSession peerId
      (Session.checkReplay env.confirmMs p.sequence p.timestampMs))
    let plaintext ← onDevice (Device.decryptPacket p)
    requireConfirmation plaintext
    modifyProto (fun pr => { pr with state := .established })
    return some (← onDevice (confirmKeys env peerId))
  | .keyExchangeSent =>
    -- Initiator: the replay check was already made on reception.
    let peerId ← requirePeer
    let _ ← onDevice (Device.getSession peerId)
    let plaintext ← onDevice (Device.decryptPacket p)
    requireConfirmation plaintext
    modifyProto (fun pr => { pr with state := .established })
    return none
  | st =>
    throw ⟨.handshakeError, "Received unexpected KEY_EXCHANGE in state " ++ st.name⟩

/-- `_handle_data`. -/
def handleData : EStateM Exn (Endpoint C) (Option Bytes) := do
  requireEstablished
  return none

/-- `_handle_ack`. -/
def handleAck : EStateM Exn (Endpoint C) (Option Bytes) := do
  requireEstablished
  return none

/-- `_handle_bye`. -/
def handleBye : EStateM Exn (Endpoint C) (Option Bytes) := do
  let e ← get
  if e.proto.state = .established then
    -- The session that goes is the one of the own peer, whoever sent the BYE.
    match e.proto.peerId with
    | some peerId => onDevice (Device.removeSession peerId)
    | none => pure ()
    modifyProto (fun pr => { pr with state := .closed })
  return none

/-- The branch of `process_incoming` on the packet type. -/
def dispatch (env : Env) (p : Packet) : EStateM Exn (Endpoint C) (Option Bytes) :=
  match p.ptype with
  | .hello => handleHello env p
  | .keyExchange => handleKeyExchange env p
  | .data => handleData
  | .ack => handleAck
  | .bye => handleBye
  -- Any authenticated ERROR packet ends the machine.
  | .error => do
    modifyProto (fun pr => { pr with state := .error })
    return none
  | t => throw ⟨.handshakeError, "Unknown packet type: " ++ toString t.code⟩

/-- `process_incoming`. -/
def processIncoming (env : Env) (raw : Bytes) : EStateM Exn (Endpoint C) (Option Bytes) := do
  let e ← get
  if e.proto.state = .closed ∨ e.proto.state = .error then
    throw ⟨.handshakeError, "Protocol is in terminal state " ++ e.proto.state.name ++
      "; create a new Protocol instance to restart"⟩
  else
    let packet ← onDevice (Device.receivePacket env raw)
    dispatch env packet

/-- `send_data`. -/
def sendData (env : Env) (plaintext : Bytes) : EStateM Exn (Endpoint C) Bytes := do
  requireEstablished
  let peerId ← requirePeer
  let packet ← onDevice (Device.buildDataPacket env peerId plaintext)
  ofExcept packet.toBytes

/-- `receive_data`. -/
def receiveData (env : Env) (raw : Bytes) : EStateM Exn (Endpoint C) Bytes := do
  requireEstablished
  let packet ← onDevice (Device.receivePacket env raw)
  if packet.ptype ≠ .data then
    throw ⟨.handshakeError, "Expected DATA packet, got " ++ packet.ptype.name⟩
  else
    onDevice (Device.decryptPacket packet)

end Endpoint

end Ztlnp
