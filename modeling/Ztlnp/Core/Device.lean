import Ztlnp.Core.Session
import Ztlnp.Lib.Dict

/-!
# Devices

The endpoint of `device.py`: an identity key pair, the table of sessions,
the tables of ephemeral keys and of keys learned from a HELLO, and the
methods that build and receive packets.

The device identifier is the hash of the public key and the public key
belongs to the private one; both are fields of the record, so every device
in the model is well formed by construction. The tables are dictionaries
keyed by peer identifier.

The six packet builders for an existing session differ in the type, the
flags, the plaintext and who authenticates; `buildSealed` is their common
body and each keeps its own definition as an instance of it. A builder draws
its sequence number before the constructor's checks and before serialising,
so a builder that raises has already advanced the counter.

`receivePacket` is the only entrance for bytes from the network.
`receivePacket_eq_ok` says exactly what it lets through, in the three ways it
can, and `receivePacket_eq_error` that a refusal changes nothing.

## Main definitions

* `Device`: Identity and tables.
* `Device.create`: A device as its constructor makes it.
* `Device.getSession`, `Device.onSession`: Looking a session up, and calling
  a method of it.
* `Device.generateEphemeralKeypair`, `Device.registerPendingPeer`,
  `Device.completeKeyExchange`, `Device.removeSession`: The handshake tables.
* `Device.buildHelloPacket`, `Device.buildSealed`, `Device.buildDataPacket`,
  `Device.buildDataPacketMac`, `Device.buildAckPacket`,
  `Device.buildByePacket`: Packet construction.
* `Device.receivePacket`, `Device.decryptPacket`: Packet reception.
* `Device.Verifies`: The authentication an incoming packet must pass.
* `Device.Received`: What `receivePacket` lets through.

## Theorems

* `Device.onSession_eq_ok`: A session method that returns.
* `Device.completeKeyExchange_cases`: What completing an exchange does.
* `Device.sealPacket_eq_ok`, `Device.sealPacket_signed_verifies`: What a
  builder puts into a packet, and that it verifies.
* `Device.decryptPacket_eq_ok`, `Device.decryptPacket_cases`: Decryption reads
  and writes nothing.
* `Device.receivePacket_eq_ok`, `Device.receivePacket_eq_error`: Reception.
-/

namespace Ztlnp

/-- A network endpoint. -/
structure Device (C : Primitives) where
  identityPrivate : Bytes
  identityPublicBytes : Bytes
  deviceId : Bytes
  sessions : Dict Bytes Session
  ephemeralPrivate : Dict Bytes Bytes
  ephemeralPublic : Dict Bytes Bytes
  pendingPeerKeys : Dict Bytes Bytes
  public_eq : identityPublicBytes = C.ed25519Public identityPrivate
  deviceId_eq : deviceId = C.sha256 identityPublicBytes
deriving DecidableEq

namespace Device

variable {C : Primitives}

/-- `Device.__init__`, with the private key that was generated. -/
def create (C : Primitives) (identityPrivate : Bytes) : Device C where
  identityPrivate
  identityPublicBytes := C.ed25519Public identityPrivate
  deviceId := C.sha256 (C.ed25519Public identityPrivate)
  sessions := .empty
  ephemeralPrivate := .empty
  ephemeralPublic := .empty
  pendingPeerKeys := .empty
  public_eq := rfl
  deviceId_eq := rfl

/-- The exception of a failed session lookup. -/
def noSession (peerId : Bytes) : Exn :=
  ⟨.sessionNotFoundError, "No established session for peer " ++ hex peerId⟩

/-- `get_session`. -/
def getSession (peerId : Bytes) : EStateM Exn (Device C) Session := fun d =>
  match d.sessions.get? peerId with
  | some s => .ok s d
  | none => .error (noSession peerId) d

/-- Look a session up and call a method on it. The table holds the session
    object itself, so what the method writes is seen through the table. -/
def onSession {α : Type} (peerId : Bytes) (act : EStateM Exn Session α) :
    EStateM Exn (Device C) α := fun d =>
  match d.sessions.get? peerId with
  | none => .error (noSession peerId) d
  | some s =>
    match act.run s with
    | .ok a t => .ok a { d with sessions := d.sessions.set peerId t }
    | .error e t => .error e { d with sessions := d.sessions.set peerId t }

/-- `remove_session`. -/
def removeSession (peerId : Bytes) : EStateM Exn (Device C) Unit :=
  modify (fun d => { d with sessions := d.sessions.pop peerId })

/-- The device once a peer's key is registered as pending. -/
def withPending (d : Device C) (peerId peerEd25519Public : Bytes) : Device C :=
  { d with pendingPeerKeys := d.pendingPeerKeys.set peerId peerEd25519Public }

/-- `register_pending_peer`. -/
def registerPendingPeer (peerId peerEd25519Public : Bytes) : EStateM Exn (Device C) Unit :=
  modify (fun d => d.withPending peerId peerEd25519Public)

/-- The tables once there is an ephemeral pair for a peer: an existing pair is
    reused, otherwise the drawn one is stored. -/
def withEphemeral (d : Device C) (env : Env) (peerId : Bytes) : Device C :=
  if d.ephemeralPrivate.get? peerId = none then
    { d with
      ephemeralPrivate := d.ephemeralPrivate.set peerId env.x25519Private
      ephemeralPublic := d.ephemeralPublic.set peerId (C.x25519Public env.x25519Private) }
  else d

/-- `generate_ephemeral_keypair`. -/
def generateEphemeralKeypair (env : Env) (peerId : Bytes) : EStateM Exn (Device C) Bytes := do
  modify (fun d => d.withEphemeral env peerId)
  let d ← get
  match d.ephemeralPublic.get? peerId with
  | some pub => return pub
  | none => throw ⟨.keyError, bytesRepr peerId⟩

/-- The session that completing an exchange installs, before it is stored:
    the shared secret, the two derived keys and the constructor's checks. -/
def exchangedSession (d : Device C) (peerId peerEd25519Public peerX25519Public : Bytes)
    (iAmInitiator : Bool) : Except Exn Session :=
  match d.ephemeralPrivate.get? peerId with
  | none => .error ⟨.valueError,
      "No ephemeral key pair for peer; call generate_ephemeral_keypair() first"⟩
  | some priv => do
    let sharedSecret ← CryptoEngine.x25519Exchange C priv peerX25519Public
    let initiatorId := if iAmInitiator then d.deviceId else peerId
    let responderId := if iAmInitiator then peerId else d.deviceId
    Session.postInit peerId peerEd25519Public
      (CryptoEngine.deriveSessionKey C sharedSecret initiatorId responderId)
      (CryptoEngine.deriveMacKey C sharedSecret initiatorId responderId)

/-- The device once a completed exchange has been cleaned up after. -/
def installed (d : Device C) (peerId : Bytes) (s : Session) : Device C :=
  { d with
    sessions := d.sessions.set peerId s
    ephemeralPrivate := d.ephemeralPrivate.pop peerId
    ephemeralPublic := d.ephemeralPublic.pop peerId
    pendingPeerKeys := d.pendingPeerKeys.pop peerId }

/-- `complete_key_exchange`: install the session, then drop the ephemeral and
    pending keys of the peer. -/
def completeKeyExchange (peerId peerEd25519Public peerX25519Public : Bytes)
    (iAmInitiator : Bool) : EStateM Exn (Device C) Session := do
  let d ← get
  let session ← ofExcept
    (d.exchangedSession peerId peerEd25519Public peerX25519Public iAmInitiator)
  -- `del` raises on a missing key; `pop` with a default does not.
  match d.ephemeralPublic.get? peerId with
  | none =>
    set { d with
      sessions := d.sessions.set peerId session
      ephemeralPrivate := d.ephemeralPrivate.pop peerId }
    throw ⟨.keyError, bytesRepr peerId⟩
  | some _ =>
    set (d.installed peerId session)
    return session

/-- The construction part of `build_hello_packet`. -/
def helloPacket (d : Device C) (env : Env) (recipientId x25519Pub : Bytes) :
    Except Exn Packet := do
  let packet ← PacketFields.postInit env.buildMs
    { ptype := .hello
      senderId := d.deviceId
      payload := d.identityPublicBytes ++ x25519Pub
      recipientId := recipientId
      flags := flagNone
      sequence := 0 }
  let signature ← CryptoEngine.signPacket C d.identityPrivate packet
  return { packet with signature := signature }

/-- `build_hello_packet`. -/
def buildHelloPacket (env : Env) (recipientId : Option Bytes) :
    EStateM Exn (Device C) Packet := do
  let recipientId := recipientId.getD broadcastId
  let x25519Pub ← generateEphemeralKeypair env recipientId
  let d ← get
  ofExcept (d.helloPacket env recipientId x25519Pub)

/-- The device once a session has handed out its next sequence number. -/
def advanced (d : Device C) (peerId : Bytes) (s : Session) : Device C :=
  { d with sessions := d.sessions.set peerId { s with localSequence := s.localSequence + 1 } }

/-- The construction part the builders share: the packet around an encrypted
    plaintext, and its authentication. -/
def sealPacket (d : Device C) (env : Env) (ptype : PacketType) (flags : Nat)
    (peerId plaintext : Bytes) (session : Session) (sequence : Nat)
    (authenticate : Device C → Session → Packet → Except Exn Bytes) : Except Exn Packet := do
  let packet ← PacketFields.postInit env.buildMs
    { ptype := ptype
      senderId := d.deviceId
      payload := C.aesGcmEncrypt session.sessionKey env.nonce plaintext
      recipientId := peerId
      flags := flags
      sequence := sequence
      nonce := env.nonce }
  let signature ← authenticate d session packet
  return { packet with signature := signature }

/-- The common body of the builders for an existing session: look it up, draw
    a sequence number, construct. -/
def buildSealed (env : Env) (ptype : PacketType) (flags : Nat) (peerId plaintext : Bytes)
    (authenticate : Device C → Session → Packet → Except Exn Bytes) :
    EStateM Exn (Device C) Packet := do
  let session ← getSession peerId
  -- From here on the number is gone, whatever happens to the packet.
  let sequence ← onSession peerId Session.nextSequence
  let d ← get
  ofExcept (d.sealPacket env ptype flags peerId plaintext session sequence authenticate)

/-- Authentication by the device's Ed25519 key. -/
def signed (d : Device C) (_ : Session) (p : Packet) : Except Exn Bytes :=
  CryptoEngine.signPacket C d.identityPrivate p

/-- Authentication by the session's MAC key. -/
def tagged (_ : Device C) (s : Session) (p : Packet) : Except Exn Bytes :=
  CryptoEngine.macPacket C s.macKey p

/-- `build_data_packet`. -/
def buildDataPacket (env : Env) (peerId plaintext : Bytes) : EStateM Exn (Device C) Packet :=
  buildSealed env .data flagEncrypted peerId plaintext signed

/-- `build_data_packet_mac`. -/
def buildDataPacketMac (env : Env) (peerId plaintext : Bytes) :
    EStateM Exn (Device C) Packet :=
  buildSealed env .data (flagEncrypted ||| flagMacAuth) peerId plaintext tagged

/-- `build_ack_packet`: the acknowledged number is packed after the session
    lookup and before anything is drawn. -/
def buildAckPacket (env : Env) (peerId : Bytes) (ackedSequence : Nat) :
    EStateM Exn (Device C) Packet := do
  let _ ← getSession peerId
  let ackPayload ← ofExcept
    (packUInt 4 ackedSequence "'I' format requires 0 <= number <= 4294967295")
  buildSealed env .ack flagEncrypted peerId ackPayload signed

/-- `build_bye_packet`. -/
def buildByePacket (env : Env) (peerId : Bytes) : EStateM Exn (Device C) Packet :=
  buildSealed env .bye flagEncrypted peerId (ascii ['B', 'Y', 'E']) signed

/-- `decrypt_packet`: under the session of the packet's own sender. -/
def decryptPacket (p : Packet) : EStateM Exn (Device C) Bytes := do
  -- The recipient of the packet is not compared with the device.
  let session ← getSession p.senderId
  ofExcept (CryptoEngine.decrypt C session.sessionKey p.nonce p.payload)

/-- Raise unless a verification returned true. -/
def require (verified : Except Exn Bool) (message : String) : Except Exn Unit := do
  if ← verified then return () else throw ⟨.signatureVerificationError, message⟩

/-- The verification path of `receive_packet` for a sender with a session:
    the MAC tag when the packet says so, the Ed25519 signature otherwise. -/
def verifySession (C : Primitives) (s : Session) (p : Packet) : Except Exn Unit :=
  if p.macAuth then
    require (CryptoEngine.verifyPacketMac C s.macKey p)
      ("MAC_AUTH tag verification failed for peer " ++ hex p.senderId)
  else
    require (CryptoEngine.verifyPacket C s.peerEd25519Public p)
      ("Packet signature verification failed for peer " ++ hex p.senderId)

/-- `receive_packet`: parse, authenticate and replay-check. A HELLO carries
    its own key; any other packet needs a session or a pending key of its
    sender, and the session's replay check runs last. -/
def receivePacket (env : Env) (raw : Bytes) : EStateM Exn (Device C) Packet := do
  let d ← get
  let packet ← ofExcept (Packet.fromBytes env.parseMs raw)
  -- A HELLO is checked against its own key and leaves no trace.
  if packet.ptype = .hello then
    ofExcept (require (CryptoEngine.verifyPacket C (packet.payload.take 32) packet)
      "HELLO packet signature verification failed")
    return packet
  match d.sessions.get? packet.senderId with
  -- The replay check comes after authentication, and is the only write.
  | some session =>
    ofExcept (verifySession C session packet)
    onSession packet.senderId
      (Session.checkReplay env.receiveMs packet.sequence packet.timestampMs)
    return packet
  | none =>
    match d.pendingPeerKeys.get? packet.senderId with
    -- Between HELLO and session only the signature is checked.
    | some key =>
      ofExcept (require (CryptoEngine.verifyPacket C key packet)
        ("Packet signature verification failed for peer " ++ hex packet.senderId))
      return packet
    | none => throw (noSession packet.senderId)

theorem getSession_eq_ok (peerId : Bytes) (d d' : Device C) (s : Session) :
    (getSession peerId).run d = .ok s d' ↔ d.sessions.get? peerId = some s ∧ d' = d := by
  simp only [EStateM.run, getSession]
  cases d.sessions.get? peerId with
  | none => simp only [reduceCtorEq, false_and]
  | some t =>
      simp only [EStateM.Result.ok.injEq, Option.some.injEq]
      exact ⟨fun h => ⟨h.1, h.2.symm⟩, fun h => ⟨h.1, h.2.symm⟩⟩

theorem getSession_eq_error (peerId : Bytes) (d d' : Device C) (e : Exn)
    (h : (getSession peerId).run d = .error e d') : d.sessions.get? peerId = none ∧ d' = d := by
  simp only [EStateM.run, getSession] at h
  cases hg : d.sessions.get? peerId with
  | none =>
      rw [hg] at h
      simp only [EStateM.Result.error.injEq] at h
      exact ⟨rfl, h.2.symm⟩
  | some t =>
      rw [hg] at h
      simp only [reduceCtorEq] at h

/-- A session method that returns ran on the stored session, and its result
    is stored. -/
theorem onSession_eq_ok {α : Type} (peerId : Bytes) (act : EStateM Exn Session α)
    (d d' : Device C) (a : α) :
    (onSession peerId act).run d = .ok a d' ↔
      ∃ s t, d.sessions.get? peerId = some s ∧ act.run s = .ok a t ∧
        d' = { d with sessions := d.sessions.set peerId t } := by
  simp only [EStateM.run, onSession]
  cases d.sessions.get? peerId with
  | none => simp only [reduceCtorEq, false_and, exists_false]
  | some s =>
      cases hact : act s with
      | error e t =>
          -- A method that raised did not return.
          simp only [hact, reduceCtorEq, Option.some.injEq, false_iff, not_exists, not_and]
          rintro s' t' rfl ht
          rw [hact] at ht
          simp only [reduceCtorEq] at ht
      | ok b t =>
          simp only [hact, EStateM.Result.ok.injEq, Option.some.injEq]
          constructor
          · rintro ⟨rfl, rfl⟩
            exact ⟨s, t, rfl, hact, rfl⟩
          · rintro ⟨s', t', rfl, ht, rfl⟩
            rw [hact, EStateM.Result.ok.injEq] at ht
            exact ⟨ht.1, by rw [ht.2]⟩

theorem generateEphemeralKeypair_final (env : Env) (peerId : Bytes) (d : Device C) :
    ((generateEphemeralKeypair env peerId).run d).final = d.withEphemeral env peerId := by
  simp only [generateEphemeralKeypair, EStateM.run_bind, EStateM.run_modify, EStateM.run_get]
  cases (d.withEphemeral env peerId).ephemeralPublic.get? peerId with
  | some pub => rfl
  | none => rfl

theorem buildHelloPacket_final (env : Env) (recipientId : Option Bytes) (d : Device C) :
    ((buildHelloPacket env recipientId).run d).final
      = d.withEphemeral env (recipientId.getD broadcastId) := by
  have hgen := generateEphemeralKeypair_final env (recipientId.getD broadcastId) d
  simp only [buildHelloPacket, EStateM.run_bind]
  cases hrun : (generateEphemeralKeypair env (recipientId.getD broadcastId)).run d with
  | error e t =>
      rw [hrun] at hgen
      exact hgen
  | ok pub t =>
      rw [hrun] at hgen
      simp only [EStateM.run_get]
      -- Constructing the packet writes nothing.
      cases t.helloPacket env (recipientId.getD broadcastId) pub with
      | ok q => exact hgen
      | error e => exact hgen

theorem withEphemeral_sessions (d : Device C) (env : Env) (peerId : Bytes) :
    (d.withEphemeral env peerId).sessions = d.sessions := by
  unfold withEphemeral
  by_cases h : d.ephemeralPrivate.get? peerId = none
  · rw [if_pos h]
  · rw [if_neg h]

/-- A second request for the same peer finds the pair of the first. -/
theorem withEphemeral_again (d : Device C) (env : Env) (peerId key : Bytes) :
    ((d.withEphemeral env peerId).withPending peerId key).withEphemeral env peerId
      = (d.withEphemeral env peerId).withPending peerId key := by
  have hsome : ((d.withEphemeral env peerId).withPending peerId key).ephemeralPrivate.get? peerId
      ≠ none := by
    simp only [withPending, withEphemeral]
    -- Either the pair was just stored or it was there before.
    by_cases h : d.ephemeralPrivate.get? peerId = none
    · rw [if_pos h, Dict.get?_set_self]
      simp only [ne_eq, reduceCtorEq, not_false_eq_true]
    · rw [if_neg h]
      exact h
  rw [withEphemeral, if_neg hsome]

/-- A HELLO that was built serialises. -/
theorem helloPacket_toBytes (d : Device C) (env : Env) (recipientId x : Bytes) (p : Packet)
    (h : d.helloPacket env recipientId x = .ok p) : ∃ b, p.toBytes = .ok b := by
  simp only [helloPacket, except_bind_eq_ok, pure, Except.pure, Except.ok.injEq] at h
  rcases h with ⟨q, _, sig, hsig, rfl⟩
  have hpack := ((CryptoEngine.signPacket_eq_ok C _ q sig).mp hsig).1
  exact ⟨_, (Packet.toBytes_eq_ok _ _).mpr ⟨hpack, rfl⟩⟩

/-- A HELLO builder that returns has built a packet that serialises. -/
theorem buildHelloPacket_toBytes (env : Env) (recipientId : Option Bytes) (d : Device C)
    (p : Packet) (d' : Device C) (h : (buildHelloPacket env recipientId).run d = .ok p d') :
    ∃ b, p.toBytes = .ok b := by
  simp only [buildHelloPacket, run_bind_eq_ok, run_ofExcept_eq_ok] at h
  rcases h with ⟨x, t, _, u, v, _, hp, _⟩
  exact helloPacket_toBytes u env _ x p hp

/-- What a sealed packet carries. -/
structure Sealed (d : Device C) (env : Env) (t : PacketType) (flags : Nat)
    (peerId plaintext : Bytes) (s : Session) (n : Nat) (p : Packet) : Prop where
  ptype : p.ptype = t
  flags : p.flags = flags
  senderId : p.senderId = d.deviceId
  recipientId : p.recipientId = peerId
  sequence : p.sequence = n
  nonce : p.nonce = env.nonce
  timestampMs : p.timestampMs = env.buildMs
  payload : p.payload = C.aesGcmEncrypt s.sessionKey env.nonce plaintext

/-- A sealed packet carries what its builder was given, under a signature of
    the same packet without one. -/
theorem sealPacket_eq_ok (d : Device C) (env : Env) (t : PacketType) (flags : Nat)
    (peerId plaintext : Bytes) (s : Session) (n : Nat)
    (auth : Device C → Session → Packet → Except Exn Bytes) (p : Packet)
    (h : d.sealPacket env t flags peerId plaintext s n auth = .ok p) :
    Sealed d env t flags peerId plaintext s n p ∧
      ∃ q sig, auth d s q = .ok sig ∧ p = { q with signature := sig } := by
  simp only [sealPacket, except_bind_eq_ok, pure, Except.pure, Except.ok.injEq] at h
  rcases h with ⟨q, hq, sig, hsig, rfl⟩
  have hf := PacketFields.postInit_eq_ok _ _ _ hq
  rw [if_pos rfl] at hf
  refine ⟨?_, q, sig, hsig, rfl⟩
  constructor <;> simp only [hf]

/-- A HELLO carries the device's key and verifies under it. -/
theorem helloPacket_eq_ok (d : Device C) (env : Env) (recipientId x : Bytes) (p : Packet)
    (h : d.helloPacket env recipientId x = .ok p) :
    p.ptype = .hello ∧ p.senderId = d.deviceId ∧ p.recipientId = recipientId ∧
      p.timestampMs = env.buildMs ∧ p.signature.length = sigSize ∧
      CryptoEngine.verifyPacket C (p.payload.take 32) p = .ok true := by
  simp only [helloPacket, except_bind_eq_ok, pure, Except.pure, Except.ok.injEq] at h
  rcases h with ⟨q, hq, sig, hsig, rfl⟩
  have hf := PacketFields.postInit_eq_ok _ _ _ hq
  rw [if_pos rfl] at hf
  -- The first 32 bytes of the payload are the key the packet is signed with.
  have hkey : q.payload.take 32 = C.ed25519Public d.identityPrivate := by
    have hlen : d.identityPublicBytes.length = 32 := by
      rw [d.public_eq]
      exact C.ed25519Public_length _
    rw [hf, List.take_append_of_le_length hlen.ge, ← hlen, List.take_length, d.public_eq]
  have hsiglen : sig.length = sigSize := by
    rw [((CryptoEngine.signPacket_eq_ok C _ q sig).mp hsig).2]
    exact C.ed25519Sign_length _ _
  refine ⟨?_, ?_, ?_, ?_, hsiglen, ?_⟩
  · simp only [hf]
  · simp only [hf]
  · simp only [hf]
  · simp only [hf]
  · simp only [hkey]
    exact CryptoEngine.verifyPacket_signed C d.identityPrivate q sig hsig

/-- Either key makes a signature of the right length. -/
theorem sealPacket_signature_length (d : Device C) (env : Env) (t : PacketType) (flags : Nat)
    (peerId plaintext : Bytes) (s : Session) (n : Nat)
    (auth : Device C → Session → Packet → Except Exn Bytes) (p : Packet)
    (hauth : auth = signed ∨ auth = tagged)
    (h : d.sealPacket env t flags peerId plaintext s n auth = .ok p) :
    p.signature.length = sigSize := by
  rcases (sealPacket_eq_ok d env t flags peerId plaintext s n auth p h).2 with ⟨q, sig, hsig, rfl⟩
  -- A signature and a tag have the same length.
  rcases hauth with rfl | rfl
  · rw [((CryptoEngine.signPacket_eq_ok C _ q sig).mp hsig).2]
    exact C.ed25519Sign_length _ _
  · rw [((CryptoEngine.macPacket_eq_ok C _ q sig).mp hsig).2]
    exact C.hmacSha512_length _ _

/-- A packet sealed by its device's key verifies under that device's public
    key. -/
theorem sealPacket_signed_verifies (d : Device C) (env : Env) (t : PacketType) (flags : Nat)
    (peerId plaintext : Bytes) (s : Session) (n : Nat) (p : Packet)
    (h : d.sealPacket env t flags peerId plaintext s n signed = .ok p) :
    CryptoEngine.verifyPacket C d.identityPublicBytes p = .ok true := by
  rcases (sealPacket_eq_ok d env t flags peerId plaintext s n signed p h).2 with ⟨q, sig, hsig, rfl⟩
  rw [d.public_eq]
  exact CryptoEngine.verifyPacket_signed C d.identityPrivate q sig hsig

/-- A completed exchange makes a fresh session for the peer and key it was
    given. -/
theorem exchangedSession_eq_ok (d : Device C) (peerId ed x : Bytes) (b : Bool) (s : Session)
    (h : d.exchangedSession peerId ed x b = .ok s) :
    s.peerId = peerId ∧ s.peerEd25519Public = ed ∧ s.localSequence = 0 ∧ s.peerMaxSeq = 0 ∧
      s.peerSeqWindow = ∅ := by
  unfold exchangedSession at h
  cases hpriv : d.ephemeralPrivate.get? peerId with
  | none =>
      rw [hpriv] at h
      simp only [reduceCtorEq] at h
  | some priv =>
      simp only [hpriv, except_bind_eq_ok] at h
      rcases h with ⟨secret, _, hs⟩
      rcases Session.postInit_eq_ok _ _ _ _ _ hs with ⟨⟨hp, he, _, _⟩, hfresh⟩
      exact ⟨hp, he, hfresh⟩

/-- What completing an exchange does: it is refused with the device
    unchanged, it raises on a missing public half after installing the
    session, or it installs the session and cleans up. -/
theorem completeKeyExchange_cases (peerId ed x : Bytes) (b : Bool) (d : Device C) :
    (∃ e, d.exchangedSession peerId ed x b = .error e ∧
      (completeKeyExchange peerId ed x b).run d = .error e d) ∨
    (∃ s e, d.exchangedSession peerId ed x b = .ok s ∧
      d.ephemeralPublic.get? peerId = none ∧
      (completeKeyExchange peerId ed x b).run d = .error e
        { d with
          sessions := d.sessions.set peerId s
          ephemeralPrivate := d.ephemeralPrivate.pop peerId }) ∨
    (∃ s, d.exchangedSession peerId ed x b = .ok s ∧
      d.ephemeralPublic.get? peerId ≠ none ∧
      (completeKeyExchange peerId ed x b).run d = .ok s (d.installed peerId s)) := by
  simp only [completeKeyExchange, EStateM.run_bind, EStateM.run_get]
  cases d.exchangedSession peerId ed x b with
  | error e =>
      left
      exact ⟨e, rfl, rfl⟩
  | ok s =>
      right
      -- The session is stored before the public key is looked up.
      cases hpub : d.ephemeralPublic.get? peerId with
      | none =>
          left
          exact ⟨s, _, rfl, rfl, rfl⟩
      | some pub =>
          right
          exact ⟨s, rfl, by simp only [ne_eq, reduceCtorEq, not_false_eq_true], rfl⟩

theorem onSession_nextSequence (peerId : Bytes) (d : Device C) (s : Session)
    (h : d.sessions.get? peerId = some s) :
    (onSession peerId Session.nextSequence).run d = .ok s.localSequence (d.advanced peerId s) :=
  (onSession_eq_ok peerId _ d _ _).mpr ⟨s, _, h, rfl, rfl⟩

/-- A builder without a session raises and changes nothing. -/
theorem buildSealed_none (env : Env) (ptype : PacketType) (flags : Nat)
    (peerId plaintext : Bytes) (auth : Device C → Session → Packet → Except Exn Bytes)
    (d : Device C) (h : d.sessions.get? peerId = none) :
    (buildSealed env ptype flags peerId plaintext auth).run d = .error (noSession peerId) d := by
  have hget : (getSession peerId).run d = .error (noSession peerId) d := by
    simp only [EStateM.run, getSession, h]
  simp only [buildSealed, EStateM.run_bind, hget]

/-- A builder with a session draws a number, whether or not the construction
    then succeeds. -/
theorem buildSealed_some (env : Env) (ptype : PacketType) (flags : Nat)
    (peerId plaintext : Bytes) (auth : Device C → Session → Packet → Except Exn Bytes)
    (d : Device C) (s : Session) (h : d.sessions.get? peerId = some s) :
    (buildSealed env ptype flags peerId plaintext auth).run d
      = (ofExcept ((d.advanced peerId s).sealPacket env ptype flags peerId plaintext s
          s.localSequence auth)).run (d.advanced peerId s) := by
  have hget : (getSession peerId).run d = .ok s d := by
    simp only [EStateM.run, getSession, h]
  simp only [buildSealed, EStateM.run_bind, hget, onSession_nextSequence peerId d s h,
    EStateM.run_get]

/-- A session builder that returns has sealed a packet under the session. -/
theorem buildSealed_eq_ok (env : Env) (t : PacketType) (flags : Nat) (peerId plaintext : Bytes)
    (auth : Device C → Session → Packet → Except Exn Bytes) (a a' : Device C) (p : Packet)
    (h : (buildSealed env t flags peerId plaintext auth).run a = .ok p a') :
    ∃ s, a.sessions.get? peerId = some s ∧ a' = a.advanced peerId s ∧
      (a.advanced peerId s).sealPacket env t flags peerId plaintext s s.localSequence auth
        = .ok p := by
  cases hget : a.sessions.get? peerId with
  | none =>
      rw [buildSealed_none _ _ _ _ _ _ _ hget] at h
      simp only [reduceCtorEq] at h
  | some s =>
      rw [buildSealed_some _ _ _ _ _ _ _ _ hget, run_ofExcept_eq_ok] at h
      exact ⟨s, rfl, h.2, h.1⟩

/-- Decryption reads the session of the packet's sender and writes nothing. -/
theorem decryptPacket_run (p : Packet) (d : Device C) :
    (decryptPacket p).run d = match d.sessions.get? p.senderId with
      | none => .error (noSession p.senderId) d
      | some s => (ofExcept (CryptoEngine.decrypt C s.sessionKey p.nonce p.payload)).run d := by
  cases h : d.sessions.get? p.senderId with
  | none =>
      have hget : (getSession p.senderId).run d = .error (noSession p.senderId) d := by
        simp only [EStateM.run, getSession, h]
      simp only [decryptPacket, EStateM.run_bind, hget]
  | some s =>
      have hget : (getSession p.senderId).run d = .ok s d := by
        simp only [EStateM.run, getSession, h]
      simp only [decryptPacket, EStateM.run_bind, hget]

/-- The plaintext of a packet under the session stored for its sender. -/
def Decrypts (d : Device C) (p : Packet) (plaintext : Bytes) : Prop :=
  ∃ s, d.sessions.get? p.senderId = some s ∧
    C.aesGcmDecrypt s.sessionKey p.nonce p.payload = some plaintext

theorem decryptPacket_eq_ok (p : Packet) (d d' : Device C) (plaintext : Bytes) :
    (decryptPacket p).run d = .ok plaintext d' ↔ d.Decrypts p plaintext ∧ d' = d := by
  rw [decryptPacket_run]
  unfold Decrypts
  cases d.sessions.get? p.senderId with
  | none => simp only [reduceCtorEq, false_and, exists_false]
  | some s =>
      simp only [run_ofExcept_eq_ok, CryptoEngine.decrypt, Option.some.injEq, exists_eq_left']
      cases C.aesGcmDecrypt s.sessionKey p.nonce p.payload with
      | none => simp only [reduceCtorEq, false_and]
      | some q => simp only [Except.ok.injEq, Option.some.injEq]

/-- A packet has a plaintext, or decrypting it raises. The device stays as it
    is either way. -/
theorem decryptPacket_cases (p : Packet) (d : Device C) :
    (∃ plaintext, d.Decrypts p plaintext ∧ (decryptPacket p).run d = .ok plaintext d) ∨
      ((∀ plaintext, ¬ d.Decrypts p plaintext) ∧ ∃ x, (decryptPacket p).run d = .error x d) := by
  by_cases h : ∃ plaintext, d.Decrypts p plaintext
  · rcases h with ⟨plaintext, h⟩
    exact Or.inl ⟨plaintext, h, (decryptPacket_eq_ok p d d plaintext).mpr ⟨h, rfl⟩⟩
  · refine Or.inr ⟨not_exists.mp h, ?_⟩
    rw [decryptPacket_run]
    cases hget : d.sessions.get? p.senderId with
    | none => exact ⟨_, rfl⟩
    | some s =>
        cases hdec : C.aesGcmDecrypt s.sessionKey p.nonce p.payload with
        | none =>
            simp only [CryptoEngine.decrypt, hdec]
            exact ⟨_, rfl⟩
        | some q => exact absurd ⟨q, s, hget, hdec⟩ h

theorem require_true (message : String) : require (.ok true) message = .ok () := rfl

/-- A verification that did not return true makes the check raise. -/
theorem require_error (verified : Except Exn Bool) (message : String)
    (h : verified ≠ .ok true) : ∃ e, require verified message = .error e := by
  cases verified with
  | error e => exact ⟨e, rfl⟩
  | ok b =>
      cases b with
      | true => exact absurd rfl h
      | false => exact ⟨_, rfl⟩

/-- The authentication a packet must pass against a session. -/
def Verifies (C : Primitives) (s : Session) (p : Packet) : Prop :=
  if p.macAuth then CryptoEngine.verifyPacketMac C s.macKey p = .ok true
  else CryptoEngine.verifyPacket C s.peerEd25519Public p = .ok true

theorem verifySession_cases (s : Session) (p : Packet) :
    (Verifies C s p ∧ verifySession C s p = .ok ()) ∨
      (¬ Verifies C s p ∧ ∃ e, verifySession C s p = .error e) := by
  unfold Verifies verifySession
  by_cases hmac : p.macAuth = true
  · rw [if_pos hmac, if_pos hmac]
    by_cases hv : CryptoEngine.verifyPacketMac C s.macKey p = .ok true
    · exact Or.inl ⟨hv, by rw [hv, require_true]⟩
    · exact Or.inr ⟨hv, require_error _ _ hv⟩
  · rw [if_neg hmac, if_neg hmac]
    by_cases hv : CryptoEngine.verifyPacket C s.peerEd25519Public p = .ok true
    · exact Or.inl ⟨hv, by rw [hv, require_true]⟩
    · exact Or.inr ⟨hv, require_error _ _ hv⟩

theorem verifySession_of_verifies (s : Session) (p : Packet) (h : Verifies C s p) :
    verifySession C s p = .ok () := by
  rcases verifySession_cases s p with ⟨_, hv⟩ | ⟨hv, _⟩
  · exact hv
  · exact absurd h hv

/-- What `receivePacket` lets through, and the device it leaves behind. -/
inductive Received (d : Device C) (env : Env) (raw : Bytes) : Packet → Device C → Prop
  /-- A HELLO, signed by the key it carries. -/
  | hello (p : Packet) (hparse : Packet.fromBytes env.parseMs raw = .ok p)
      (htype : p.ptype = .hello)
      (hverify : CryptoEngine.verifyPacket C (p.payload.take 32) p = .ok true) :
      Received d env raw p d
  /-- A packet of a session, recorded in the session's replay window. -/
  | session (p : Packet) (s : Session) (hparse : Packet.fromBytes env.parseMs raw = .ok p)
      (htype : p.ptype ≠ .hello) (hget : d.sessions.get? p.senderId = some s)
      (hverify : Verifies C s p) (hadmits : s.Admits env.receiveMs p.sequence p.timestampMs) :
      Received d env raw p
        { d with sessions := d.sessions.set p.senderId (s.recorded p.sequence) }
  /-- A packet of a sender known only from its HELLO; nothing is recorded. -/
  | pending (p : Packet) (key : Bytes) (hparse : Packet.fromBytes env.parseMs raw = .ok p)
      (htype : p.ptype ≠ .hello) (hget : d.sessions.get? p.senderId = none)
      (hkey : d.pendingPeerKeys.get? p.senderId = some key)
      (hverify : CryptoEngine.verifyPacket C key p = .ok true) :
      Received d env raw p d

theorem received_parse (env : Env) (raw : Bytes) (d d' : Device C) (p : Packet)
    (h : Received d env raw p d') : Packet.fromBytes env.parseMs raw = .ok p := by
  cases h with
  | hello hparse => exact hparse
  | session s hparse => exact hparse
  | pending key hparse => exact hparse

/-- Everything in `Received` is let through. -/
theorem receivePacket_of_received (env : Env) (raw : Bytes) (d d' : Device C) (p : Packet)
    (h : Received d env raw p d') : (receivePacket env raw).run d = .ok p d' := by
  cases h with
  | hello hparse htype hverify =>
      simp only [receivePacket, EStateM.run_bind, EStateM.run_get, hparse, run_ofExcept_ok,
        if_pos htype, hverify, require_true, EStateM.run_pure]
  | session s hparse htype hget hverify hadmits =>
      have hcheck := Session.checkReplay_admits s _ _ _ hadmits
      have hon := (onSession_eq_ok p.senderId
        (Session.checkReplay env.receiveMs p.sequence p.timestampMs) d _ ()).mpr
        ⟨s, _, hget, hcheck, rfl⟩
      simp only [receivePacket, EStateM.run_bind, EStateM.run_get, hparse, run_ofExcept_ok,
        if_neg htype, hget, verifySession_of_verifies s p hverify, hon, EStateM.run_pure]
  | pending key hparse htype hget hkey hverify =>
      simp only [receivePacket, EStateM.run_bind, EStateM.run_get, hparse, run_ofExcept_ok,
        if_neg htype, hget, hkey, hverify, require_true, EStateM.run_pure]

/-- A packet is let through as `Received` says, or refused with the device
    unchanged. -/
theorem receivePacket_cases (env : Env) (raw : Bytes) (d : Device C) :
    (∃ p d', Received d env raw p d') ∨ ∃ e, (receivePacket env raw).run d = .error e d := by
  cases hparse : Packet.fromBytes env.parseMs raw with
  | error e =>
      right
      simp only [receivePacket, EStateM.run_bind, EStateM.run_get, hparse, run_ofExcept_error]
      exact ⟨e, rfl⟩
  | ok p =>
      -- It parsed; the type and the tables decide which check it meets.
      by_cases htype : p.ptype = .hello
      · by_cases hverify : CryptoEngine.verifyPacket C (p.payload.take 32) p = .ok true
        · exact Or.inl ⟨p, d, .hello p hparse htype hverify⟩
        · rcases require_error _ "HELLO packet signature verification failed" hverify with ⟨e, he⟩
          right
          simp only [receivePacket, EStateM.run_bind, EStateM.run_get, hparse, run_ofExcept_ok,
            if_pos htype, he, run_ofExcept_error]
          exact ⟨e, rfl⟩
      · cases hget : d.sessions.get? p.senderId with
        | some s =>
            rcases verifySession_cases s p with ⟨hverify, hv⟩ | ⟨_, e, hv⟩
            · by_cases hadmits : s.Admits env.receiveMs p.sequence p.timestampMs
              · exact Or.inl ⟨p, _, .session p s hparse htype hget hverify hadmits⟩
              · rcases Session.checkReplay_refuses s _ _ _ hadmits with ⟨e, _, he⟩
                -- Refused by the replay check: the session is written back as it was.
                have hon : (onSession p.senderId (Session.checkReplay env.receiveMs p.sequence
                    p.timestampMs)).run d = .error e d := by
                  have he' : Session.checkReplay env.receiveMs p.sequence p.timestampMs s
                      = .error e s := he
                  simp only [EStateM.run, onSession, hget, he',
                    d.sessions.set_get?_self p.senderId s hget]
                right
                simp only [receivePacket, EStateM.run_bind, EStateM.run_get, hparse,
                  run_ofExcept_ok, if_neg htype, hget, hv, hon]
                exact ⟨e, rfl⟩
            · right
              simp only [receivePacket, EStateM.run_bind, EStateM.run_get, hparse,
                run_ofExcept_ok, if_neg htype, hget, hv, run_ofExcept_error]
              exact ⟨e, rfl⟩
        | none =>
            -- No session yet: a key from a HELLO is the only way in.
            cases hkey : d.pendingPeerKeys.get? p.senderId with
            | none =>
                right
                simp only [receivePacket, EStateM.run_bind, EStateM.run_get, hparse,
                  run_ofExcept_ok, if_neg htype, hget, hkey]
                exact ⟨_, rfl⟩
            | some key =>
                by_cases hverify : CryptoEngine.verifyPacket C key p = .ok true
                · exact Or.inl ⟨p, d, .pending p key hparse htype hget hkey hverify⟩
                · rcases require_error _ ("Packet signature verification failed for peer "
                    ++ hex p.senderId) hverify with ⟨e, he⟩
                  right
                  simp only [receivePacket, EStateM.run_bind, EStateM.run_get, hparse,
                    run_ofExcept_ok, if_neg htype, hget, hkey, he, run_ofExcept_error]
                  exact ⟨e, rfl⟩

theorem receivePacket_eq_ok (env : Env) (raw : Bytes) (d d' : Device C) (p : Packet) :
    (receivePacket env raw).run d = .ok p d' ↔ Received d env raw p d' := by
  refine ⟨fun h => ?_, receivePacket_of_received env raw d d' p⟩
  rcases receivePacket_cases env raw d with ⟨q, d'', hq⟩ | ⟨e, he⟩
  · have hrun := receivePacket_of_received env raw d d'' q hq
    rw [h, EStateM.Result.ok.injEq] at hrun
    rw [hrun.1, hrun.2]
    exact hq
  · rw [he] at h
    simp only [reduceCtorEq] at h

/-- A packet that is refused leaves the device unchanged. -/
theorem receivePacket_eq_error (env : Env) (raw : Bytes) (d d' : Device C) (e : Exn)
    (h : (receivePacket env raw).run d = .error e d') : d' = d := by
  rcases receivePacket_cases env raw d with ⟨q, d'', hq⟩ | ⟨e', he⟩
  · rw [receivePacket_of_received env raw d d'' q hq] at h
    simp only [reduceCtorEq] at h
  · rw [he, EStateM.Result.error.injEq] at h
    exact h.2.symm

end Device

end Ztlnp
