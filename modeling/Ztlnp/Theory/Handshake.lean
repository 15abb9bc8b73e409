import Ztlnp.Core.Rotation
import Ztlnp.Theory.Host

/-!
# The Messages of a Handshake

What the two kinds of handshake packets carry, when they are built, and what
completing an exchange makes of them.

A handshake reuses whatever ephemeral pair the device still holds for the
peer. It can only do so if the two tables agree, so the first thing here is
that they do, on every device that was only ever used through its methods
(`Device.aligned_of_reachable`). A HELLO then carries the public half of the
private key that the exchange will use, and two sides that exchanged HELLOs
derive their keys from one secret.

The inventories of `Theory.Handlers` say what a handler does to the endpoint.
The lemmas here add what it sends: a HELLO around the stored ephemeral key,
or a confirmation sealed under the session that was just installed.

## Main definitions

* `LifeAct`, `Host.live`: Everything an application can do to a device.
* `Device.Aligned`: The two tables of ephemeral keys agree.
* `SignedBy`, `HelloFor`, `ConfirmationFor`: What a device puts on the wire.
* `Device.ephemeralFor`: The private key that a handshake with a peer uses.
* `Env.Fits`: A packet can be built.
* `Session.Shares`: A session under the secret of two ephemeral keys.

## Theorems

* `Device.aligned_of_reachable`: The tables agree on every reachable device.
* `Device.helloPacket_cases`, `Endpoint.confirmKeys_sends`: A packet is built
  exactly when it fits, and what it carries.
* `Device.exchangedSession_shares`: The session of a completed exchange.
* `Endpoint.initiate_cases`, `Endpoint.handleHello_idle_cases`,
  `Endpoint.handleHello_helloSent_cases`, `Endpoint.handleKeyExchange_confirms`:
  The entry points of a handshake, with what they send.
-/

namespace Ztlnp

variable {C : Primitives}

/-- Everything an application can do to a device: the acts on a host, a key
    rotation, and the handshake methods that a protocol would call for it. -/
inductive LifeAct
  | act (a : Act)
  | rotateKey (nowMs : Nat) (identityPrivate : Bytes)
  | generateEphemeralKeypair (env : Env) (peerId : Bytes)
  | registerPendingPeer (peerId peerEd25519Public : Bytes)
  | completeKeyExchange (peerId peerEd25519Public peerX25519Public : Bytes) (iAmInitiator : Bool)
deriving DecidableEq

/-- One act of an application. -/
def Host.live (h : Host C) : LifeAct → Host C
  | .act a => h.step a
  | .rotateKey nowMs k => { h with device := ((Device.rotateKey nowMs k).run h.device).final }
  | .generateEphemeralKeypair env peerId =>
    { h with device := ((Device.generateEphemeralKeypair env peerId).run h.device).final }
  | .registerPendingPeer peerId key =>
    { h with device := ((Device.registerPendingPeer peerId key).run h.device).final }
  | .completeKeyExchange peerId ed x b =>
    { h with device := ((Device.completeKeyExchange peerId ed x b).run h.device).final }

namespace Device

theorem publicBytes_length (d : Device C) : d.identityPublicBytes.length = 32 := by
  rw [d.public_eq]
  exact C.ed25519Public_length _

theorem deviceId_length (d : Device C) : d.deviceId.length = 32 := by
  rw [d.deviceId_eq]
  exact C.sha256_length _

/-- The private key is the whole identity of a device. -/
theorem identity_eq (d d' : Device C) (h : d'.identityPrivate = d.identityPrivate) :
    d'.identityPublicBytes = d.identityPublicBytes ∧ d'.deviceId = d.deviceId := by
  have hpub : d'.identityPublicBytes = d.identityPublicBytes := by
    rw [d'.public_eq, d.public_eq, h]
  refine ⟨hpub, ?_⟩
  rw [d'.deviceId_eq, d.deviceId_eq, hpub]

theorem withEphemeral_identityPrivate (d : Device C) (env : Env) (peerId : Bytes) :
    (d.withEphemeral env peerId).identityPrivate = d.identityPrivate := by
  unfold withEphemeral
  by_cases h : d.ephemeralPrivate.get? peerId = none
  · rw [if_pos h]
  · rw [if_neg h]

/-- Every ephemeral private key has its public half beside it, and there are
    no others. -/
def Aligned (d : Device C) : Prop :=
  ∀ id, d.ephemeralPublic.get? id = (d.ephemeralPrivate.get? id).map C.x25519Public

theorem aligned_withEphemeral (d : Device C) (env : Env) (peerId : Bytes) (h : d.Aligned) :
    (d.withEphemeral env peerId).Aligned := by
  unfold withEphemeral
  by_cases hnone : d.ephemeralPrivate.get? peerId = none
  · rw [if_pos hnone]
    intro id
    simp only [Dict.get?_set]
    by_cases hid : id = peerId
    · rw [if_pos hid, if_pos hid, Option.map_some]
    · rw [if_neg hid, if_neg hid]
      exact h id
  · rw [if_neg hnone]
    exact h

theorem aligned_installed (d : Device C) (peerId : Bytes) (s : Session) (h : d.Aligned) :
    (d.installed peerId s).Aligned := by
  intro id
  simp only [installed, Dict.get?_pop]
  by_cases hid : id = peerId
  · rw [if_pos hid, if_pos hid, Option.map_none]
  · rw [if_neg hid, if_neg hid]
    exact h id

/-- The ephemeral key of a peer whose pair is in place. -/
theorem withEphemeral_private (d : Device C) (env : Env) (peerId : Bytes) :
    (d.withEphemeral env peerId).ephemeralPrivate.get? peerId
      = some ((d.ephemeralPrivate.get? peerId).getD env.x25519Private) := by
  unfold withEphemeral
  cases hget : d.ephemeralPrivate.get? peerId with
  | none =>
      rw [if_pos rfl, Dict.get?_set_self]
      rfl
  | some k =>
      rw [if_neg (by simp only [reduceCtorEq, not_false_eq_true]), hget]
      rfl

/-- On aligned tables a missing public half means that there is no exchange to
    complete. -/
theorem Aligned.public_ne_none (d : Device C) (h : d.Aligned) (peerId ed x : Bytes) (b : Bool)
    (s : Session) (hex : d.exchangedSession peerId ed x b = .ok s) :
    d.ephemeralPublic.get? peerId ≠ none := by
  rw [h peerId]
  cases hget : d.ephemeralPrivate.get? peerId with
  | none =>
      simp only [exchangedSession, hget, reduceCtorEq] at hex
  | some k => simp only [Option.map_some, ne_eq, reduceCtorEq, not_false_eq_true]

/-- Receiving a packet touches neither the identity nor the ephemeral
    tables. -/
theorem received_tables (d d' : Device C) (env : Env) (raw : Bytes) (p : Packet)
    (hrec : Received d env raw p d') :
    d'.identityPrivate = d.identityPrivate ∧ d'.ephemeralPrivate = d.ephemeralPrivate ∧
      d'.ephemeralPublic = d.ephemeralPublic := by
  cases hrec with
  | hello => exact ⟨rfl, rfl, rfl⟩
  | session => exact ⟨rfl, rfl, rfl⟩
  | pending => exact ⟨rfl, rfl, rfl⟩

/-- Receiving a packet changes no key of a session. -/
theorem received_keys (d d' : Device C) (env : Env) (raw : Bytes) (p : Packet)
    (hrec : Received d env raw p d') (id : Bytes) (s : Session)
    (hget : d.sessions.get? id = some s) :
    ∃ s', d'.sessions.get? id = some s' ∧ s'.sessionKey = s.sessionKey ∧
      s'.macKey = s.macKey := by
  cases hrec with
  | hello => exact ⟨s, hget, rfl, rfl⟩
  | pending => exact ⟨s, hget, rfl, rfl⟩
  | session t _ _ ht =>
      by_cases hid : id = p.senderId
      · rw [hid, ht, Option.some.injEq] at hget
        subst hget
        rw [hid]
        exact ⟨t.recorded p.sequence, Dict.get?_set_self _ _ _, rfl, rfl⟩
      · refine ⟨s, ?_, rfl, rfl⟩
        rw [Dict.get?_set_ne _ _ hid]
        exact hget

theorem received_aligned (d d' : Device C) (env : Env) (raw : Bytes) (p : Packet)
    (hrec : Received d env raw p d') (h : d.Aligned) : d'.Aligned := by
  rcases received_tables d d' env raw p hrec with ⟨_, hpriv, hpub⟩
  intro id
  rw [hpub, hpriv]
  exact h id

end Device

namespace Endpoint

theorem helloOutcome_aligned (env : Env) (p : Packet) (e : Endpoint C)
    (r : EStateM.Result Exn (Endpoint C) (Option Bytes)) (hout : HelloOutcome env p e r)
    (h : e.device.Aligned) : r.final.device.Aligned := by
  cases hout with
  | short => exact h
  | answered => exact e.device.aligned_withEphemeral env p.senderId h
  | unanswered x d _ _ hdev =>
      rcases hdev with hd | hd
      · rw [hd]
        exact e.device.aligned_withEphemeral env p.senderId h
      · rw [hd]
        exact e.device.aligned_withEphemeral env p.senderId h
  | refused => exact h
  | halfway s x _ _ hex hpub => exact absurd hpub (h.public_ne_none _ _ _ _ _ s hex)
  | exchanged s => exact e.device.aligned_installed p.senderId s h
  | unconfirmed s => exact e.device.aligned_installed p.senderId s h
  | unexpected => exact h

theorem keyExchangeOutcome_aligned (env : Env) (p : Packet) (e : Endpoint C)
    (r : EStateM.Result Exn (Endpoint C) (Option Bytes)) (hout : KeyExchangeOutcome env p e r)
    (h : e.device.Aligned) : r.final.device.Aligned := by
  cases hout with
  | refused => exact h
  | halfway peerId s x _ hcomp hpub =>
      rcases hcomp with ⟨ed, k, _, _, _, hex⟩
      exact absurd hpub (h.public_ne_none _ _ _ _ _ s hex)
  | stale peerId s => exact e.device.aligned_installed peerId s h
  | unconfirmed peerId s => exact e.device.aligned_installed peerId (s.recorded p.sequence) h
  | established peerId s _ _ _ _ _ _ hfinal =>
      rw [hfinal]
      exact e.device.aligned_installed peerId (s.recorded p.sequence) h
  | unanswered => exact h
  | answered => exact h
  | unexpected => exact h

theorem outcome_aligned (env : Env) (p : Packet) (e : Endpoint C)
    (r : EStateM.Result Exn (Endpoint C) (Option Bytes)) (hout : Outcome env p e r)
    (h : e.device.Aligned) : r.final.device.Aligned := by
  cases hout with
  | hello _ _ hhello => exact helloOutcome_aligned env p e r hhello h
  | keyExchange _ _ hke => exact keyExchangeOutcome_aligned env p e r hke h
  | accepted => exact h
  | rejected => exact h
  | bye =>
      simp only [EStateM.Result.final, afterBye]
      by_cases hest : e.proto.state = .established
      · rw [if_pos hest]
        cases e.proto.peerId with
        | none => exact h
        | some peerId => exact h
      · rw [if_neg hest]
        exact h
  | error => exact h

end Endpoint

/-- No act of an application takes the ephemeral tables apart. -/
theorem Host.aligned_live (h : Host C) (a : LifeAct) (halign : h.device.Aligned) :
    (h.live a).device.Aligned := by
  -- The key pair that is stored always comes from one call, so both tables move together.
  cases a with
  | act a =>
      have hmoved := step_moved h a
      simp only [Host.live]
      generalize h.step a = h' at hmoved
      cases hmoved with
      | stayed => exact halign
      | drew => exact halign
      | keyed env peerId => exact h.device.aligned_withEphemeral _ _ halign
      | initiated => exact h.device.aligned_withEphemeral _ _ halign
      | observed a env raw p d hrec => exact Device.received_aligned _ _ _ _ _ hrec halign
      | removed => exact halign
      | handled i env raw p d r _ hrec _ hout =>
          exact Endpoint.outcome_aligned env p _ r hout
            (Device.received_aligned _ _ _ _ _ hrec halign)
  | rotateKey nowMs k =>
      rcases Device.rotateKey_final nowMs k h.device with hf | hf
      · simp only [Host.live, hf]
        exact halign
      · simp only [Host.live, hf]
        exact halign
  | generateEphemeralKeypair env peerId =>
      simp only [Host.live, Device.generateEphemeralKeypair_final]
      exact h.device.aligned_withEphemeral _ _ halign
  | registerPendingPeer => exact halign
  | completeKeyExchange peerId ed x b =>
      simp only [Host.live]
      rcases Device.completeKeyExchange_cases peerId ed x b h.device with ⟨e, _, hrun⟩ |
        ⟨s, e, hex, hpub, _⟩ | ⟨s, _, _, hrun⟩
      · rw [hrun]
        exact halign
      · -- An aligned device has the public key of every private key it holds.
        exact absurd hpub (halign.public_ne_none _ _ _ _ _ s hex)
      · rw [hrun]
        exact h.device.aligned_installed peerId s halign

/-- The ephemeral tables agree on every device that was only used through its
    methods. -/
theorem Device.aligned_of_reachable (C : Primitives) (identityPrivate : Bytes)
    (acts : List LifeAct) :
    (acts.foldl Host.live (Host.create C identityPrivate)).device.Aligned := by
  refine along_invariant (fun h : Host C => h.device.Aligned)
    (fun h a halign _ => h.aligned_live a halign) _ acts ?_ (along_true _ acts)
  intro id
  rfl

/-- The bytes are a packet that a device has signed, whenever they are
    parsed. -/
structure SignedBy (d : Device C) (raw : Bytes) (p : Packet) : Prop where
  parses : ∀ nowMs, Packet.fromBytes nowMs raw = .ok p
  senderId : p.senderId = d.deviceId
  packable : p.Packable
  signature : p.signature = C.ed25519Sign d.identityPrivate (p.layout ++ p.payload)

/-- A HELLO of a device, around the public half of an ephemeral key. -/
structure HelloFor (d : Device C) (k raw : Bytes) (p : Packet) : Prop extends
    SignedBy d raw p where
  ptype : p.ptype = .hello
  payload : p.payload = d.identityPublicBytes ++ C.x25519Public k

/-- A confirmation of a device, sealed under a session key. -/
structure ConfirmationFor (d : Device C) (env : Env) (sessionKey raw : Bytes) (p : Packet) :
    Prop extends SignedBy d raw p where
  ptype : p.ptype = .keyExchange
  flags : p.flags = flagEncrypted
  sequence : p.sequence = 0
  nonce : p.nonce = env.nonce
  timestampMs : p.timestampMs = env.buildMs
  payload : p.payload = C.aesGcmEncrypt sessionKey env.nonce keyExchangeOk

theorem SignedBy.verifies {d : Device C} {raw : Bytes} {p : Packet} (h : SignedBy d raw p) :
    CryptoEngine.verifyPacket C d.identityPublicBytes p = .ok true := by
  rw [CryptoEngine.verifyPacket_eq C _ _ d.publicBytes_length h.packable, h.signature, d.public_eq,
    C.ed25519Verify_sign]

/-- Whose packet it is depends on the identity alone. -/
theorem SignedBy.of_identity {d d' : Device C} {raw : Bytes} {p : Packet}
    (h : SignedBy d' raw p) (hid : d'.identityPrivate = d.identityPrivate) :
    SignedBy d raw p := by
  refine ⟨h.parses, ?_, h.packable, ?_⟩
  · rw [h.senderId, (d.identity_eq d' hid).2]
  · rw [h.signature, hid]

theorem HelloFor.of_identity {d d' : Device C} {k raw : Bytes} {p : Packet}
    (h : HelloFor d' k raw p) (hid : d'.identityPrivate = d.identityPrivate) :
    HelloFor d k raw p := by
  refine ⟨h.toSignedBy.of_identity hid, h.ptype, ?_⟩
  rw [h.payload, (d.identity_eq d' hid).1]

theorem ConfirmationFor.of_identity {d d' : Device C} {env : Env} {sessionKey raw : Bytes}
    {p : Packet} (h : ConfirmationFor d' env sessionKey raw p)
    (hid : d'.identityPrivate = d.identityPrivate) : ConfirmationFor d env sessionKey raw p :=
  ⟨h.toSignedBy.of_identity hid, h.ptype, h.flags, h.sequence, h.nonce, h.timestampMs, h.payload⟩

/-- A packet that was signed and serialised can be read by anyone. -/
theorem signedBy_of_signPacket (d : Device C) (q : Packet) (sig : Bytes)
    (hsig : CryptoEngine.signPacket C d.identityPrivate q = .ok sig)
    (hsender : q.senderId = d.deviceId) (htime : q.timestampMs ≠ 0) :
    ∃ raw, ({ q with signature := sig } : Packet).toBytes = .ok raw ∧
      SignedBy d raw { q with signature := sig } := by
  rcases (CryptoEngine.signPacket_eq_ok C _ q sig).mp hsig with ⟨hpack, hs⟩
  -- The signature is outside of what it covers, and has its length.
  have hraw := (Packet.toBytes_eq_ok { q with signature := sig } _).mpr ⟨hpack, rfl⟩
  have hlen : sig.length = sigSize := by
    rw [hs]
    exact C.ed25519Sign_length _ _
  refine ⟨_, hraw, ⟨fun nowMs => ?_, hsender, hpack, hs⟩⟩
  exact Packet.fromBytes_toBytes _ _ nowMs hraw hlen htime

/-- A packet for a peer can be built: the identifier is one, and the clock
    fits the header. -/
def Env.Fits (env : Env) (peerId : Bytes) : Prop :=
  peerId.length = 32 ∧ env.buildMs < 256 ^ 8

instance (env : Env) (peerId : Bytes) : Decidable (env.Fits peerId) :=
  inferInstanceAs (Decidable (_ ∧ _))

namespace PacketFields

/-- The constructor accepts exactly the fields of the right lengths. -/
theorem postInit_cases (nowMs : Nat) (f : PacketFields) :
    ((f.senderId.length = 32 ∧ f.recipientId.length = 32 ∧ f.nonce.length = 12) ∧
      ∃ p, f.postInit nowMs = .ok p) ∨
    (¬ (f.senderId.length = 32 ∧ f.recipientId.length = 32 ∧ f.nonce.length = 12) ∧
      ∃ x, f.postInit nowMs = .error x) := by
  unfold postInit
  by_cases hs : f.senderId.length = 32
  · rw [dif_pos hs]
    by_cases hr : f.recipientId.length = 32
    · rw [dif_pos hr]
      by_cases hn : f.nonce.length = 12
      · rw [dif_pos hn]
        exact Or.inl ⟨⟨hs, hr, hn⟩, _, rfl⟩
      · rw [dif_neg hn]
        exact Or.inr ⟨fun h => hn h.2.2, _, rfl⟩
    · rw [dif_neg hr]
      exact Or.inr ⟨fun h => hr h.2.1, _, rfl⟩
  · rw [dif_neg hs]
    exact Or.inr ⟨fun h => hs h.1, _, rfl⟩

end PacketFields

namespace Device

/-- The body that the HELLO and the signing builders share: construct, then
    sign. -/
def signFields (d : Device C) (env : Env) (f : PacketFields) : Except Exn Packet := do
  let packet ← f.postInit env.buildMs
  let signature ← CryptoEngine.signPacket C d.identityPrivate packet
  return { packet with signature := signature }

/-- A packet of the device is constructed and signed exactly when it fits. -/
theorem signFields_cases (d : Device C) (env : Env) (f : PacketFields)
    (hsender : f.senderId = d.deviceId) (hnonce : f.nonce.length = 12)
    (htime : f.timestampMs = 0)
    (hpack : f.flags < 256 ^ 2 ∧ f.sequence < 256 ^ 4 ∧ f.payload.length < 256 ^ 4) :
    (env.Fits f.recipientId ∧ ∃ p raw, d.signFields env f = .ok p ∧ p.toBytes = .ok raw ∧
      SignedBy d raw p ∧ p.ptype = f.ptype ∧ p.flags = f.flags ∧ p.sequence = f.sequence ∧
        p.nonce = f.nonce ∧ p.timestampMs = env.buildMs ∧ p.payload = f.payload) ∨
    (¬ env.Fits f.recipientId ∧ ∃ x, d.signFields env f = .error x) := by
  have hid : f.senderId.length = 32 := by
    rw [hsender]
    exact d.deviceId_length
  rcases f.postInit_cases env.buildMs with ⟨⟨_, hr, _⟩, q, hq⟩ | ⟨hbad, x, hx⟩
  · -- Constructed: only the clock can still be too large for the header.
    have hf := PacketFields.postInit_eq_ok _ _ _ hq
    rw [if_pos htime] at hf
    by_cases hms : env.buildMs < 256 ^ 8
    · left
      have hpackable : q.Packable := by
        simp only [Packet.Packable, hf]
        exact ⟨hpack.1, hms, hpack.2.1, hpack.2.2⟩
      have hsig := (CryptoEngine.signPacket_eq_ok C d.identityPrivate q _).mpr ⟨hpackable, rfl⟩
      rcases signedBy_of_signPacket d q _ hsig (by simp only [hf, hsender])
        (by simp only [hf]; exact env.buildMs_ne) with ⟨raw, hraw, hsigned⟩
      refine ⟨⟨hr, hms⟩, _, raw, ?_, hraw, hsigned, ?_⟩
      · simp only [signFields, hq, hsig, bind, Except.bind, pure, Except.pure]
      · simp only [hf, and_self]
    · right
      refine ⟨fun hfit => hms hfit.2, ?_⟩
      -- Signing packs the header, and that raises.
      cases hsig : CryptoEngine.signPacket C d.identityPrivate q with
      | ok sig =>
          have hp := ((CryptoEngine.signPacket_eq_ok C _ q sig).mp hsig).1
          simp only [Packet.Packable, hf] at hp
          exact absurd hp.2.1 hms
      | error x => exact ⟨x, by simp only [signFields, hq, hsig, bind, Except.bind]⟩
  · right
    refine ⟨fun hfit => hbad ⟨hid, hfit.1, hnonce⟩, x, ?_⟩
    simp only [signFields, hx, bind, Except.bind]

/-- A HELLO is built exactly when it fits. -/
theorem helloPacket_cases (d : Device C) (env : Env) (recipientId k : Bytes) :
    (env.Fits recipientId ∧ ∃ p raw,
      d.helloPacket env recipientId (C.x25519Public k) = .ok p ∧ p.toBytes = .ok raw ∧
        HelloFor d k raw p) ∨
    (¬ env.Fits recipientId ∧ ∃ x,
      d.helloPacket env recipientId (C.x25519Public k) = .error x) := by
  have hlen : (d.identityPublicBytes ++ C.x25519Public k).length < 256 ^ 4 := by
    rw [List.length_append, d.publicBytes_length, C.x25519Public_length]
    omega
  rcases d.signFields_cases env
    { ptype := .hello, senderId := d.deviceId, recipientId := recipientId, flags := flagNone,
      sequence := 0, payload := d.identityPublicBytes ++ C.x25519Public k }
    rfl (List.length_replicate ..) rfl
    ⟨(by decide : flagNone < 256 ^ 2), (by decide : 0 < 256 ^ 4), hlen⟩ with
    ⟨hfit, p, raw, hp, hraw, hsigned, htype, _, _, _, _, hpay⟩ | ⟨hfit, x, hx⟩
  · exact Or.inl ⟨hfit, p, raw, hp, hraw, ⟨hsigned, htype, hpay⟩⟩
  · exact Or.inr ⟨hfit, x, hx⟩

/-- The private key that a handshake with a peer uses: the one that is left
    over, or the one that is drawn. -/
def ephemeralFor (d : Device C) (env : Env) (peerId : Bytes) : Bytes :=
  (d.ephemeralPrivate.get? peerId).getD env.x25519Private

/-- On aligned tables there is always an ephemeral pair to return. -/
theorem generateEphemeralKeypair_aligned (env : Env) (peerId : Bytes) (d : Device C)
    (h : d.Aligned) :
    (generateEphemeralKeypair env peerId).run d
      = .ok (C.x25519Public (d.ephemeralFor env peerId)) (d.withEphemeral env peerId) := by
  have hpub := aligned_withEphemeral d env peerId h peerId
  rw [withEphemeral_private, Option.map_some] at hpub
  simp only [generateEphemeralKeypair, EStateM.run_bind, EStateM.run_modify, EStateM.run_get,
    hpub]
  rfl

/-- A HELLO for a peer is built exactly when it fits. The ephemeral pair is in
    place in any case. -/
theorem buildHelloPacket_cases (env : Env) (peerId : Bytes) (d : Device C) (h : d.Aligned) :
    (env.Fits peerId ∧ ∃ p raw, p.toBytes = .ok raw ∧
      HelloFor d (d.ephemeralFor env peerId) raw p ∧
      (buildHelloPacket env (some peerId)).run d = .ok p (d.withEphemeral env peerId)) ∨
    (¬ env.Fits peerId ∧ ∃ x,
      (buildHelloPacket env (some peerId)).run d = .error x (d.withEphemeral env peerId)) := by
  simp only [buildHelloPacket, EStateM.run_bind, Option.getD_some,
    generateEphemeralKeypair_aligned env peerId d h, EStateM.run_get]
  -- Drawing a pair leaves the identity alone, so the HELLO is the one of the device before.
  have hself : (d.withEphemeral env peerId).helloPacket env peerId
      (C.x25519Public (d.ephemeralFor env peerId))
      = d.helloPacket env peerId (C.x25519Public (d.ephemeralFor env peerId)) := by
    unfold withEphemeral
    by_cases hnone : d.ephemeralPrivate.get? peerId = none
    · rw [if_pos hnone]
      rfl
    · rw [if_neg hnone]
  rw [hself]
  rcases d.helloPacket_cases env peerId (d.ephemeralFor env peerId) with
    ⟨hfit, p, raw, hp, hraw, hhello⟩ | ⟨hfit, x, hx⟩
  · rw [hp]
    exact Or.inl ⟨hfit, p, raw, hraw, hhello, rfl⟩
  · rw [hx]
    exact Or.inr ⟨hfit, x, rfl⟩

end Device

namespace Endpoint

/-- Initiating a handshake sends a HELLO exactly when the machine is idle and
    the packet fits. -/
theorem initiate_cases (env : Env) (peerId : Bytes) (e : Endpoint C) (h : e.device.Aligned)
    (hidle : e.proto.state = .idle) :
    (env.Fits peerId ∧ ∃ p raw, HelloFor e.device (e.device.ephemeralFor env peerId) raw p ∧
      (initiate env peerId).run e = .ok raw
        ⟨{ e.proto with peerId := some peerId, iAmInitiator := true, state := .helloSent },
          e.device.withEphemeral env peerId⟩) ∨
    (¬ env.Fits peerId ∧ ∃ x, (initiate env peerId).run e = .error x
        ⟨{ e.proto with peerId := some peerId, iAmInitiator := true },
          e.device.withEphemeral env peerId⟩) := by
  rcases e with ⟨⟨st, id, ed, x, ini⟩, d⟩
  subst hidle
  simp only [initiate, EStateM.run_bind, EStateM.run_get, ne_eq, not_true_eq_false, if_false,
    run_modifyProto, run_onDevice]
  rcases Device.buildHelloPacket_cases env peerId d h with
    ⟨hfit, p, raw, hraw, hhello, hrun⟩ | ⟨hfit, y, hrun⟩
  · left
    simp only [hrun, hraw]
    exact ⟨hfit, p, raw, hhello, rfl⟩
  · right
    simp only [hrun]
    exact ⟨hfit, y, rfl⟩

theorem initiate_busy (env : Env) (peerId : Bytes) (e : Endpoint C)
    (hbusy : e.proto.state ≠ .idle) : ∃ x, (initiate env peerId).run e = .error x e := by
  simp only [initiate, EStateM.run_bind, EStateM.run_get, if_pos hbusy]
  exact ⟨_, rfl⟩

/-- An idle machine answers a HELLO exactly when its own fits. -/
theorem handleHello_idle_cases (env : Env) (p : Packet) (e : Endpoint C) (h : e.device.Aligned)
    (hlen : 64 ≤ p.payload.length) (hidle : e.proto.state = .idle) :
    (env.Fits p.senderId ∧ ∃ q raw,
      HelloFor e.device (e.device.ephemeralFor env p.senderId) raw q ∧
      (handleHello env p).run e = .ok (some raw)
        ⟨{ e.proto.metHello p with iAmInitiator := false, state := .helloReceived },
          (e.device.withEphemeral env p.senderId).withPending p.senderId
            (p.payload.take 32)⟩) ∨
    (¬ env.Fits p.senderId ∧ ∃ x, (handleHello env p).run e = .error x
        ⟨{ e.proto.metHello p with iAmInitiator := false },
          (e.device.withEphemeral env p.senderId).withPending p.senderId
            (p.payload.take 32)⟩) := by
  rcases e with ⟨⟨st, id, ed, x, ini⟩, d⟩
  subst hidle
  simp only [handleHello, if_neg (not_lt.mpr hlen), EStateM.run_bind, run_modifyProto,
    EStateM.run_get, Protocol.metHello, run_onDevice,
    Device.generateEphemeralKeypair_aligned env p.senderId d h, Device.registerPendingPeer,
    EStateM.run_modify]
  -- The pair is there now, and the HELLO is built around it.
  have halign : ((d.withEphemeral env p.senderId).withPending p.senderId
      (p.payload.take 32)).Aligned := d.aligned_withEphemeral env p.senderId h
  rcases Device.buildHelloPacket_cases env p.senderId _ halign with
    ⟨hfit, q, raw, hraw, hhello, hrun⟩ | ⟨hfit, y, hrun⟩
  · left
    rw [Device.withEphemeral_again] at hrun
    simp only [hrun, hraw]
    refine ⟨hfit, q, raw, ?_, rfl⟩
    have hkey : ((d.withEphemeral env p.senderId).withPending p.senderId
        (p.payload.take 32)).ephemeralFor env p.senderId = d.ephemeralFor env p.senderId := by
      simp only [Device.ephemeralFor, Device.withPending, Device.withEphemeral_private,
        Option.getD_some]
    rw [hkey] at hhello
    exact hhello.of_identity (d.withEphemeral_identityPrivate env p.senderId)
  · right
    rw [Device.withEphemeral_again] at hrun
    simp only [hrun]
    exact ⟨hfit, y, rfl⟩

/-- A session that has sent nothing builds its confirmation exactly when it
    fits. The number is drawn in any case. -/
theorem confirmKeys_sends (env : Env) (peerId : Bytes) (d : Device C) (s : Session)
    (hget : d.sessions.get? peerId = some s) (hseq : s.localSequence = 0) :
    (env.Fits peerId ∧ ∃ p raw, ConfirmationFor d env s.sessionKey raw p ∧
      (confirmKeys env peerId).run d = .ok raw (d.advanced peerId s)) ∨
    (¬ env.Fits peerId ∧ ∃ x,
      (confirmKeys env peerId).run d = .error x (d.advanced peerId s)) := by
  have hnext : (Device.getSession peerId).run (d.advanced peerId s)
      = .ok { s with localSequence := s.localSequence + 1 } (d.advanced peerId s) := by
    rw [Device.getSession_eq_ok]
    exact ⟨Dict.get?_set_self _ _ _, rfl⟩
  simp only [confirmKeys, buildKeyExchangePacket, EStateM.run_bind,
    Device.onSession_nextSequence peerId d s hget, hnext, EStateM.run_get]
  have hlen : (C.aesGcmEncrypt s.sessionKey env.nonce keyExchangeOk).length < 256 ^ 4 := by
    rw [C.aesGcmEncrypt_length]
    decide
  have hsmall : s.localSequence < 256 ^ 4 := by
    rw [hseq]
    decide
  -- Sealing with the signature of the device is constructing and signing.
  rcases (d.advanced peerId s).signFields_cases env
    { ptype := .keyExchange, senderId := d.deviceId, recipientId := peerId,
      payload := C.aesGcmEncrypt s.sessionKey env.nonce keyExchangeOk, flags := flagEncrypted,
      sequence := s.localSequence, nonce := env.nonce }
    rfl env.nonce_length rfl
    ⟨(by decide : flagEncrypted < 256 ^ 2), hsmall, hlen⟩ with
    ⟨hfit, p, raw, hp, hraw, hsigned, htype, hflags, hnum, hnonce, htime, hpay⟩ | ⟨hfit, x, hx⟩
  · left
    have hseal : (d.advanced peerId s).sealPacket env .keyExchange flagEncrypted peerId
        keyExchangeOk { s with localSequence := s.localSequence + 1 } s.localSequence
        Device.signed = .ok p := hp
    simp only [hseal, run_ofExcept_ok, hraw]
    refine ⟨hfit, p, raw, ⟨hsigned.of_identity rfl, htype, hflags, ?_, hnonce, htime, hpay⟩, rfl⟩
    rw [hnum, hseq]
  · right
    have hseal : (d.advanced peerId s).sealPacket env .keyExchange flagEncrypted peerId
        keyExchangeOk { s with localSequence := s.localSequence + 1 } s.localSequence
        Device.signed = .error x := hx
    simp only [hseal]
    exact ⟨hfit, x, rfl⟩

end Endpoint

/-- The keys of a session are derived from the secret of two ephemeral keys,
    for an initiator and a responder. -/
def Session.Shares (C : Primitives) (s : Session) (k k' initiatorId responderId : Bytes) :
    Prop :=
  ∃ secret, C.x25519 k (C.x25519Public k') = some secret ∧
    s.sessionKey = CryptoEngine.deriveSessionKey C secret initiatorId responderId ∧
    s.macKey = CryptoEngine.deriveMacKey C secret initiatorId responderId

theorem Session.Shares.symm {s : Session} {k k' i r : Bytes} (h : s.Shares C k k' i r) :
    s.Shares C k' k i r := by
  rcases h with ⟨secret, hx, hkeys⟩
  refine ⟨secret, ?_, hkeys⟩
  rw [C.x25519_comm, hx]

/-- One secret and one order of roles make one pair of keys. -/
theorem Session.Shares.keys_eq {s t : Session} {k k' i r : Bytes} (hs : s.Shares C k k' i r)
    (ht : t.Shares C k k' i r) : s.sessionKey = t.sessionKey ∧ s.macKey = t.macKey := by
  rcases hs with ⟨a, ha, hsk, hsm⟩
  rcases ht with ⟨b, hb, htk, htm⟩
  rw [ha, Option.some.injEq] at hb
  rw [hsk, hsm, htk, htm, hb]
  exact ⟨rfl, rfl⟩

/-- An exchange around the public half of another ephemeral key succeeds, and
    its session is under the secret of the two. -/
theorem Device.exchangedSession_shares (d : Device C) (peerId ed k k' : Bytes) (b : Bool)
    (hk : d.ephemeralPrivate.get? peerId = some k) (hid : peerId.length = 32)
    (hed : ed.length = 32) :
    ∃ s, d.exchangedSession peerId ed (C.x25519Public k') b = .ok s ∧
      s.Shares C k k' (if b then d.deviceId else peerId) (if b then peerId else d.deviceId) := by
  rcases Option.isSome_iff_exists.mp (C.x25519_isSome k k') with ⟨secret, hsecret⟩
  have hx : CryptoEngine.x25519Exchange C k (C.x25519Public k') = .ok secret := by
    simp only [CryptoEngine.x25519Exchange, CryptoEngine.importX25519Public,
      if_pos (C.x25519Public_length k'), bind, Except.bind, hsecret]
  have hsk : (CryptoEngine.deriveSessionKey C secret (if b then d.deviceId else peerId)
      (if b then peerId else d.deviceId)).length = 32 := C.hkdf_length _ _ _ (by decide)
  have hmk : (CryptoEngine.deriveMacKey C secret (if b then d.deviceId else peerId)
      (if b then peerId else d.deviceId)).length = 64 := C.hkdf_length _ _ _ (by decide)
  simp only [exchangedSession, hk, hx, bind, Except.bind, Session.postInit, dif_pos hid,
    dif_pos hed, dif_pos hsk, dif_pos hmk, Except.ok.injEq, exists_eq_left']
  exact ⟨secret, hsecret, rfl, rfl⟩

/-- A session from an exchange with another device is under the secret of the
    two ephemeral keys. -/
theorem Device.exchangedSession_inv (d o : Device C) (k' : Bytes) (b : Bool) (s : Session)
    (h : d.exchangedSession o.deviceId o.identityPublicBytes (C.x25519Public k') b = .ok s) :
    ∃ k, d.ephemeralPrivate.get? o.deviceId = some k ∧
      s.Shares C k k' (if b then d.deviceId else o.deviceId)
        (if b then o.deviceId else d.deviceId) := by
  cases hk : d.ephemeralPrivate.get? o.deviceId with
  | none => simp only [exchangedSession, hk, reduceCtorEq] at h
  | some k =>
      rcases d.exchangedSession_shares o.deviceId o.identityPublicBytes k k' b hk
        o.deviceId_length o.publicBytes_length with ⟨t, ht, hshares⟩
      rw [h, Except.ok.injEq] at ht
      rw [ht]
      exact ⟨k, rfl, hshares⟩

namespace Endpoint

/-- The initiator's path of a HELLO: its exchange is refused, or it has a
    session and sends a confirmation exactly when that fits. -/
theorem handleHello_helloSent_cases (env : Env) (p : Packet) (e : Endpoint C)
    (h : e.device.Aligned) (hlen : 64 ≤ p.payload.length) (hsent : e.proto.state = .helloSent) :
    (∃ x, e.device.exchangedSession p.senderId (p.payload.take 32) (field p.payload 32 32) true
        = .error x ∧
      (handleHello env p).run e = .error x { e with proto := e.proto.metHello p }) ∨
    ∃ s, e.device.exchangedSession p.senderId (p.payload.take 32) (field p.payload 32 32) true
        = .ok s ∧
      ((env.Fits p.senderId ∧ ∃ q raw, ConfirmationFor e.device env s.sessionKey raw q ∧
        (handleHello env p).run e = .ok (some raw)
          ⟨{ e.proto.metHello p with state := .keyExchangeSent },
            (e.device.installed p.senderId s).advanced p.senderId s⟩) ∨
      (¬ env.Fits p.senderId ∧ ∃ x, (handleHello env p).run e = .error x
          ⟨e.proto.metHello p, (e.device.installed p.senderId s).advanced p.senderId s⟩)) := by
  -- The state is HELLO_SENT, so the HELLO answers our own and the keys are complete.
  rcases e with ⟨⟨st, id, ed, x, ini⟩, d⟩
  subst hsent
  simp only [handleHello, if_neg (not_lt.mpr hlen), EStateM.run_bind, run_modifyProto,
    EStateM.run_get, Protocol.metHello, run_onDevice]
  rcases Device.completeKeyExchange_cases p.senderId (p.payload.take 32)
    (field p.payload 32 32) true d with ⟨y, hex, hrun⟩ | ⟨s, y, hex, hpub, _⟩ |
    ⟨s, hex, _, hrun⟩
  · left
    rw [hrun]
    exact ⟨y, hex, rfl⟩
  · exact absurd hpub (h.public_ne_none _ _ _ _ _ s hex)
  · right
    rw [hrun]
    refine ⟨s, hex, ?_⟩
    have hfresh := (Device.exchangedSession_eq_ok _ _ _ _ _ _ hex).2.2.1
    rcases confirmKeys_sends env p.senderId (d.installed p.senderId s) s
      (installed_get?_self d p.senderId s) hfresh with ⟨hfit, q, raw, hq, hconf⟩ | ⟨hfit, y, hconf⟩
    · left
      simp only [hconf]
      -- Installed and drawn from, the session stays although the confirmation could not be built.
      exact ⟨hfit, q, raw, hq.of_identity rfl, rfl⟩
    · right
      simp only [hconf]
      exact ⟨hfit, y, rfl⟩

/-- A responder that accepts a confirmation is established, and sends its own
    exactly when that fits. -/
theorem handleKeyExchange_confirms (env : Env) (p : Packet) (e : Endpoint C) (peerId : Bytes)
    (s : Session) (h : e.device.Aligned) (hstate : e.proto.state = .helloReceived)
    (hcomp : e.Completes peerId s) (hadmits : s.Admits env.confirmMs p.sequence p.timestampMs)
    (hplain : (e.device.installed peerId (s.recorded p.sequence)).Decrypts p keyExchangeOk) :
    (env.Fits peerId ∧ ∃ q raw, ConfirmationFor e.device env s.sessionKey raw q ∧
      (handleKeyExchange env p).run e = .ok (some raw)
        ⟨{ e.proto with state := .established },
          (e.device.installed peerId (s.recorded p.sequence)).advanced peerId
            (s.recorded p.sequence)⟩) ∨
    (¬ env.Fits peerId ∧ ∃ x, (handleKeyExchange env p).run e = .error x
        ⟨{ e.proto with state := .established },
          (e.device.installed peerId (s.recorded p.sequence)).advanced peerId
            (s.recorded p.sequence)⟩) := by
  rcases hcomp with ⟨ed, x, hp, he, hx, hex⟩
  have hrun : completeRemembered.run e
      = .ok peerId { e with device := e.device.installed peerId s } := by
    simp only [completeRemembered, EStateM.run_bind, EStateM.run_get, hp, he, hx, run_onDevice]
    rcases Device.completeKeyExchange_cases peerId ed x false e.device with ⟨y, hno, _⟩ |
      ⟨t, y, hyes, hpub, _⟩ | ⟨t, hyes, _, hrun⟩
    · rw [hex] at hno
      simp only [reduceCtorEq] at hno
    · exact absurd hpub (h.public_ne_none _ _ _ _ _ t hyes)
    · rw [hex, Except.ok.injEq] at hyes
      rw [hrun, hyes]
      rfl
  have hfresh := (Device.exchangedSession_eq_ok _ _ _ _ _ _ hex).2.2.1
  rw [handleKeyExchange, EStateM.run_bind, EStateM.run_get]
  simp only [hstate]
  rw [EStateM.run_bind, hrun]
  simp only []
  rw [EStateM.run_bind, run_onDevice]
  -- The two checks pass, so the handler comes to its answer.
  rcases checkReplay_installed env p e.device peerId s with ⟨_, hcheck⟩ | ⟨hno, _⟩
  · simp only [hcheck]
    rcases confirmation_cases p (fun _ => do
        modifyProto (fun pr => { pr with state := .established })
        return some (← onDevice (confirmKeys env peerId)))
      { e with device := e.device.installed peerId (s.recorded p.sequence) } with
      ⟨_, hgo⟩ | ⟨hno, _⟩
    · rw [hgo]
      simp only [EStateM.run_bind, run_modifyProto, run_onDevice]
      rcases confirmKeys_sends env peerId (e.device.installed peerId (s.recorded p.sequence))
        (s.recorded p.sequence) (installed_get?_self _ _ _) hfresh with
        ⟨hfit, q, raw, hq, hconf⟩ | ⟨hfit, y, hconf⟩
      · left
        rw [hconf]
        exact ⟨hfit, q, raw, hq.of_identity rfl, rfl⟩
      · right
        rw [hconf]
        exact ⟨hfit, y, rfl⟩
    · exact absurd hplain hno
  · exact absurd hadmits hno

end Endpoint

section Reception

variable {d r r' : Device C} {env env' : Env} {k sessionKey raw : Bytes} {p q : Packet}

/-- Bytes that a device signed parse to one packet only. -/
theorem SignedBy.received_eq (h : SignedBy d raw p) (hrec : Device.Received r env raw q r') :
    q = p := by
  have hparse := Device.received_parse env raw r r' q hrec
  rw [h.parses, Except.ok.injEq] at hparse
  exact hparse.symm

theorem HelloFor.take_payload (h : HelloFor d k raw p) :
    p.payload.take 32 = d.identityPublicBytes := by
  rw [h.payload, ← d.publicBytes_length]
  exact List.take_left

theorem HelloFor.field_payload (h : HelloFor d k raw p) :
    field p.payload 32 32 = C.x25519Public k := by
  have hlen := d.publicBytes_length
  rw [h.payload, field_append_right _ _ _ _ hlen.le, hlen, Nat.sub_self, field, List.drop_zero]
  exact List.take_of_length_le (C.x25519Public_length k).le

theorem HelloFor.payload_length (h : HelloFor d k raw p) : 64 ≤ p.payload.length := by
  rw [h.payload, List.length_append, d.publicBytes_length, C.x25519Public_length]

/-- Everyone receives a HELLO, and is not changed by it. -/
theorem HelloFor.received (h : HelloFor d k raw p) (r : Device C) (env : Env) :
    Device.Received r env raw p r := by
  refine .hello p (h.parses _) h.ptype ?_
  rw [h.take_payload]
  exact h.verifies

/-- A HELLO goes straight to its handler. -/
theorem HelloFor.processIncoming_run (h : HelloFor d k raw p) (env : Env) (e : Endpoint C)
    (st : ProtocolState) (hstate : e.proto.state = st) (hst : st ≠ .closed ∧ st ≠ .error) :
    (Endpoint.processIncoming env raw).run e = (Endpoint.handleHello env p).run e := by
  have hopen : e.proto.state ≠ .closed ∧ e.proto.state ≠ .error := by
    rw [hstate]
    exact hst
  rw [Endpoint.processIncoming_of_received env raw e p e.device hopen (h.received e.device env)]
  simp only [Endpoint.dispatch, h.ptype]

theorem ConfirmationFor.macAuth (h : ConfirmationFor d env sessionKey raw p) :
    p.macAuth = false := by
  rw [Packet.macAuth, h.flags]
  decide

/-- A confirmation decrypts under the key that sealed it. -/
theorem ConfirmationFor.decrypts (h : ConfirmationFor d env sessionKey raw p)
    (hlen : sessionKey.length = 32) :
    C.aesGcmDecrypt sessionKey p.nonce p.payload = some keyExchangeOk := by
  rw [h.nonce, h.payload]
  exact C.aesGcmDecrypt_encrypt _ _ _ hlen env.nonce_length

/-- If the signatures of a device verify under its own key only, then so does
    what it signed. -/
theorem SignedBy.verifies_only (h : SignedBy d raw p)
    (hsig : ∀ key m, C.ed25519Verify key m (C.ed25519Sign d.identityPrivate m) = true →
      key = d.identityPublicBytes) (key : Bytes) (hlen : key.length = 32)
    (hv : CryptoEngine.verifyPacket C key p = .ok true) : key = d.identityPublicBytes := by
  rw [CryptoEngine.verifyPacket_eq C key p hlen h.packable, h.signature, Except.ok.injEq] at hv
  exact hsig key _ hv

/-- A confirmation is checked against a session by its signature. -/
theorem ConfirmationFor.verifies_iff (h : ConfirmationFor d env sessionKey raw p) (s : Session) :
    Device.Verifies C s p ↔ CryptoEngine.verifyPacket C s.peerEd25519Public p = .ok true := by
  rw [Device.Verifies, h.macAuth, if_neg Bool.false_ne_true]

/-- A confirmation that was received goes to its handler. -/
theorem ConfirmationFor.processIncoming_run (h : ConfirmationFor d env' sessionKey raw p)
    (env : Env) (e : Endpoint C) (st : ProtocolState) (hstate : e.proto.state = st)
    (hst : st ≠ .closed ∧ st ≠ .error) (hrec : Device.Received e.device env raw p r) :
    (Endpoint.processIncoming env raw).run e
      = (Endpoint.handleKeyExchange env p).run { e with device := r } := by
  have hopen : e.proto.state ≠ .closed ∧ e.proto.state ≠ .error := by
    rw [hstate]
    exact hst
  rw [Endpoint.processIncoming_of_received env raw e p r hopen hrec]
  simp only [Endpoint.dispatch, h.ptype]

end Reception

/-- The peer fields are those that a HELLO of a device, around an ephemeral
    key, has left. -/
structure Protocol.Met (pr : Protocol) (o : Device C) (k : Bytes) : Prop where
  peerId : pr.peerId = some o.deviceId
  peerEd25519Pub : pr.peerEd25519Pub = some o.identityPublicBytes
  peerX25519Pub : pr.peerX25519Pub = some (C.x25519Public k)

theorem HelloFor.met {d : Device C} {k raw : Bytes} {p : Packet} (h : HelloFor d k raw p)
    (pr : Protocol) : (pr.metHello p).Met d k := by
  refine ⟨?_, ?_, ?_⟩
  · simp only [Protocol.metHello, h.senderId]
  · simp only [Protocol.metHello, h.take_payload]
  · simp only [Protocol.metHello, h.field_payload]

/-- A session that has just been made for a device. -/
structure Session.FreshFor (s : Session) (o : Device C) : Prop where
  peerEd25519Public : s.peerEd25519Public = o.identityPublicBytes
  localSequence : s.localSequence = 0
  peerMaxSeq : s.peerMaxSeq = 0
  peerSeqWindow : s.peerSeqWindow = ∅

theorem Device.exchangedSession_fresh (d o : Device C) (x : Bytes) (b : Bool) (s : Session)
    (h : d.exchangedSession o.deviceId o.identityPublicBytes x b = .ok s) : s.FreshFor o := by
  rcases Device.exchangedSession_eq_ok _ _ _ _ _ _ h with ⟨_, hed, hseq, hmax, hwin⟩
  exact ⟨hed, hseq, hmax, hwin⟩

namespace Endpoint

/-- A responder that remembers a HELLO can complete the exchange as long as it
    has its ephemeral key. -/
theorem completes_of_met (e : Endpoint C) (o : Device C) (k k' : Bytes)
    (hmet : e.proto.Met o k) (hkey : e.device.ephemeralPrivate.get? o.deviceId = some k') :
    ∃ s, e.Completes o.deviceId s ∧ s.Shares C k k' o.deviceId e.device.deviceId ∧
      s.FreshFor o := by
  rcases e.device.exchangedSession_shares o.deviceId o.identityPublicBytes k' k false hkey
    o.deviceId_length o.publicBytes_length with ⟨s, hex, hshares⟩
  rw [if_neg Bool.false_ne_true, if_neg Bool.false_ne_true] at hshares
  exact ⟨s, ⟨_, _, hmet.peerId, hmet.peerEd25519Pub, hmet.peerX25519Pub, hex⟩, hshares.symm,
    e.device.exchangedSession_fresh o _ _ s hex⟩

/-- An initiator that sees the confirmation is established. -/
theorem handleKeyExchange_answered (env : Env) (p : Packet) (e : Endpoint C)
    (hstate : e.proto.state = .keyExchangeSent) (hconf : e.Confirmed p) :
    (handleKeyExchange env p).run e
      = .ok none { e with proto := { e.proto with state := .established } } := by
  have hout := handleKeyExchange_keyExchangeSent env p e hstate
  generalize (handleKeyExchange env p).run e = r at hout
  cases hout with
  | answered => rfl
  | unanswered _ _ hno => exact absurd hconf hno
  | unexpected _ _ hno => exact absurd hstate hno
  -- The other paths start from the responder's state.
  | refused _ hother =>
      rw [hstate] at hother
      simp only [reduceCtorEq] at hother
  | halfway _ _ _ hother =>
      rw [hstate] at hother
      simp only [reduceCtorEq] at hother
  | stale _ _ _ hother =>
      rw [hstate] at hother
      simp only [reduceCtorEq] at hother
  | unconfirmed _ _ _ hother =>
      rw [hstate] at hother
      simp only [reduceCtorEq] at hother
  | established _ _ _ hother =>
      rw [hstate] at hother
      simp only [reduceCtorEq] at hother

end Endpoint

end Ztlnp
