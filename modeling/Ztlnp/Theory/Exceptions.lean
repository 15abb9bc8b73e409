import Ztlnp.Lib.Triples
import Ztlnp.Theory.Codec
import Ztlnp.Theory.Ephemerals
import Ztlnp.Theory.Peer

/-!
# What a Protocol Can Raise

The exceptions that can come out of a protocol, whatever it receives.

`process_incoming` and `receive_data` take bytes from the network. On any bytes, and
after any use of the device and its protocols, what they raise is an exception of the
protocol itself or one of the two that the parser and the cipher document: `ValueError`
where something has the wrong length, and `InvalidTag` where a payload does not
decrypt. A table is never read under a key it does not have, a missing field is never
used as bytes, and no number is packed that does not fit. A packet that turns out not
to be what it claims changes nothing.

The methods an application calls with data of its own are told apart in the same way.
A session that has used up its sequence numbers is the one reason for `send_data` to
raise what is not an exception of the protocol.

Each method has a specification in the sense of `Lib.Triples`, proved from those of the
methods it calls. Two invariants of runs stand behind them. The two tables of ephemeral
keys agree, and a protocol whose peer is chosen has its peer fields.

## Main definitions

* `formatErrors`, `forgeryErrors`, `receptionErrors`, `handlerErrors`,
  `incomingErrors`: Which exceptions are raised where.
* `Device.Undrawn`: A session that has handed out no number.
* `Protocol.HasPeer`: The three peer fields are set.

## Theorems

* `receivePacket_spec`: Reception.
* `completeKeyExchange_spec`, `confirmKeys_spec`: The two halves of the handshake.
* `handleHello_spec`, `handleKeyExchange_spec`, `dispatch_spec`: The handlers.
* `processIncoming_spec`, `receiveData_spec`, `initiate_spec`, `sendData_spec`: The
  entry points.
* `live_hasPeer`, `coherent_of_reachable`: A protocol whose peer is chosen has its
  peer fields.
* `exceptions_closed`: The exceptions of a protocol, over every life of its host.
-/

namespace Ztlnp

open Std.Do

set_option mvcgen.warning false

variable {C : Primitives}

/-- The exceptions of the parser. -/
def formatErrors : List ErrorKind := [.valueError, .invalidMagicError, .invalidVersionError]

/-- The exceptions of a signature or tag check. -/
def verificationErrors : List ErrorKind := [.valueError, .signatureVerificationError]

/-- The exceptions of the replay check on a stored session. -/
def replayErrors : List ErrorKind := [.replayAttackError, .sessionNotFoundError]

/-- The exceptions of `decrypt_packet`. -/
def decryptionErrors : List ErrorKind := [.sessionNotFoundError, .invalidTag]

/-- The exceptions of `receive_packet`. -/
def receptionErrors : List ErrorKind := formatErrors ++ verificationErrors ++ replayErrors

/-- The exceptions of the handlers. -/
def handlerErrors : List ErrorKind :=
  [.handshakeError, .valueError] ++ replayErrors ++ decryptionErrors

/-- The exceptions of the methods that take bytes from the network. -/
def incomingErrors : List ErrorKind :=
  [.valueError, .invalidTag, .invalidMagicError, .invalidVersionError,
    .signatureVerificationError, .replayAttackError, .sessionNotFoundError, .handshakeError]

/-- The exceptions that say that a packet is not what it claims to be. -/
def forgeryErrors : List ErrorKind :=
  [.invalidMagicError, .invalidVersionError, .signatureVerificationError]

theorem receptionErrors_subset {k : ErrorKind} (h : k ∈ receptionErrors) : k ∈ incomingErrors :=
  (by decide : receptionErrors ⊆ incomingErrors) h

/-- What a handler raises does not say that a packet was forged. -/
theorem handlerErrors_apart {k : ErrorKind} (h : k ∈ handlerErrors) :
    k ∈ incomingErrors ∧ k ∉ forgeryErrors :=
  (by decide : ∀ j ∈ handlerErrors, j ∈ incomingErrors ∧ j ∉ forgeryErrors) k h

theorem replayErrors_subset {k : ErrorKind} (h : k ∈ replayErrors) :
    k ∈ receptionErrors ∧ k ∈ handlerErrors :=
  (by decide : ∀ j ∈ replayErrors, j ∈ receptionErrors ∧ j ∈ handlerErrors) k h

theorem verificationErrors_subset {k : ErrorKind} (h : k ∈ verificationErrors) :
    k ∈ receptionErrors :=
  (by decide : verificationErrors ⊆ receptionErrors) h

theorem decryptionErrors_subset {k : ErrorKind} (h : k ∈ decryptionErrors) :
    k ∈ handlerErrors :=
  (by decide : decryptionErrors ⊆ handlerErrors) h

section Packets

@[spec]
theorem ofCode_spec (n : Nat) :
    ⦃⌜True⌝⦄ PacketType.ofCode n ⦃post⟨fun _ => ⌜True⌝, fun x => ⌜x.kind = .valueError⌝⟩⦄ := by
  mvcgen [PacketType.ofCode]

/-- The lengths that the constructor of a packet checks. -/
def PacketFields.Sized (f : PacketFields) : Prop :=
  f.senderId.length = 32 ∧ f.recipientId.length = 32 ∧ f.nonce.length = 12

@[spec]
theorem packetPostInit_spec (nowMs : Nat) (f : PacketFields) :
    ⦃⌜True⌝⦄ f.postInit nowMs
    ⦃post⟨fun p => ⌜p.toPacketFields =
        { f with timestampMs := if f.timestampMs = 0 then nowMs else f.timestampMs }⌝,
      fun x => ⌜x.kind = .valueError ∧ ¬ f.Sized⌝⟩⦄ := by
  mvcgen [PacketFields.postInit]
  · rename_i hnonce
    exact ⟨trivial, fun h => hnonce h.2.2⟩
  · rename_i hrecipient
    exact ⟨trivial, fun h => hrecipient h.2.1⟩
  · rename_i hsender
    exact ⟨trivial, fun h => hsender h.1⟩

theorem fromBytes_spec (nowMs : Nat) (raw : Bytes) (hms : nowMs < 256 ^ 8) :
    ⦃⌜True⌝⦄ Packet.fromBytes nowMs raw
    ⦃post⟨fun p => ⌜p.Packable⌝, fun x => ⌜x.kind ∈ formatErrors⌝⟩⦄ := by
  have hkinds : ⦃⌜True⌝⦄ Packet.fromBytes nowMs raw
      ⦃post⟨fun _ => ⌜True⌝, fun x => ⌜x.kind ∈ formatErrors⌝⟩⦄ := by
    mvcgen [Packet.fromBytes]
    all_goals simp_all [formatErrors]
  rw [except_triple_iff] at hkinds ⊢
  refine fun _ => ⟨fun p hp => ?_, (hkinds trivial).2⟩
  -- Every field but the timestamp comes from a field of its width.
  rw [Packet.parsed_packable nowMs raw p hp, (Packet.fromBytes_wire nowMs raw p hp).2.2.2]
  by_cases hzero : beDecode (field raw 72 8) = 0
  · rw [if_pos hzero]
    exact hms
  · rw [if_neg hzero]
    exact beDecode_field_lt raw 72 8

@[spec]
theorem signedBytes_spec (p : Packet) :
    ⦃⌜True⌝⦄ p.signedBytes
    ⦃post⟨fun _ => ⌜p.Packable⌝, fun x => ⌜x.kind = .structError ∧ ¬ p.Packable⌝⟩⦄ := by
  mvcgen [Packet.signedBytes, Packet.headerBytes, packUInt]
  -- The fields in the order of the header, the last one first.
  · rename_i hlength
    exact ⟨trivial, fun hp => hlength hp.2.2.2⟩
  · rename_i hsequence
    exact ⟨trivial, fun hp => hsequence hp.2.2.1⟩
  · rename_i htime
    exact ⟨trivial, fun hp => htime hp.2.1⟩
  · rename_i hflags
    exact ⟨trivial, fun hp => hflags hp.1⟩
  · rename_i hcode
    exact absurd p.ptype.code_lt hcode

@[spec]
theorem toBytes_spec (p : Packet) :
    ⦃⌜True⌝⦄ p.toBytes
    ⦃post⟨fun _ => ⌜True⌝, fun x => ⌜x.kind = .structError ∧ ¬ p.Packable⌝⟩⦄ := by
  mvcgen [Packet.toBytes]

@[spec]
theorem signPacket_spec (key : Bytes) (p : Packet) :
    ⦃⌜True⌝⦄ CryptoEngine.signPacket C key p
    ⦃post⟨fun _ => ⌜p.Packable⌝, fun x => ⌜x.kind = .structError ∧ ¬ p.Packable⌝⟩⦄ := by
  mvcgen [CryptoEngine.signPacket]

theorem verifyPacket_spec (key : Bytes) (p : Packet) (hp : p.Packable) :
    ⦃⌜True⌝⦄ CryptoEngine.verifyPacket C key p
    ⦃post⟨fun _ => ⌜True⌝, fun x => ⌜x.kind = .valueError⌝⟩⦄ := by
  mvcgen [CryptoEngine.verifyPacket, CryptoEngine.verify, CryptoEngine.importEd25519Public]
  exact fun _ h => absurd hp h

theorem verifyPacketMac_spec (key : Bytes) (p : Packet) (hp : p.Packable) :
    ⦃⌜True⌝⦄ CryptoEngine.verifyPacketMac C key p ⦃post⟨fun _ => ⌜True⌝, fun _ => ⌜False⌝⟩⦄ := by
  mvcgen [CryptoEngine.verifyPacketMac]
  exact fun _ h => absurd hp h

/-- A verification that is required raises what it raises itself, or that it failed. -/
@[spec]
theorem require_spec (verified : Except Exn Bool) (message : String)
    (h : ⦃⌜True⌝⦄ verified ⦃post⟨fun _ => ⌜True⌝, fun x => ⌜x.kind = .valueError⌝⟩⦄) :
    ⦃⌜True⌝⦄ Device.require verified message
    ⦃post⟨fun _ => ⌜True⌝, fun x => ⌜x.kind ∈ verificationErrors⌝⟩⦄ := by
  rw [except_triple_iff] at h ⊢
  refine fun _ => ⟨fun _ _ => trivial, fun x hx => ?_⟩
  cases verified with
  | error y =>
      cases hx
      exact List.mem_cons.mpr (Or.inl ((h trivial).2 _ rfl))
  | ok b =>
      cases b with
      | true => cases hx
      | false =>
          cases hx
          exact List.mem_cons_of_mem _ List.mem_cons_self

theorem verifySession_spec (s : Session) (p : Packet) (hp : p.Packable) :
    ⦃⌜True⌝⦄ Device.verifySession C s p
    ⦃post⟨fun _ => ⌜True⌝, fun x => ⌜x.kind ∈ verificationErrors⌝⟩⦄ := by
  mvcgen [Device.verifySession]
  · mvcgen [verifyPacketMac_spec]
  · exact verifyPacket_spec _ p hp trivial

@[spec]
theorem decrypt_spec (key nonce ciphertext : Bytes) :
    ⦃⌜True⌝⦄ CryptoEngine.decrypt C key nonce ciphertext
    ⦃post⟨fun _ => ⌜True⌝, fun x => ⌜x.kind = .invalidTag⌝⟩⦄ := by
  mvcgen [CryptoEngine.decrypt]

@[spec]
theorem sessionPostInit_spec (peerId ed sk mk : Bytes) :
    ⦃⌜True⌝⦄ Session.postInit peerId ed sk mk
    ⦃post⟨fun s => ⌜peerId.length = 32 ∧ s.localSequence = 0⌝,
      fun x => ⌜x.kind = .valueError⌝⟩⦄ := by
  mvcgen [Session.postInit]

end Packets

section Devices

/-- The outcome of a completed exchange. -/
@[spec]
theorem exchangedSession_spec (d : Device C) (peerId ed x : Bytes) (b : Bool) :
    ⦃⌜True⌝⦄ d.exchangedSession peerId ed x b
    ⦃post⟨fun s => ⌜d.ephemeralPrivate.get? peerId ≠ none ∧ peerId.length = 32 ∧
        s.localSequence = 0⌝,
      fun x => ⌜x.kind = .valueError⌝⟩⦄ := by
  mvcgen [Device.exchangedSession, CryptoEngine.x25519Exchange, CryptoEngine.importX25519Public]
  rename_i hpriv _ _ _ _ _ _
  refine fun hpeer hzero => ⟨?_, hpeer, hzero⟩
  rw [hpriv]
  exact Option.some_ne_none _

/-- There is a session with the peer, and it has handed out no number. -/
def Device.Undrawn (d : Device C) (peerId : Bytes) : Prop :=
  peerId.length = 32 ∧ ∃ s, d.sessions.get? peerId = some s ∧ s.localSequence = 0

theorem Device.Undrawn.eq_zero {d : Device C} {peerId : Bytes} (h : d.Undrawn peerId)
    {s : Session} (hget : d.sessions.get? peerId = some s) : s.localSequence = 0 := by
  rcases h.2 with ⟨t, ht, hzero⟩
  rw [hget, Option.some.injEq] at ht
  rw [ht]
  exact hzero

theorem Device.Undrawn.ne_none {d : Device C} {peerId : Bytes} (h : d.Undrawn peerId) :
    d.sessions.get? peerId ≠ none := by
  rcases h.2 with ⟨t, ht, _⟩
  rw [ht]
  exact Option.some_ne_none t

/-- A session that is written back with the same counter is as undrawn as before. -/
theorem Device.Undrawn.set {d : Device C} {peerId : Bytes} (h : d.Undrawn peerId)
    {s t : Session} (hget : d.sessions.get? peerId = some s)
    (hsame : t.localSequence = s.localSequence) :
    ({ d with sessions := d.sessions.set peerId t } : Device C).Undrawn peerId :=
  ⟨h.1, t, Dict.get?_set_self _ _ _, hsame.trans (h.eq_zero hget)⟩

@[spec]
theorem generateEphemeralKeypair_spec (env : Env) (peerId : Bytes) :
    ⦃fun d => ⌜d.Aligned⌝⦄
    (Device.generateEphemeralKeypair env peerId : EStateM Exn (Device C) Bytes)
    ⦃post⟨fun pub d => ⌜pub.length = 32 ∧ d.Aligned⌝, fun _ _ => ⌜False⌝⟩⦄ := by
  refine triple_of_cases fun d halign => Or.inl ⟨_, _,
    Device.generateEphemeralKeypair_aligned env peerId d halign, C.x25519Public_length _,
    d.aligned_withEphemeral env peerId halign⟩

@[spec]
theorem registerPendingPeer_spec (peerId key : Bytes) :
    ⦃fun d => ⌜d.Aligned⌝⦄
    (Device.registerPendingPeer peerId key : EStateM Exn (Device C) Unit)
    ⦃post⟨fun _ d => ⌜d.Aligned⌝, fun _ _ => ⌜False⌝⟩⦄ := by
  mvcgen [Device.registerPendingPeer]

theorem helloPacket_spec (d : Device C) (env : Env) (recipientId x : Bytes)
    (hms : env.buildMs < 256 ^ 8) (hrecipient : recipientId.length = 32) (hx : x.length = 32) :
    ⦃⌜True⌝⦄ d.helloPacket env recipientId x
    ⦃post⟨fun p => ⌜p.Packable⌝, fun _ => ⌜False⌝⟩⦄ := by
  have hpack : ∀ p : Packet, p.toPacketFields =
      { ptype := .hello, senderId := d.deviceId, payload := d.identityPublicBytes ++ x,
        recipientId := recipientId, flags := flagNone, sequence := 0,
        timestampMs := env.buildMs } → p.Packable := by
    intro p hp
    have hlen : (d.identityPublicBytes ++ x).length = 64 := by
      rw [List.length_append, d.publicBytes_length, hx]
    unfold Packet.Packable
    rw [hp]
    refine ⟨Nat.pow_pos (by decide), hms, Nat.pow_pos (by decide), ?_⟩
    simp only [hlen]
    decide
  mvcgen [Device.helloPacket]
  · rename_i p _ hp
    rw [if_pos trivial] at hp
    exact fun _ hno => hno (hpack p hp)
  · exact fun _ hno => hno ⟨d.deviceId_length, hrecipient, rfl⟩

theorem buildHelloPacket_spec (env : Env) (peerId : Bytes) (hms : env.buildMs < 256 ^ 8)
    (hpeer : peerId.length = 32) :
    ⦃fun d => ⌜d.Aligned⌝⦄
    (Device.buildHelloPacket env (some peerId) : EStateM Exn (Device C) Packet)
    ⦃post⟨fun p d => ⌜p.Packable ∧ d.Aligned⌝, fun _ _ => ⌜False⌝⟩⦄ := by
  mvcgen [Device.buildHelloPacket, helloPacket_spec]
  · rename_i h
    exact h.1
  · rename_i h _
    exact fun hp => ⟨hp, h.2⟩

@[spec]
theorem completeKeyExchange_spec (peerId ed x : Bytes) (b : Bool) :
    ⦃fun d => ⌜d.Aligned⌝⦄
    (Device.completeKeyExchange peerId ed x b : EStateM Exn (Device C) Session)
    ⦃post⟨fun _ d => ⌜d.Aligned ∧ d.Undrawn peerId⌝, fun x _ => ⌜x.kind = .valueError⌝⟩⦄ := by
  mvcgen [Device.completeKeyExchange]
  · -- The public half is there whenever the private one is.
    rename_i halign _ hpub h
    rw [halign peerId, Option.map_eq_none_iff] at hpub
    exact absurd hpub h.1
  · rename_i d halign s _ _ h
    exact ⟨d.aligned_installed peerId s halign, h.2.1, s, Dict.get?_set_self _ _ _, h.2.2⟩

@[spec]
theorem getSession_spec (peerId : Bytes) (d0 : Device C) :
    ⦃fun d => ⌜d = d0⌝⦄
    (Device.getSession peerId : EStateM Exn (Device C) Session)
    ⦃post⟨fun s d => ⌜d0.sessions.get? peerId = some s ∧ d = d0⌝,
      fun x d => ⌜x.kind = .sessionNotFoundError ∧ d0.sessions.get? peerId = none ∧ d = d0⌝⟩⦄ := by
  refine triple_of_cases fun d hd => ?_
  subst hd
  cases hget : d.sessions.get? peerId with
  | some s => exact Or.inl ⟨s, d, (Device.getSession_eq_ok peerId d d s).mpr ⟨hget, rfl⟩, rfl, rfl⟩
  | none =>
      refine Or.inr ⟨Device.noSession peerId, d, ?_, rfl, rfl, rfl⟩
      simp only [EStateM.run, Device.getSession, hget]

@[spec]
theorem decryptPacket_spec (p : Packet) (d0 : Device C) :
    ⦃fun d => ⌜d = d0⌝⦄
    (Device.decryptPacket p : EStateM Exn (Device C) Bytes)
    ⦃post⟨fun _ d => ⌜d = d0⌝,
      fun x d => ⌜x.kind ∈ decryptionErrors ∧ d = d0⌝⟩⦄ := by
  mvcgen [Device.decryptPacket]
  · rename_i hd _ _ hfound _
    exact hfound.2.trans hd
  · rename_i hd _ _ hfound _
    exact fun hkind => ⟨hkind ▸ (by decide), hfound.2.trans hd⟩
  · rename_i hd _ _
    exact fun hkind _ hsame => ⟨hkind ▸ (by decide), hsame.trans hd⟩

/-- A session method runs on the session that is stored, or there is none. -/
theorem onSession_spec {α : Type} (peerId : Bytes) (act : EStateM Exn Session α) (d0 : Device C)
    {Q : Session → α → Session → Prop} {E : Session → Exn → Session → Prop}
    (hact : ∀ s0, ⦃fun s => ⌜s = s0⌝⦄ act ⦃post⟨fun a s => ⌜Q s0 a s⌝, fun x s => ⌜E s0 x s⌝⟩⦄) :
    ⦃fun d => ⌜d = d0⌝⦄
    (Device.onSession peerId act : EStateM Exn (Device C) α)
    ⦃post⟨fun a d => ⌜∃ s t, d0.sessions.get? peerId = some s ∧ Q s a t ∧
        d = { d0 with sessions := d0.sessions.set peerId t }⌝,
      fun x _ => ⌜(x.kind = .sessionNotFoundError ∧ d0.sessions.get? peerId = none) ∨
        ∃ s t, d0.sessions.get? peerId = some s ∧ E s x t⌝⟩⦄ := by
  refine triple_of_cases fun d hd => ?_
  subst hd
  cases hget : d.sessions.get? peerId with
  | none =>
      refine Or.inr ⟨Device.noSession peerId, d, ?_, Or.inl ⟨rfl, rfl⟩⟩
      simp only [EStateM.run, Device.onSession, hget]
  | some s =>
      have hs := (triple_iff act (· = s) (Q s) (E s)).mp (hact s) s rfl
      cases hrun : act.run s with
      | ok a t =>
          exact Or.inl ⟨a, _, (Device.onSession_eq_ok peerId act d _ a).mpr ⟨s, t, hget, hrun, rfl⟩,
            s, t, rfl, hs.1 a t hrun, rfl⟩
      | error x t =>
          -- Also a raising body leaves the session it has written.
          have hact' : act s = .error x t := hrun
          refine Or.inr ⟨x, { d with sessions := d.sessions.set peerId t }, ?_,
            Or.inr ⟨s, t, rfl, hs.2 x t hrun⟩⟩
          simp only [EStateM.run, Device.onSession, hget, hact']

theorem checkReplay_spec (nowMs sequence timestampMs : Nat) (s0 : Session) :
    ⦃fun s => ⌜s = s0⌝⦄
    Session.checkReplay nowMs sequence timestampMs
    ⦃post⟨fun _ s => ⌜s.localSequence = s0.localSequence⌝,
      fun x _ => ⌜x.kind = .replayAttackError⌝⟩⦄ := by
  mvcgen [Session.checkReplay]
  all_goals simp_all

/-- The replay check draws no number. -/
@[spec]
theorem onSession_checkReplay_spec (peerId : Bytes) (nowMs sequence timestampMs : Nat)
    (d0 : Device C) :
    ⦃fun d => ⌜d = d0⌝⦄
    (Device.onSession peerId (Session.checkReplay nowMs sequence timestampMs) :
      EStateM Exn (Device C) Unit)
    ⦃post⟨fun _ d => ⌜∃ s t, d0.sessions.get? peerId = some s ∧
        t.localSequence = s.localSequence ∧
        d = { d0 with sessions := d0.sessions.set peerId t }⌝,
      fun x _ => ⌜x.kind ∈ replayErrors⌝⟩⦄ := by
  refine triple_weaken (fun _ _ h => h) (fun x _ h => ?_)
    (onSession_spec peerId _ d0 (checkReplay_spec nowMs sequence timestampMs))
  rcases h with ⟨hkind, _⟩ | ⟨_, _, _, hkind⟩
  · exact hkind ▸ List.mem_cons_of_mem _ List.mem_cons_self
  · exact hkind ▸ List.mem_cons_self

theorem nextSequence_spec (s0 : Session) :
    ⦃fun s => ⌜s = s0⌝⦄
    Session.nextSequence
    ⦃post⟨fun n s => ⌜n = s0.localSequence ∧
      s = { s0 with localSequence := s0.localSequence + 1 }⌝, fun _ _ => ⌜False⌝⟩⦄ := by
  mvcgen [Session.nextSequence]
  all_goals simp_all

/-- A number is drawn from a session that is there. -/
@[spec]
theorem onSession_nextSequence_spec (peerId : Bytes) (d0 : Device C) :
    ⦃fun d => ⌜d = d0⌝⦄
    (Device.onSession peerId Session.nextSequence : EStateM Exn (Device C) Nat)
    ⦃post⟨fun n d => ⌜∃ s, d0.sessions.get? peerId = some s ∧ n = s.localSequence ∧
        d = d0.advanced peerId s⌝,
      fun x _ => ⌜x.kind = .sessionNotFoundError ∧ d0.sessions.get? peerId = none⌝⟩⦄ := by
  refine triple_weaken (fun n d h => ?_) (fun x _ h => ?_)
    (onSession_spec peerId _ d0 nextSequence_spec)
  · rcases h with ⟨s, t, hget, ⟨hn, rfl⟩, hd⟩
    exact ⟨s, hget, hn, hd⟩
  · rcases h with h | ⟨_, _, _, hno⟩
    · exact h
    · exact hno.elim

theorem sealPacket_spec (d : Device C) (env : Env) (t : PacketType) (flags : Nat)
    (peerId plaintext : Bytes) (s : Session) (n : Nat) (hms : env.buildMs < 256 ^ 8)
    (hflags : flags < 256 ^ 2) (hpeer : peerId.length = 32)
    (hplain : plaintext.length + 16 < 256 ^ 4) :
    ⦃⌜True⌝⦄ d.sealPacket env t flags peerId plaintext s n Device.signed
    ⦃post⟨fun p => ⌜p.Packable⌝, fun x => ⌜x.kind = .structError ∧ 256 ^ 4 ≤ n⌝⟩⦄ := by
  have hpack : ∀ p : Packet, p.toPacketFields =
      { ptype := t, senderId := d.deviceId, flags := flags, sequence := n, nonce := env.nonce
        payload := C.aesGcmEncrypt s.sessionKey env.nonce plaintext, recipientId := peerId
        timestampMs := env.buildMs } → (p.Packable ↔ n < 256 ^ 4) := by
    intro p hp
    have hlen := C.aesGcmEncrypt_length s.sessionKey env.nonce plaintext
    unfold Packet.Packable
    rw [hp]
    exact ⟨fun h => h.2.2.1, fun h => ⟨hflags, hms, h, hlen ▸ hplain⟩⟩
  mvcgen [Device.sealPacket, Device.signed]
  · rename_i p _ hp
    rw [if_pos trivial] at hp
    exact fun hkind hno => ⟨hkind, not_lt.mp (fun hlt => hno ((hpack p hp).mpr hlt))⟩
  · exact fun _ hno => absurd ⟨d.deviceId_length, hpeer, env.nonce_length⟩ hno

/-- A message can be built as long as there is a session with numbers left. -/
@[spec]
theorem buildDataPacket_spec (env : Env) (peerId plaintext : Bytes) (hms : env.buildMs < 256 ^ 8)
    (hpeer : peerId.length = 32) (hplain : plaintext.length + 16 < 256 ^ 4) (d0 : Device C) :
    ⦃fun d => ⌜d = d0⌝⦄
    (Device.buildDataPacket env peerId plaintext : EStateM Exn (Device C) Packet)
    ⦃post⟨fun p _ => ⌜p.Packable⌝,
      fun x d => ⌜(x.kind = .sessionNotFoundError ∧ d = d0) ∨ (x.kind = .structError ∧
        ∃ s, d0.sessions.get? peerId = some s ∧ 256 ^ 4 ≤ s.localSequence)⌝⟩⦄ := by
  mvcgen [Device.buildDataPacket, Device.buildSealed, sealPacket_spec]
  · exact fun hp => hp
  · -- All the numbers of four octets are used up.
    rename_i hd _ _ hfound n _ hdrew _
    subst hd
    rcases hfound with ⟨_, rfl⟩
    rcases hdrew with ⟨s, hget, rfl, _⟩
    exact fun hkind hle => Or.inr ⟨hkind, s, hget, hle⟩
  · -- The session was found before the number was drawn.
    rename_i hfound _ _
    rcases hfound with ⟨hget, rfl⟩
    exact fun _ hnone => absurd hget (hnone ▸ Option.some_ne_none _).symm
  · rename_i hd _ _
    subst hd
    exact fun hkind _ hsame => Or.inl ⟨hkind, hsame⟩

/-- The confirmation of a session that has handed out no number can be built. -/
theorem confirmKeys_spec (env : Env) (peerId : Bytes) (hms : env.buildMs < 256 ^ 8) :
    ⦃fun d => ⌜d.Undrawn peerId⌝⦄
    (Endpoint.confirmKeys env peerId : EStateM Exn (Device C) Bytes)
    ⦃post⟨fun _ _ => ⌜True⌝, fun _ _ => ⌜False⌝⟩⦄ := by
  mvcgen [Endpoint.confirmKeys, Endpoint.buildKeyExchangePacket, sealPacket_spec]
  · rename_i h _ _ _ _ _ _
    exact h.1
  · rename_i hp _
    exact fun _ hno => hno hp
  · -- The number that was drawn is the first one.
    rename_i h n _ hdrew _ _ _ _
    rcases hdrew with ⟨s, hget, rfl, _⟩
    rw [h.eq_zero hget]
    exact fun _ hle => absurd hle (by decide)
  · rename_i hdrew _ _
    rcases hdrew with ⟨s, hget, _, rfl⟩
    exact fun _ hnone _ => absurd (Dict.get?_set_self _ _ _) (hnone ▸ Option.some_ne_none _).symm
  · rename_i h _ _
    exact fun _ hnone => h.ne_none hnone

/-- What reception lets through, and what it raises otherwise. -/
@[spec]
theorem receivePacket_spec (env : Env) (raw : Bytes) (hms : env.parseMs < 256 ^ 8)
    (d0 : Device C) :
    ⦃fun d => ⌜d = d0⌝⦄
    (Device.receivePacket env raw : EStateM Exn (Device C) Packet)
    ⦃post⟨fun p d => ⌜Device.Received d0 env raw p d⌝,
      fun x d => ⌜x.kind ∈ receptionErrors ∧ d = d0⌝⟩⦄ := by
  have hkinds : ⦃fun d => ⌜d = d0⌝⦄
      (Device.receivePacket env raw : EStateM Exn (Device C) Packet)
      ⦃post⟨fun _ _ => ⌜True⌝, fun x _ => ⌜x.kind ∈ receptionErrors⌝⟩⦄ := by
    mvcgen [Device.receivePacket, fromBytes_spec, verifyPacket_spec, verifySession_spec]
    · exact verificationErrors_subset
    · exact fun h => (replayErrors_subset h).1
    · exact verificationErrors_subset
    · exact verificationErrors_subset
    · exact (by decide : ErrorKind.sessionNotFoundError ∈ receptionErrors)
    · exact fun h => List.mem_append_left _ (List.mem_append_left _ h)
  refine triple_of_cases fun d hd => ?_
  subst hd
  rcases Device.receivePacket_cases env raw d with ⟨p, d', hrec⟩ | ⟨x, hrun⟩
  · exact Or.inl ⟨p, d', Device.receivePacket_of_received env raw d d' p hrec, hrec⟩
  · exact Or.inr ⟨x, d, hrun, raised_of_triple hkinds rfl hrun, rfl⟩

end Devices

/-- The peer fields are set. -/
def Protocol.HasPeer (pr : Protocol) : Prop :=
  ∃ peerId ed x, pr.peerId = some peerId ∧ pr.peerEd25519Pub = some ed ∧
    pr.peerX25519Pub = some x ∧ peerId.length = 32

theorem metHello_hasPeer (pr : Protocol) (p : Packet) : (pr.metHello p).HasPeer :=
  ⟨_, _, _, rfl, rfl, rfl, p.senderId_length⟩

namespace Endpoint

/-- What the methods of a protocol rely on: the tables agree, and a peer that is chosen
    has its fields. -/
structure Coherent (e : Endpoint C) : Prop where
  aligned : e.device.Aligned
  hasPeer : e.proto.Settled → e.proto.HasPeer

@[spec]
theorem onDevice_spec {α : Type} (x : EStateM Exn (Device C) α)
    (Q : PostCond α (.except Exn (.arg (Endpoint C) .pure))) :
    ⦃fun e => wp⟦x⟧ (fun a d => Q.1 a { e with device := d },
      fun y d => Q.2.1 y { e with device := d }, ()) e.device⦄
    (onDevice x : EStateM Exn (Endpoint C) α)
    ⦃Q⦄ := zoom_spec _ _ x Q

@[spec]
theorem modifyProto_spec (f : Protocol → Protocol)
    (Q : PostCond Unit (.except Exn (.arg (Endpoint C) .pure))) :
    ⦃fun e => Q.1 () { e with proto := f e.proto }⦄
    (modifyProto f : EStateM Exn (Endpoint C) Unit)
    ⦃Q⦄ := by
  mvcgen [modifyProto]

theorem initiate_spec (env : Env) (peerId : Bytes) (hms : env.buildMs < 256 ^ 8)
    (hpeer : peerId.length = 32) (e0 : Endpoint C) :
    ⦃fun e => ⌜e = e0 ∧ e.Coherent⌝⦄
    (initiate env peerId : EStateM Exn (Endpoint C) Bytes)
    ⦃post⟨fun _ _ => ⌜True⌝, fun x e => ⌜x.kind = .handshakeError ∧ e = e0⌝⟩⦄ := by
  mvcgen [initiate, buildHelloPacket_spec]
  · rename_i h _
    exact ⟨trivial, h.1⟩
  · rename_i h _
    exact h.2.aligned
  · rename_i h _
    exact fun _ hno => absurd h.1 hno

theorem handleHello_spec (env : Env) (p : Packet) (hms : env.buildMs < 256 ^ 8) :
    ⦃fun e => ⌜e.Coherent⌝⦄
    (handleHello env p : EStateM Exn (Endpoint C) (Option Bytes))
    ⦃post⟨fun _ _ => ⌜True⌝, fun x _ => ⌜x.kind ∈ handlerErrors⌝⟩⦄ := by
  mvcgen [handleHello, buildHelloPacket_spec, confirmKeys_spec]
  -- The responder: its pair is made, and its answer can be built.
  · rename_i h _
    exact h.aligned
  · rename_i h
    exact h.2
  · exact p.senderId_length
  · rename_i h _
    exact fun _ hno => absurd h.1 hno
  -- The initiator: the exchange may be refused, but its confirmation can be built.
  · rename_i h _
    exact h.aligned
  · rename_i h
    exact h.2
  · exact fun hkind => hkind ▸ (by decide)
  · decide

theorem handleKeyExchange_spec (env : Env) (p : Packet) (hms : env.buildMs < 256 ^ 8) :
    ⦃fun e => ⌜e.Coherent⌝⦄
    (handleKeyExchange env p : EStateM Exn (Endpoint C) (Option Bytes))
    ⦃post⟨fun _ _ => ⌜True⌝, fun x _ => ⌜x.kind ∈ handlerErrors⌝⟩⦄ := by
  mvcgen [handleKeyExchange, completeRemembered, requireConfirmation, requirePeer,
    confirmKeys_spec]
  -- The responder completes the exchange that its HELLO left it.
  · rename_i h _ _ _ _ _ _ _
    exact h.aligned
  · -- Its confirmation carries the first number, as the check has drawn none.
    rename_i hnew _ _ hchecked _ _ hsame _
    rcases hchecked with ⟨s, t, hget, hnumber, rfl⟩
    rw [hsame]
    exact hnew.2.set hget hnumber
  · exact fun h _ => decryptionErrors_subset h
  · exact fun h => (replayErrors_subset h).2
  · exact fun hkind => hkind ▸ (by decide)
  · -- Its peer fields are set.
    rename_i h hstate _ _ _ hno hx hed hid
    rcases h.hasPeer (Or.inl hstate) with ⟨peerId, ed, x, _, hed', hx', _⟩
    exact (hno ed x (hed.symm.trans hed') (hx.symm.trans hx')).elim
  -- The initiator has its session already.
  · exact fun h _ => decryptionErrors_subset h
  · exact fun hkind _ _ => hkind ▸ (by decide)
  · rename_i h hstate hnone
    rcases h.hasPeer (Or.inr (Or.inl hstate)) with ⟨peerId, _, _, hid, _⟩
    rw [hnone] at hid
    cases hid
  · decide

/-- What any handler raises. -/
theorem dispatch_spec (env : Env) (p : Packet) (hms : env.buildMs < 256 ^ 8) :
    ⦃fun e => ⌜e.Coherent⌝⦄
    (dispatch env p : EStateM Exn (Endpoint C) (Option Bytes))
    ⦃post⟨fun _ _ => ⌜True⌝, fun x _ => ⌜x.kind ∈ handlerErrors⌝⟩⦄ := by
  mvcgen [dispatch, handleHello_spec, handleKeyExchange_spec, handleData, handleAck, handleBye,
    requireEstablished, Device.removeSession]
  · exact fun _ _ => hms
  · exact fun _ _ => hms
  -- Everything else is refused in the same way.
  all_goals decide

theorem processIncoming_spec (env : Env) (raw : Bytes) (hparse : env.parseMs < 256 ^ 8)
    (hms : env.buildMs < 256 ^ 8) (e0 : Endpoint C) :
    ⦃fun e => ⌜e = e0 ∧ e.Coherent⌝⦄
    (processIncoming env raw : EStateM Exn (Endpoint C) (Option Bytes))
    ⦃post⟨fun _ _ => ⌜True⌝,
      fun x e => ⌜x.kind ∈ incomingErrors ∧ (x.kind ∈ forgeryErrors → e = e0)⌝⟩⦄ := by
  mvcgen [processIncoming, dispatch_spec]
  · rename_i h _
    exact ⟨by decide, fun _ => h.1⟩
  · -- Reception keeps what the handlers rely on.
    rename_i h _ _ _ hrec
    exact ⟨Device.received_aligned _ _ _ _ _ hrec h.2.aligned, h.2.hasPeer⟩
  · exact fun h => ⟨(handlerErrors_apart h).1,
      fun hforged => absurd hforged (handlerErrors_apart h).2⟩
  · exact fun _ => hms
  · rename_i h _ _ _
    exact fun hkind hsame => ⟨receptionErrors_subset hkind, fun _ => hsame ▸ h.1⟩

theorem receiveData_spec (env : Env) (raw : Bytes) (hparse : env.parseMs < 256 ^ 8)
    (e0 : Endpoint C) :
    ⦃fun e => ⌜e = e0⌝⦄
    (receiveData env raw : EStateM Exn (Endpoint C) Bytes)
    ⦃post⟨fun _ _ => ⌜True⌝,
      fun x e => ⌜x.kind ∈ incomingErrors ∧ (x.kind ∈ forgeryErrors → e = e0)⌝⟩⦄ := by
  have hbusy := handlerErrors_apart (k := ErrorKind.handshakeError) (by decide)
  mvcgen [receiveData, requireEstablished]
  · rename_i h _
    exact ⟨hbusy.1, fun _ => h⟩
  · exact ⟨hbusy.1, fun hforged => absurd hforged hbusy.2⟩
  · refine fun h _ => ⟨(handlerErrors_apart (decryptionErrors_subset h)).1, fun hforged => ?_⟩
    exact absurd hforged (handlerErrors_apart (decryptionErrors_subset h)).2
  · rename_i h _ _ _
    exact fun hkind hsame => ⟨receptionErrors_subset hkind, fun _ => hsame ▸ h⟩

theorem sendData_spec (env : Env) (plaintext : Bytes) (hms : env.buildMs < 256 ^ 8)
    (hplain : plaintext.length < 2 ^ 31) (e0 : Endpoint C) :
    ⦃fun e => ⌜e = e0 ∧ e.Coherent⌝⦄
    (sendData env plaintext : EStateM Exn (Endpoint C) Bytes)
    ⦃post⟨fun _ _ => ⌜True⌝,
      fun x e => ⌜(x.kind ∈ [ErrorKind.handshakeError, .sessionNotFoundError] ∧ e = e0) ∨
        (x.kind = .structError ∧ ∃ peerId s, e0.proto.peerId = some peerId ∧
          e0.device.sessions.get? peerId = some s ∧ 256 ^ 4 ≤ s.localSequence)⌝⟩⦄ := by
  -- Not established, the arguments of the builder, and its two ways to raise.
  mvcgen [sendData, requireEstablished, requirePeer]
  · rename_i h _
    exact Or.inl ⟨by decide, h.1⟩
  · rename_i h hest _ hid
    rcases h.2.hasPeer (Or.inr (Or.inr (not_not.mp hest))) with ⟨_, _, _, hid', _, _, hlen⟩
    rw [hid, Option.some.injEq] at hid'
    rw [hid']
    exact hlen
  · omega
  · exact fun _ hno => absurd (by assumption) hno
  · rename_i h _ _ hid _ _
    rcases h with ⟨rfl, _⟩
    rintro (⟨hkind, rfl⟩ | ⟨hkind, s, hget, hle⟩)
    · left
      rw [hkind]
      exact ⟨by decide, rfl⟩
    · exact Or.inr ⟨hkind, _, s, hid, hget, hle⟩
  · rename_i h hest hnone
    rcases h.2.hasPeer (Or.inr (Or.inr (not_not.mp hest))) with ⟨_, _, _, hid, _⟩
    rw [hnone] at hid
    cases hid

/-- A handler settles a peer together with its fields. -/
theorem outcome_hasPeer {env : Env} {p : Packet} {e : Endpoint C}
    {r : EStateM.Result Exn (Endpoint C) (Option Bytes)} (hout : Outcome env p e r)
    (h : e.proto.Settled → e.proto.HasPeer) : r.final.proto.Settled → r.final.proto.HasPeer := by
  cases hout with
  | hello _ _ hhello =>
      -- Past the length check the three fields have been written.
      cases hhello with
      | short => exact h
      | answered | unanswered | refused | halfway | exchanged | unconfirmed | unexpected =>
          exact fun _ => metHello_hasPeer e.proto p
  | keyExchange _ _ hke =>
      cases hke with
      | refused | halfway | stale | unconfirmed | unanswered | unexpected => exact h
      | established _ _ _ hstate _ _ _ _ hfinal =>
          rw [hfinal]
          exact fun _ => h (Or.inl hstate)
      | answered hstate => exact fun _ => h (Or.inr (Or.inl hstate))
  | accepted | rejected => exact h
  | bye =>
      simp only [EStateM.Result.final, afterBye]
      by_cases hest : e.proto.state = .established
      · rw [if_pos hest]
        rintro (hno | hno | hno) <;> cases hno
      · rw [if_neg hest]
        exact h
  | error => rintro (hno | hno | hno) <;> cases hno

end Endpoint

/-- No act takes the fields of a chosen peer away. -/
theorem live_hasPeer (h : Host C) (a : LifeAct)
    (hall : ∀ i, (h.protocols i).Settled → (h.protocols i).HasPeer) (i : Nat) :
    ((h.live a).protocols i).Settled → ((h.live a).protocols i).HasPeer := by
  cases a with
  | rotateKey | generateEphemeralKeypair | registerPendingPeer | completeKeyExchange =>
      exact hall i
  | act a =>
      have hmoved := step_moved h a
      simp only [Host.live]
      generalize h.step a = h' at hmoved
      cases hmoved with
      | stayed | drew | keyed | observed | removed => exact hall i
      | initiated j env peerId st _ hst =>
          by_cases hij : i = j
          · subst hij
            rw [Host.put_protocols_self]
            -- Neither of the two states it can be in has a peer chosen.
            rcases hst with rfl | rfl
            · rintro (hno | hno | hno) <;> cases hno
            · rintro (hno | hno | hno) <;> cases hno
          · rw [Host.put_protocols_ne _ _ hij]
            exact hall i
      | handled j env raw p d r _ _ _ hout =>
          by_cases hij : i = j
          · subst hij
            rw [Host.put_protocols_self]
            exact Endpoint.outcome_hasPeer hout (hall i)
          · rw [Host.put_protocols_ne _ _ hij]
            exact hall i

/-- Every protocol of a reachable host can rely on its state. -/
theorem coherent_of_reachable (C : Primitives) (identityPrivate : Bytes) (life : List LifeAct)
    (i : Nat) :
    ((life.foldl Host.live (Host.create C identityPrivate)).endpoint i).Coherent := by
  refine ⟨Device.aligned_of_reachable C identityPrivate life, ?_⟩
  refine along_invariant
    (fun h : Host C => ∀ j, (h.protocols j).Settled → (h.protocols j).HasPeer)
    (fun h a hall _ => live_hasPeer h a hall) _ life ?_ (along_true _ life) i
  -- A new protocol has chosen no peer.
  rintro j (hno | hno | hno) <;> cases hno

/-- After any use of a device and its protocols, on any bytes and with any data: what
    `process_incoming` and `receive_data` raise is an exception of the protocol,
    `ValueError` or `InvalidTag`, and a packet that is not what it claims changes
    nothing. `initiate` raises where the protocol is not idle, and nowhere else.
    `send_data` raises where there is no session, with nothing changed, or where its
    session has used up its sequence numbers. The clock is before the end of its field,
    identifiers have their length, and messages fit into one call of the cipher. -/
theorem exceptions_closed (C : Primitives) (identityPrivate : Bytes) (life : List LifeAct)
    (i : Nat) (env : Env) (hparse : env.parseMs < 256 ^ 8) (hbuild : env.buildMs < 256 ^ 8) :
    let e := (life.foldl Host.live (Host.create C identityPrivate)).endpoint i
    (∀ raw x e', (Endpoint.processIncoming env raw).run e = .error x e' →
      x.kind ∈ incomingErrors ∧ (x.kind ∈ forgeryErrors → e' = e)) ∧
    (∀ raw x e', (Endpoint.receiveData env raw).run e = .error x e' →
      x.kind ∈ incomingErrors ∧ (x.kind ∈ forgeryErrors → e' = e)) ∧
    (∀ peerId x e', peerId.length = 32 →
      (Endpoint.initiate env peerId).run e = .error x e' →
        x.kind = .handshakeError ∧ e' = e) ∧
    (∀ plaintext x e', plaintext.length < 2 ^ 31 →
      (Endpoint.sendData env plaintext).run e = .error x e' →
        (x.kind ∈ [ErrorKind.handshakeError, .sessionNotFoundError] ∧ e' = e) ∨
        (x.kind = .structError ∧ ∃ peerId s, e.proto.peerId = some peerId ∧
          e.device.sessions.get? peerId = some s ∧ 256 ^ 4 ≤ s.localSequence)) := by
  intro e
  -- Every reachable endpoint is coherent, which is what the specifications ask for.
  have hcoh : e.Coherent := coherent_of_reachable C identityPrivate life i
  refine ⟨fun raw x e' hrun => ?_, fun raw x e' hrun => ?_, fun peerId x e' hpeer hrun => ?_,
    fun plaintext x e' hplain hrun => ?_⟩
  · exact raised_of_triple (Endpoint.processIncoming_spec env raw hparse hbuild e) ⟨rfl, hcoh⟩ hrun
  · exact raised_of_triple (Endpoint.receiveData_spec env raw hparse e) rfl hrun
  · exact raised_of_triple (Endpoint.initiate_spec env peerId hbuild hpeer e) ⟨rfl, hcoh⟩ hrun
  · exact raised_of_triple (Endpoint.sendData_spec env plaintext hbuild hplain e) ⟨rfl, hcoh⟩ hrun

/-- A host in the middle of a handshake takes bytes that are no packet. -/
theorem exceptions_closed_midway :
    let e := ((toyAffairs.take 2).foldl Host.live (Host.create toyPrimitives [7])).endpoint 0
    e.proto.state = .helloSent ∧
      ∃ x, (Endpoint.processIncoming toyEnv [0x5A]).run e = .error x e ∧
        x.kind ∈ incomingErrors := by
  intro e
  have hstate : e.proto.state = .helloSent := by decide +kernel
  have hparse : ∃ x, Packet.fromBytes toyEnv.parseMs [0x5A] = .error x := ⟨_, rfl⟩
  rcases hparse with ⟨x, hx⟩
  have hrefused : (Device.receivePacket toyEnv [0x5A]).run e.device = .error x e.device := by
    simp only [Device.receivePacket, EStateM.run_bind, EStateM.run_get, hx, run_ofExcept_error]
  have hrun := Endpoint.processIncoming_of_refused toyEnv [0x5A] e x
    (by rw [hstate]; decide) hrefused
  exact ⟨hstate, x, hrun, ((exceptions_closed toyPrimitives [7] (toyAffairs.take 2) 0 toyEnv
    (by decide) (by decide)).1 _ _ _ hrun).1⟩

end Ztlnp
