import Ztlnp.Theory.Isolation

/-!
# Packets for Somebody Else

What a device does with a packet that was built for another.

Every builder writes the recipient into the header and signs it, and no
receiver reads it. A packet built for one peer and delivered to another is
therefore judged as if it had been built for the receiver: a HELLO is always
let through, and any other packet exactly when it verifies under what the
receiver has on file for the sender and passes the replay check there. Ed25519
packets of a device verify wherever its key is on file, so for them only the
replay check is left.

## Main definitions

* `Built`: The packets a device builds for a peer.
* `Endpoint.Rejects`: Both entry points refuse the bytes and change nothing.
* `Device.Refuses`: When a packet is refused.

## Theorems

* `built_genuine`: What the builders have in common.
* `built_parses`: A built packet parses to itself.
* `receivePacket_rejects`: Reception refuses a packet exactly when `Refuses`
  says so.
* `no_misdelivery`: A packet built for another is refused exactly when
  `Refuses` says so; where the sender's own key is on file, exactly when it
  is no HELLO and the replay check refuses it.
* `misdelivered_bye_closes`: A BYE for one peer closes the session of another.
-/

namespace Ztlnp

variable {C : Primitives}

/-- A packet that a device built for a peer, by a builder method or as the
    confirmation of a handshake. -/
inductive Built (a : Device C) (env : Env) (peerId : Bytes) : Packet → Prop
  | builder (b : Builder) (p : Packet) (a' : Device C)
      (h : (b.run env peerId).run a = .ok p a') : Built a env peerId p
  | keyExchange (s : Session) (n : Nat) (p : Packet) (hget : a.sessions.get? peerId = some s)
      (h : a.sealPacket env .keyExchange flagEncrypted peerId keyExchangeOk s n Device.signed
        = .ok p) : Built a env peerId p

/-- What the receiver's entry points do with bytes they reject: they raise,
    and leave the sender's session and the state of the protocol alone. -/
def Endpoint.Rejects (e : Endpoint C) (env : Env) (raw senderId : Bytes) : Prop :=
  (∃ x d, (Device.receivePacket env raw).run e.device = .error x d ∧
    d.sessions.get? senderId = e.device.sessions.get? senderId) ∧
  (∃ x e', (Endpoint.processIncoming env raw).run e = .error x e' ∧
    e'.device.sessions.get? senderId = e.device.sessions.get? senderId ∧
    e'.proto.state = e.proto.state)

/-- A packet is refused: it is no HELLO, and it fails authentication or the
    replay check against what is on file for its sender. -/
def Device.Refuses (d : Device C) (env : Env) (p : Packet) : Prop :=
  p.ptype ≠ .hello ∧
    match d.sessions.get? p.senderId with
    | some s => ¬ Device.Verifies C s p ∨ ¬ s.Admits env.receiveMs p.sequence p.timestampMs
    | none => ∀ key, d.pendingPeerKeys.get? p.senderId = some key →
        CryptoEngine.verifyPacket C key p ≠ .ok true

/-- What the builders have in common. -/
structure Genuine (a : Device C) (env : Env) (peerId : Bytes) (p : Packet) : Prop where
  senderId : p.senderId = a.deviceId
  recipientId : p.recipientId = peerId
  timestampMs : p.timestampMs = env.buildMs
  signature_length : p.signature.length = sigSize
  hello : p.ptype = .hello → CryptoEngine.verifyPacket C (p.payload.take 32) p = .ok true
  signed : p.ptype ≠ .hello → p.macAuth = false →
    CryptoEngine.verifyPacket C a.identityPublicBytes p = .ok true

/-- A packet sealed by the device's own key. -/
theorem genuine_signed (a : Device C) (env : Env) (t : PacketType) (peerId plaintext : Bytes)
    (s : Session) (n : Nat) (p : Packet) (ht : t ≠ .hello)
    (h : a.sealPacket env t flagEncrypted peerId plaintext s n Device.signed = .ok p) :
    Genuine a env peerId p := by
  have hseal := (Device.sealPacket_eq_ok _ _ _ _ _ _ _ _ _ _ h).1
  refine ⟨hseal.senderId, hseal.recipientId, hseal.timestampMs,
    Device.sealPacket_signature_length _ _ _ _ _ _ _ _ _ _ (Or.inl rfl) h, fun hp => ?_,
    fun _ _ => Device.sealPacket_signed_verifies _ _ _ _ _ _ _ _ _ h⟩
  rw [hseal.ptype] at hp
  exact absurd hp ht

/-- A packet sealed by the MAC key. -/
theorem genuine_tagged (a : Device C) (env : Env) (peerId plaintext : Bytes)
    (s : Session) (n : Nat) (p : Packet)
    (h : a.sealPacket env .data (flagEncrypted ||| flagMacAuth) peerId plaintext s n
      Device.tagged = .ok p) : Genuine a env peerId p := by
  have hseal := (Device.sealPacket_eq_ok _ _ _ _ _ _ _ _ _ _ h).1
  refine ⟨hseal.senderId, hseal.recipientId, hseal.timestampMs,
    Device.sealPacket_signature_length _ _ _ _ _ _ _ _ _ _ (Or.inr rfl) h, fun hp => ?_,
    fun _ hmac => ?_⟩
  · rw [hseal.ptype] at hp
    simp only [reduceCtorEq] at hp
  · -- The flag is set, so nothing is said about a signature.
    rw [Packet.macAuth, hseal.flags] at hmac
    exact absurd hmac (by decide)

/-- Every built packet is genuine. -/
theorem built_genuine (a : Device C) (env : Env) (peerId : Bytes) (p : Packet)
    (h : Built a env peerId p) : Genuine a env peerId p := by
  -- Drawing a number does not touch the identity a packet is signed with.
  have hadv : ∀ s, Genuine (a.advanced peerId s) env peerId p → Genuine a env peerId p :=
    fun _ g => ⟨g.senderId, g.recipientId, g.timestampMs, g.signature_length, g.hello, g.signed⟩
  cases h with
  | keyExchange s n _ hget hp =>
      exact genuine_signed a env .keyExchange peerId keyExchangeOk s n p (by decide) hp
  | builder b _ a' hp =>
      cases b with
      | data plaintext =>
          rcases Device.buildSealed_eq_ok _ _ _ _ _ _ _ _ _ hp with ⟨s, _, _, hs⟩
          exact hadv s (genuine_signed _ env .data peerId plaintext s _ p (by decide) hs)
      | dataMac plaintext =>
          rcases Device.buildSealed_eq_ok _ _ _ _ _ _ _ _ _ hp with ⟨s, _, _, hs⟩
          exact hadv s (genuine_tagged _ env peerId plaintext s _ p hs)
      | bye =>
          rcases Device.buildSealed_eq_ok _ _ _ _ _ _ _ _ _ hp with ⟨s, _, _, hs⟩
          exact hadv s (genuine_signed _ env .bye peerId _ s _ p (by decide) hs)
      | ack n =>
          simp only [Builder.run, Device.buildAckPacket, run_bind_eq_ok, run_ofExcept_eq_ok,
            Device.getSession_eq_ok] at hp
          rcases hp with ⟨_, _, ⟨_, rfl⟩, payload, _, ⟨_, rfl⟩, hp⟩
          rcases Device.buildSealed_eq_ok _ _ _ _ _ _ _ _ _ hp with ⟨s, _, _, hs⟩
          exact hadv s (genuine_signed _ env .ack peerId _ s _ p (by decide) hs)
      -- The HELLO is the only packet without a session: its key pair comes from the table of
      -- ephemerals.
      | hello =>
          simp only [Builder.run, Device.buildHelloPacket, Option.getD_some, run_bind_eq_ok,
            run_ofExcept_eq_ok] at hp
          rcases hp with ⟨x, d, hgen, d', d'', hget, hp, _⟩
          have hd : d' = d := by
            simp only [EStateM.run_get, EStateM.Result.ok.injEq] at hget
            exact hget.1.symm
          have hfin := Device.generateEphemeralKeypair_final env peerId a
          rw [hgen] at hfin
          have hid : d.deviceId = a.deviceId := by
            have hdev : d = a.withEphemeral env peerId := hfin
            rw [hdev, Device.withEphemeral]
            by_cases hnone : a.ephemeralPrivate.get? peerId = none
            · rw [if_pos hnone]
            · rw [if_neg hnone]
          rcases Device.helloPacket_eq_ok d' env peerId x p hp with
            ⟨htype, hsender, hrecip, htime, hsig, hver⟩
          exact ⟨by rw [hsender, hd, hid], hrecip, htime, hsig, fun _ => hver,
            fun hne => absurd htype hne⟩

/-- A built packet parses to itself. -/
theorem built_parses (a : Device C) (env : Env) (peerId raw : Bytes) (p : Packet) (nowMs : Nat)
    (h : Built a env peerId p) (hraw : p.toBytes = .ok raw) :
    Packet.fromBytes nowMs raw = .ok p := by
  have hg := built_genuine a env peerId p h
  -- A zero timestamp would be replaced on parsing, and a build never writes one.
  refine Packet.fromBytes_toBytes p raw nowMs hraw hg.signature_length ?_
  rw [hg.timestampMs]
  exact env.buildMs_ne

/-- Reception refuses a packet exactly when `Refuses` says so, provided that
    a HELLO verifies under the key it carries. -/
theorem receivePacket_rejects (d : Device C) (env : Env) (raw : Bytes) (p : Packet)
    (hparse : Packet.fromBytes env.parseMs raw = .ok p)
    (hhello : p.ptype = .hello → CryptoEngine.verifyPacket C (p.payload.take 32) p = .ok true) :
    (¬ ∃ q d', Device.Received d env raw q d') ↔ d.Refuses env p := by
  constructor
  · -- What is not received would be, if none of the reasons to refuse it held.
    intro hno
    have htype : p.ptype ≠ .hello := fun ht => hno ⟨p, d, .hello p hparse ht (hhello ht)⟩
    refine ⟨htype, ?_⟩
    cases hget : d.sessions.get? p.senderId with
    | some s =>
        by_cases hver : Device.Verifies C s p
        · exact Or.inr fun hadmits => hno ⟨p, _, .session p s hparse htype hget hver hadmits⟩
        · exact Or.inl hver
    | none => exact fun key hkey hver => hno ⟨p, d, .pending p key hparse htype hget hkey hver⟩
  · -- Each way to be received contradicts the reason that applies to it.
    rintro ⟨htype, href⟩ ⟨q, d', hrec⟩
    have heq : q = p := Except.ok.inj ((Device.received_parse _ _ _ _ _ hrec).symm.trans hparse)
    subst heq
    cases hrec with
    | hello _ ht => exact htype ht
    | session s _ _ hget hver hadmits =>
        rw [hget] at href
        rcases href with h | h
        · exact h hver
        · exact h hadmits
    | pending key _ _ hget hkey hver =>
        rw [hget] at href
        exact href key hkey hver

/-- The two entry points refuse bytes exactly when reception does. -/
theorem rejects_iff_not_received (e : Endpoint C) (env : Env) (raw senderId : Bytes) :
    e.Rejects env raw senderId ↔ ¬ ∃ q d', Device.Received e.device env raw q d' := by
  constructor
  · rintro ⟨⟨x, d, hx, _⟩, _⟩ ⟨q, d', hrec⟩
    rw [Device.receivePacket_of_received env raw e.device d' q hrec] at hx
    simp only [reduceCtorEq] at hx
  · intro hno
    rcases Device.receivePacket_cases env raw e.device with hrec | ⟨x, hx⟩
    · exact absurd hrec hno
    · refine ⟨⟨x, e.device, hx, rfl⟩, ?_⟩
      rcases Endpoint.processIncoming_cases env raw e with ⟨y, hy⟩ | ⟨_, p, d, hrec, _⟩
      · exact ⟨y, e, hy, rfl, rfl⟩
      · exact absurd ⟨p, d, hrec⟩ hno

/-- A packet that reception returns is not refused. -/
theorem not_rejects_of_returned (e : Endpoint C) (env : Env) (raw senderId : Bytes)
    (h : ((Device.receivePacket env raw).run e.device).returned ≠ none) :
    ¬ e.Rejects env raw senderId := by
  rintro ⟨⟨x, d, hx, _⟩, _⟩
  rw [hx] at h
  exact h rfl

/-- A packet that one device built for a second and that reaches a third is
    refused exactly when `Refuses` says so, whatever its recipient field. If
    the third has the first one's own key on file, a signed packet is refused
    exactly when it is no HELLO and the replay check refuses it. -/
theorem no_misdelivery (a : Device C) (env : Env) (peerId raw : Bytes) (p : Packet)
    (hbuilt : Built a env peerId p) (hraw : p.toBytes = .ok raw) (e : Endpoint C) (env' : Env) :
    (e.Rejects env' raw a.deviceId ↔ e.device.Refuses env' p) ∧
    (∀ s, e.device.sessions.get? a.deviceId = some s →
      s.peerEd25519Public = a.identityPublicBytes → p.macAuth = false →
      (e.Rejects env' raw a.deviceId ↔
        p.ptype ≠ .hello ∧ ¬ s.Admits env'.receiveMs p.sequence p.timestampMs)) := by
  have hg := built_genuine a env peerId p hbuilt
  have hiff : e.Rejects env' raw a.deviceId ↔ e.device.Refuses env' p :=
    (rejects_iff_not_received e env' raw a.deviceId).trans
      (receivePacket_rejects e.device env' raw p
        (built_parses a env peerId raw p env'.parseMs hbuilt hraw) hg.hello)
  refine ⟨hiff, fun s hget hkey hmac => ?_⟩
  -- Verification succeeds under the key of the builder, which leaves the replay check.
  rw [hiff, Device.Refuses, hg.senderId, hget]
  constructor
  · rintro ⟨htype, hver | hadmits⟩
    · rw [Device.Verifies, if_neg (by simp only [hmac, Bool.false_eq_true, not_false_eq_true]),
        hkey] at hver
      exact absurd (hg.signed htype hmac) hver
    · exact ⟨htype, hadmits⟩
  · exact fun h => ⟨h.1, Or.inr h.2⟩

/-- Bytes that were built come from a built packet. -/
theorem built_of_builtBytes (h : Host C) (env : Env) (peerId : Bytes) (b : Builder)
    (hne : builtBytes h env peerId b ≠ []) :
    ∃ p, Built h.device env peerId p ∧ p.toBytes = .ok (builtBytes h env peerId b) ∧
      ((b.run env peerId).run h.device).returned = some p := by
  unfold builtBytes at hne ⊢
  cases hrun : (b.run env peerId).run h.device with
  | error x d =>
      rw [hrun] at hne
      exact absurd rfl hne
  | ok p d =>
      rw [hrun] at hne
      refine ⟨p, .builder b p d hrun, ?_, rfl⟩
      cases hbytes : p.toBytes with
      | ok raw => simp only [hbytes, Except.toOption, Option.getD_some]
      | error x =>
          simp only [hbytes] at hne
          exact absurd rfl hne

/-- A device with two peers: its host, the host of the first, and the host of
    the second. -/
def twoRecipients : Host toyPrimitives × Host toyPrimitives × Host toyPrimitives :=
  let alice := Host.create toyPrimitives [1]
  let (alice, bob, _) := toyHandshake alice (Host.create toyPrimitives [7]) 0 0
  let (alice, carol, _) := toyHandshake alice (Host.create toyPrimitives [9]) 1 0
  (alice, bob, carol)

/-- The BYE for the first peer. -/
def byeForBob : Bytes :=
  builtBytes twoRecipients.1 toyEnv twoRecipients.2.1.device.deviceId .bye

/-- A minute later the second peer refuses the BYE for the first. -/
theorem late_misdelivered_bye_rejected :
    (twoRecipients.2.2.endpoint 0).Rejects { toyEnv with receiveMs := 61000 } byeForBob
      twoRecipients.1.device.deviceId := by
  have hrun : byeForBob ≠ [] ∧ (∀ p ∈ ((Builder.bye.run toyEnv
        twoRecipients.2.1.device.deviceId).run twoRecipients.1.device).returned,
        p.ptype ≠ .hello ∧ p.macAuth = false ∧ p.timestampMs = 1000) ∧
      ((twoRecipients.2.2.endpoint 0).device.sessions.get?
        twoRecipients.1.device.deviceId).map
        Session.peerEd25519Public = some twoRecipients.1.device.identityPublicBytes := by
    decide +kernel
  rcases hrun with ⟨hne, hp, hkey⟩
  rcases built_of_builtBytes _ _ _ _ hne with ⟨p, hbuilt, hraw, hret⟩
  rcases hp p hret with ⟨htype, hmac, htime⟩
  rcases Option.map_eq_some_iff.mp hkey with ⟨s, hs, hed⟩
  refine ((no_misdelivery twoRecipients.1.device toyEnv _ _ p hbuilt hraw
    (twoRecipients.2.2.endpoint 0) { toyEnv with receiveMs := 61000 }).2 s hs hed hmac).mpr
      ⟨htype, fun hadmits => ?_⟩
  have htimely := hadmits.1
  rw [htime] at htimely
  revert htimely
  decide

/-- In time, the second peer does not refuse it, and its protocol closes. -/
theorem misdelivered_bye_closes :
    ¬ (twoRecipients.2.2.endpoint 0).Rejects toyEnv byeForBob
        twoRecipients.1.device.deviceId ∧
      (twoRecipients.2.2.incoming 0 toyEnv byeForBob).final.proto.state = .closed := by
  have hrun : ((Device.receivePacket toyEnv byeForBob).run
        (twoRecipients.2.2.endpoint 0).device).returned ≠ none ∧
      (twoRecipients.2.2.incoming 0 toyEnv byeForBob).final.proto.state = .closed := by
    decide +kernel
  exact ⟨not_rejects_of_returned _ _ _ _ hrun.1, hrun.2⟩

end Ztlnp
