import Ztlnp.Theory.Reception

/-!
# How Control Packets Are Authenticated

The MAC key of a session is meant for DATA. Everything else is control plane,
and is verified under an Ed25519 key: the one a HELLO carries, or the one that
is on file for its sender.

A receiver chooses between signature and tag by a flag of the packet and by
whether there is a session, and does not look at the type. So a tag
authenticates an ACK or a BYE as well as DATA, if the sender asks for it. For
packets without the flag, of a sender without a session, and for every HELLO
the signature is checked, whatever the type (`Device.signed_of_received`).

## Main definitions

* `Device.Signed`: A packet carries the Ed25519 signature of its sender.
* `Device.ByTag`: A packet that is authenticated by its tag.
* `Device.ControlSigned`: What is returned, other than DATA, was signed.

## Theorems

* `Device.signed_of_received`: What is not taken by its tag was signed.
* `control_signed_iff`: When all that is returned was signed.
-/

namespace Ztlnp

variable {C : Primitives}

namespace Device

/-- The signature field verifies as an Ed25519 signature: under the key that a
    HELLO carries, and otherwise under the key that is recorded for the
    sender. -/
def Signed (d : Device C) (p : Packet) : Prop :=
  if p.ptype = .hello then CryptoEngine.verifyPacket C (p.payload.take 32) p = .ok true
  else match d.sessions.get? p.senderId with
    | some s => CryptoEngine.verifyPacket C s.peerEd25519Public p = .ok true
    | none => ∃ key, d.pendingPeerKeys.get? p.senderId = some key ∧
        CryptoEngine.verifyPacket C key p = .ok true

/-- The packet is authenticated by a tag under the MAC key of its session. -/
def ByTag (d : Device C) (p : Packet) : Prop :=
  p.ptype ≠ .hello ∧ p.macAuth = true ∧ ∃ s, d.sessions.get? p.senderId = some s

/-- What is returned is signed, unless it is taken by its tag. -/
theorem signed_of_received {d d' : Device C} {env : Env} {raw : Bytes} {p : Packet}
    (h : Received d env raw p d') (htag : ¬ d.ByTag p) : d.Signed p := by
  rw [Signed]
  cases h with
  | hello hparse htype hverify =>
      rw [if_pos htype]
      exact hverify
  | session s hparse htype hget hverify hadmits =>
      have hmac : ¬ p.macAuth = true := fun hc => htag ⟨htype, hc, s, hget⟩
      rw [Verifies, if_neg hmac] at hverify
      rw [if_neg htype, hget]
      exact hverify
  | pending key hparse htype hget hkey hverify =>
      rw [if_neg htype, hget]
      exact ⟨key, hkey, hverify⟩

/-- What is returned and taken by its tag has the tag of its session, and was
    admitted by it. -/
theorem tag_of_received {d d' : Device C} {env : Env} {raw : Bytes} {p : Packet}
    (h : Received d env raw p d') (htag : d.ByTag p) :
    ∃ s, d.sessions.get? p.senderId = some s ∧
      CryptoEngine.verifyPacketMac C s.macKey p = .ok true ∧
      s.Admits env.receiveMs p.sequence p.timestampMs := by
  rcases htag with ⟨hhello, hmac, s, hs⟩
  cases h with
  | hello hparse htype hverify => exact absurd htype hhello
  | session t hparse htype hget hverify hadmits =>
      rw [Verifies, if_pos hmac] at hverify
      exact ⟨t, hget, hverify, hadmits⟩
  | pending key hparse htype hget hkey hverify =>
      rw [hget] at hs
      cases hs

/-- Whatever is returned for some bytes, other than DATA, was signed and not
    taken by its tag. -/
def ControlSigned (d : Device C) (env : Env) (raw : Bytes) : Prop :=
  ∀ p, ((receivePacket env raw).run d).returned = some p → p.ptype ≠ .data →
    d.Signed p ∧ ¬ d.ByTag p

end Device

/-- What a device returns, other than DATA, was signed, exactly when the bytes
    are not those of a control packet with a valid tag of its session. -/
theorem control_signed_iff (d : Device C) (env : Env) (raw : Bytes) :
    d.ControlSigned env raw ↔
      ∀ p, Packet.fromBytes env.parseMs raw = .ok p → p.ptype ≠ .hello → p.ptype ≠ .data →
        p.macAuth = true → ∀ s, d.sessions.get? p.senderId = some s →
          ¬ (CryptoEngine.verifyPacketMac C s.macKey p = .ok true ∧
            s.Admits env.receiveMs p.sequence p.timestampMs) := by
  constructor
  · rintro h p hparse hhello hdata hmac s hs ⟨hverify, hadmits⟩
    have hverifies : Device.Verifies C s p := by
      rw [Device.Verifies, if_pos hmac]
      exact hverify
    have hrun := Device.receivePacket_of_received env raw d _ p
      (.session p s hparse hhello hs hverifies hadmits)
    exact (h p (by rw [hrun]; rfl) hdata).2 ⟨hhello, hmac, s, hs⟩
  · intro h p hp hdata
    have hrec := (Device.receivePacket_eq_ok env raw d _ p).mp (EStateM.Result.ok_of_returned hp)
    -- A control packet that was received is under a signature unless the tag stood in for it.
    have htag : ¬ d.ByTag p := by
      intro htag
      rcases Device.tag_of_received hrec htag with ⟨s, hs, hverify, hadmits⟩
      exact h p (Device.received_parse env raw d _ p hrec) htag.1 hdata htag.2.1 s hs
        ⟨hverify, hadmits⟩
    exact ⟨Device.signed_of_received hrec htag, htag⟩

/-- The bytes of an ACK with a tag in place of a signature, from one end of a
    session to the other. -/
def taggedAck : Bytes :=
  let a := (toyEnds {}).1.endpoint.device
  let b := (toyEnds {}).2.endpoint.device
  match (Device.buildSealed toyEnv .ack (flagEncrypted ||| flagMacAuth) b.deviceId [0, 0, 0, 0]
    Device.tagged).run a with
  | .ok p _ => match p.toBytes with
    | .ok raw => raw
    | .error _ => []
  | .error _ _ => []

/-- After a handshake an ACK is accepted on its tag alone. -/
theorem taggedAck_accepted :
    let b := (toyEnds {}).2.endpoint.device
    (∃ p, ((Device.receivePacket toyEnv taggedAck).run b).returned = some p ∧ p.ptype = .ack ∧
      ¬ b.Signed p) ∧ ¬ b.ControlSigned toyEnv taggedAck := by
  intro b
  have hack : ∃ p ∈ ((Device.receivePacket toyEnv taggedAck).run b).returned, p.ptype = .ack ∧
      ∃ s ∈ b.sessions.get? p.senderId,
        CryptoEngine.verifyPacket toyPrimitives s.peerEd25519Public p ≠ .ok true := by
    decide +kernel
  rcases hack with ⟨p, hp, htype, s, hs, hverify⟩
  have hunsigned : ¬ b.Signed p := by
    have hhello : ¬ p.ptype = .hello := by
      rw [htype]
      decide
    rw [Device.Signed, if_neg hhello, Option.mem_def.mp hs]
    exact hverify
  have hdata : p.ptype ≠ .data := by
    rw [htype]
    decide
  exact ⟨⟨p, hp, htype, hunsigned⟩, fun h => hunsigned (h p hp hdata).1⟩

end Ztlnp
