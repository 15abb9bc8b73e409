import Ztlnp.Theory.Handshake
import Ztlnp.Theory.Link
import Ztlnp.Theory.Reacknowledge

/-!
# Reception

What has to be true of bytes before a device acts on them, and what it then
changes.

A packet of a known sender is authenticated before anything is written, and
the only thing that is written is the replay state of the session it came
through. So a refusal leaves no trace, and neither does a HELLO or a packet of
a sender whose session does not exist yet.

There are two ways to authenticate a packet of a session, a signature and a
tag. They use different keys, but between devices that hold the same keys for
each other nothing else depends on which one was chosen: both packets carry
the same number and the same time, so the replay check takes the same decision
about both and writes the same.

## Main definitions

* `Device.Authentic`: A packet verifies under the key on file for its sender.

## Theorems

* `authentication_precedes_change`: The outcomes of a reception.
* `Device.sealPacket_fits`: A packet that fits its header can be sealed.
* `mac_path_agrees`: Signature and tag have the same effect.
-/

namespace Ztlnp

variable {C : Primitives}

namespace Device

/-- The signature field verifies over the signed bytes, under the key material
    that is on file for the sender: the MAC key of its session if the packet
    asks for that, otherwise the Ed25519 key of the session, or the pending one
    if there is no session yet. -/
def Authentic (d : Device C) (p : Packet) : Prop :=
  match d.sessions.get? p.senderId with
  | some s =>
    if p.macAuth then CryptoEngine.verifyPacketMac C s.macKey p = .ok true
    else CryptoEngine.verifyPacket C s.peerEd25519Public p = .ok true
  | none => ∃ key, d.pendingPeerKeys.get? p.senderId = some key ∧
      CryptoEngine.verifyPacket C key p = .ok true

end Device

/-- Whatever arrives, a refusal and a HELLO change nothing. Any other packet
    that is returned is authentic, and has passed one replay check of the
    session of its sender, if there is one, which is all that was written. -/
theorem authentication_precedes_change (d : Device C) (env : Env) (raw : Bytes) :
    match (Device.receivePacket env raw).run d with
    | .error _ d' => d' = d
    | .ok p d' =>
      if p.ptype = .hello then d' = d
      else d.Authentic p ∧
        match d.sessions.get? p.senderId with
        | none => d' = d
        | some s => ∃ t : Session,
            (Session.checkReplay env.receiveMs p.sequence p.timestampMs).run s = .ok () t ∧
            t = { s with peerMaxSeq := t.peerMaxSeq, peerSeqWindow := t.peerSeqWindow } ∧
            d' = { d with sessions := d.sessions.set p.senderId t } := by
  -- Each way of being received names the key it was checked under and the state it leaves.
  rcases Device.receivePacket_cases env raw d with ⟨p, d', hrec⟩ | ⟨x, hrun⟩
  · rw [Device.receivePacket_of_received env raw d d' p hrec]
    cases hrec with
    | hello hparse htype hverify => simp only [if_pos htype]
    | session s hparse htype hget hverify hadmits =>
        simp only [if_neg htype, Device.Authentic, hget]
        exact ⟨hverify, s.recorded p.sequence, Session.checkReplay_admits s _ _ _ hadmits, rfl, rfl⟩
    | pending key hparse htype hget hkey hverify =>
        simp only [if_neg htype, Device.Authentic, hget]
        exact ⟨⟨key, hkey, hverify⟩, trivial⟩
  · rw [hrun]

namespace Device

/-- A packet whose numbers fit the header can be sealed, by either key, and
    serialises. -/
theorem sealPacket_fits (d : Device C) (env : Env) (t : PacketType) (flags : Nat)
    (peerId plaintext : Bytes) (s : Session) (n : Nat)
    (auth : Device C → Session → Packet → Except Exn Bytes)
    (hauth : auth = signed ∨ auth = tagged) (hfits : env.Fits peerId) (hflags : flags < 256 ^ 2)
    (hn : n < 256 ^ 4) (hlen : plaintext.length + 16 < 256 ^ 4) :
    ∃ p raw, d.sealPacket env t flags peerId plaintext s n auth = .ok p ∧
      p.toBytes = .ok raw := by
  rcases PacketFields.postInit_cases env.buildMs
    { ptype := t, senderId := d.deviceId, recipientId := peerId,
      payload := C.aesGcmEncrypt s.sessionKey env.nonce plaintext, flags := flags,
      sequence := n, nonce := env.nonce } with ⟨_, q, hq⟩ | ⟨hbad, _⟩
  · have hf := PacketFields.postInit_eq_ok _ _ _ hq
    rw [if_pos rfl] at hf
    have hpack : q.Packable := by
      simp only [Packet.Packable, hf, C.aesGcmEncrypt_length]
      exact ⟨hflags, hfits.2, hn, hlen⟩
    -- Either key authenticates whatever serialises.
    have hsig : ∃ sig, auth d s q = .ok sig := by
      rcases hauth with rfl | rfl
      · exact ⟨_, (CryptoEngine.signPacket_eq_ok C _ q _).mpr ⟨hpack, rfl⟩⟩
      · exact ⟨_, (CryptoEngine.macPacket_eq_ok C _ q _).mpr ⟨hpack, rfl⟩⟩
    rcases hsig with ⟨sig, hsig⟩
    refine ⟨{ q with signature := sig }, _, ?_, (Packet.toBytes_eq_ok _ _).mpr ⟨hpack, rfl⟩⟩
    simp only [sealPacket, hq, hsig, bind, Except.bind, pure, Except.pure]
  · exact absurd ⟨d.deviceId_length, hfits.1, env.nonce_length⟩ hbad

end Device

/-- A packet that carries a plaintext for a session is returned and decrypts, or
    it is refused. The replay check decides. -/
theorem Wraps.delivered {id raw plaintext : Bytes} {t : Session} {n : Nat} {p : Packet}
    (h : Wraps C id t raw n plaintext p) (b : Device C) (env : Env)
    (hget : b.sessions.get? id = some t) :
    (t.Admits env.receiveMs n p.timestampMs ∧
      (Device.receivePacket env raw).run b = .ok p (b.noted id t n) ∧
      (Device.decryptPacket p).run (b.noted id t n) = .ok plaintext (b.noted id t n)) ∨
    (¬ t.Admits env.receiveMs n p.timestampMs ∧
      ∃ x, (Device.receivePacket env raw).run b = .error x b) := by
  rw [h.timestampMs_eq]
  rcases receivePacket_wraps b env id raw plaintext t n p h hget with ⟨hadmits, hrun⟩ | hrefused
  · left
    refine ⟨hadmits, hrun, (Device.decryptPacket_eq_ok p _ _ plaintext).mpr ⟨?_, rfl⟩⟩
    refine ⟨t.recorded n, ?_, h.decrypts⟩
    rw [h.senderId]
    exact Dict.get?_set_self _ _ _
  · exact Or.inr hrefused

/-- Between two devices that hold the same keys for each other, of which the
    receiver knows the sender's Ed25519 key, the two ways of building a DATA
    packet around a plaintext, under the same number and at the same time, have
    the same effect. The packets are both accepted, leave the same receiver and
    decrypt to the plaintext, or they are both refused. -/
theorem mac_path_agrees (a b : Device C) (s t : Session) (env env' at' : Env) (plaintext : Bytes)
    (hsending : a.sessions.get? b.deviceId = some s)
    (hreceiving : b.sessions.get? a.deviceId = some t)
    (hkey : s.sessionKey = t.sessionKey) (hmac : s.macKey = t.macKey)
    (hpub : t.peerEd25519Public = a.identityPublicBytes)
    (hlen : plaintext.length < 2 ^ 32 - 16) (hsequence : s.localSequence < 2 ^ 32)
    (htime : env.buildMs < 2 ^ 64) (hsame : env'.buildMs = env.buildMs) :
    ∃ p q raw raw',
      (Device.buildDataPacket env b.deviceId plaintext).run a = .ok p (a.advanced b.deviceId s) ∧
      (Device.buildDataPacketMac env' b.deviceId plaintext).run a
        = .ok q (a.advanced b.deviceId s) ∧
      (p.sequence = s.localSequence ∧ q.sequence = s.localSequence) ∧
      (p.timestampMs = env.buildMs ∧ q.timestampMs = env.buildMs) ∧
      p.toBytes = .ok raw ∧ q.toBytes = .ok raw' ∧
      ((∃ b', (Device.receivePacket at' raw).run b = .ok p b' ∧
          (Device.receivePacket at' raw').run b = .ok q b' ∧
          (Device.decryptPacket p).run b' = .ok plaintext b' ∧
          (Device.decryptPacket q).run b' = .ok plaintext b') ∨
        ∃ x y, (Device.receivePacket at' raw).run b = .error x b ∧
          (Device.receivePacket at' raw').run b = .error y b) := by
  -- The two builders differ in the flag and in the last field, and both packets fit.
  have hn : s.localSequence < 256 ^ 4 := by
    omega
  have hlong : plaintext.length + 16 < 256 ^ 4 := by
    omega
  have hms : env.buildMs < 256 ^ 8 := by
    omega
  have hfits : env.Fits b.deviceId := ⟨b.deviceId_length, hms⟩
  have hfits' : env'.Fits b.deviceId := ⟨b.deviceId_length, hsame ▸ hms⟩
  rcases (a.advanced b.deviceId s).sealPacket_fits env .data flagEncrypted b.deviceId plaintext s
    s.localSequence Device.signed (Or.inl rfl) hfits (by decide) hn hlong with
    ⟨p, raw, hp, hraw⟩
  rcases (a.advanced b.deviceId s).sealPacket_fits env' .data (flagEncrypted ||| flagMacAuth)
    b.deviceId plaintext s s.localSequence Device.tagged (Or.inr rfl) hfits' (by decide) hn
    hlong with ⟨q, raw', hq, hraw'⟩
  -- The receiver holds the same keys, so it opens the one and the other.
  have hpw := signed_wraps _ _ _ _ _ _ _ t _ _ (by decide) hp hraw hkey hpub
  have hqw := tagged_wraps _ _ _ _ _ _ t _ _ hq hraw' hkey hmac
  have hps := (Device.sealPacket_eq_ok _ _ _ _ _ _ _ _ _ _ hp).1
  have hqs := (Device.sealPacket_eq_ok _ _ _ _ _ _ _ _ _ _ hq).1
  refine ⟨p, q, raw, raw', ?_, ?_, ⟨hps.sequence, hqs.sequence⟩,
    ⟨hps.timestampMs, hqs.timestampMs.trans hsame⟩, hraw, hraw', ?_⟩
  · rw [Device.buildDataPacket, Device.buildSealed_some _ _ _ _ _ _ _ _ hsending, hp]
    rfl
  · rw [Device.buildDataPacketMac, Device.buildSealed_some _ _ _ _ _ _ _ _ hsending, hq]
    rfl
  · -- The same number and the same time, so the same decision.
    have hpd := hpw.delivered b at' hreceiving
    have hqd := hqw.delivered b at' hreceiving
    rw [hps.timestampMs] at hpd
    rw [hqs.timestampMs, hsame] at hqd
    rcases hpd with ⟨hadmits, hrun, hdec⟩ | ⟨hadmits, x, hrun⟩
    · rcases hqd with ⟨_, hrun', hdec'⟩ | ⟨hnot, _⟩
      · exact Or.inl ⟨_, hrun, hrun', hdec, hdec'⟩
      · exact absurd hadmits hnot
    · rcases hqd with ⟨hyes, _⟩ | ⟨_, y, hrun'⟩
      · exact absurd hyes hadmits
      · exact Or.inr ⟨x, y, hrun, hrun'⟩

/-- Two devices after a handshake hold the same keys. -/
theorem mac_path_agrees_afterHandshake :
    let a := (toyEnds {}).1.endpoint.device
    let b := (toyEnds {}).2.endpoint.device
    ∃ p q raw raw',
      ((Device.buildDataPacket toyEnv b.deviceId [42]).run a).returned = some p ∧
      ((Device.buildDataPacketMac toyEnv b.deviceId [42]).run a).returned = some q ∧
      p.toBytes = .ok raw ∧ q.toBytes = .ok raw' ∧
      ((∃ b', (Device.receivePacket toyEnv raw).run b = .ok p b' ∧
          (Device.receivePacket toyEnv raw').run b = .ok q b' ∧
          (Device.decryptPacket p).run b' = .ok [42] b' ∧
          (Device.decryptPacket q).run b' = .ok [42] b') ∨
        ∃ x y, (Device.receivePacket toyEnv raw).run b = .error x b ∧
          (Device.receivePacket toyEnv raw').run b = .error y b) := by
  intro a b
  have hends : ∃ s ∈ a.sessions.get? b.deviceId, ∃ t ∈ b.sessions.get? a.deviceId,
      s.sessionKey = t.sessionKey ∧ s.macKey = t.macKey ∧
        t.peerEd25519Public = a.identityPublicBytes ∧ s.localSequence < 2 ^ 32 := by
    decide +kernel
  rcases hends with ⟨s, hs, t, ht, hkey, hmac, hpub, hn⟩
  rcases mac_path_agrees a b s t toyEnv toyEnv toyEnv [42] hs ht hkey hmac hpub (by decide) hn
    (by decide) rfl with ⟨p, q, raw, raw', hp, hq, _, _, hraw, hraw', hdelivered⟩
  refine ⟨p, q, raw, raw', ?_, ?_, hraw, hraw', hdelivered⟩
  · rw [hp]
    rfl
  · rw [hq]
    rfl

end Ztlnp
