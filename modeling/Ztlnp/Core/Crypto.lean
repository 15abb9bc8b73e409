import Ztlnp.Core.Packet

/-!
# The Cryptographic Engine

The engine of `crypto.py` over primitives it does not define.

The primitives come from a library outside the sources, so they are a
parameter: `Primitives` bundles the functions with what their documentation
promises and the engine relies on. Output lengths, that verification accepts
an honest signature, that decryption inverts encryption, that the two sides
of a Diffie-Hellman exchange agree. Nothing in it says that a forgery or a
collision is impossible; a result that needs such an assumption names it.

The engine itself is modelled in full. A public key of the wrong length
raises while it is imported, before any verification, and a degenerate
Diffie-Hellman exchange raises as well, so both are fallible. A failed
signature check is a `False` and not an exception.

`toyPrimitives` is a lawful instance small enough to evaluate: digests are
residues, a signature is the public key followed by a digest. It is what the
concrete runs below the general theorems are evaluated with.

## Main definitions

* `Primitives`: The primitives and what is promised about them.
* `CryptoEngine.verify`, `CryptoEngine.x25519Exchange`,
  `CryptoEngine.deriveSessionKey`, `CryptoEngine.deriveMacKey`,
  `CryptoEngine.verifyMac`, `CryptoEngine.decrypt`: The engine.
* `CryptoEngine.signPacket`, `CryptoEngine.verifyPacket`,
  `CryptoEngine.macPacket`, `CryptoEngine.verifyPacketMac`: The same over
  the signed bytes of a packet.
* `toyPrimitives`: A concrete instance.

## Theorems

* `CryptoEngine.verify_eq`: Verification under a key of the right length.
* `CryptoEngine.verifyPacket_eq`: Verification of a packet that serialises.
* `CryptoEngine.signPacket_eq_ok`, `CryptoEngine.macPacket_eq_ok`: Packets
  that serialise are the ones that can be authenticated.
* `CryptoEngine.verifyPacket_signed`, `CryptoEngine.verifyPacketMac_tagged`:
  What was authenticated verifies.
-/

namespace Ztlnp

/-- The cryptographic primitives, with the documented facts about them that
    the engine relies on. Private keys are represented by their raw bytes. -/
structure Primitives where
  sha256 : Bytes → Bytes
  ed25519Public : Bytes → Bytes
  ed25519Sign : Bytes → Bytes → Bytes
  /-- Public key, message and signature. -/
  ed25519Verify : Bytes → Bytes → Bytes → Bool
  x25519Public : Bytes → Bytes
  /-- Private key and remote public key; `none` where the library raises. -/
  x25519 : Bytes → Bytes → Option Bytes
  /-- Output length, info string and input key material. -/
  hkdf : Nat → Bytes → Bytes → Bytes
  hmacSha512 : Bytes → Bytes → Bytes
  /-- Key, nonce and plaintext. -/
  aesGcmEncrypt : Bytes → Bytes → Bytes → Bytes
  /-- Key, nonce and ciphertext; `none` where the tag does not match. -/
  aesGcmDecrypt : Bytes → Bytes → Bytes → Option Bytes
  sha256_length : ∀ b, (sha256 b).length = 32
  ed25519Public_length : ∀ k, (ed25519Public k).length = 32
  ed25519Sign_length : ∀ k m, (ed25519Sign k m).length = 64
  ed25519Verify_sign : ∀ k m, ed25519Verify (ed25519Public k) m (ed25519Sign k m) = true
  x25519Public_length : ∀ k, (x25519Public k).length = 32
  x25519_comm : ∀ a b, x25519 a (x25519Public b) = x25519 b (x25519Public a)
  x25519_isSome : ∀ a b, (x25519 a (x25519Public b)).isSome
  hkdf_length : ∀ n info secret, n ≤ 8160 → (hkdf n info secret).length = n
  hmacSha512_length : ∀ k m, (hmacSha512 k m).length = 64
  aesGcmEncrypt_length : ∀ k n p, (aesGcmEncrypt k n p).length = p.length + 16
  aesGcmDecrypt_encrypt : ∀ k n p, k.length = 32 → n.length = 12 →
    aesGcmDecrypt k n (aesGcmEncrypt k n p) = some p

/-- A byte literal written in ASCII. -/
def ascii (cs : List Char) : Bytes := cs.map (fun c => UInt8.ofNat c.toNat)

/-- `b"ZTLNP-v1-session-key"`. -/
def sessionKeyInfo : Bytes :=
  ascii ['Z', 'T', 'L', 'N', 'P', '-', 'v', '1', '-', 's', 'e', 's', 's', 'i', 'o', 'n', '-',
    'k', 'e', 'y']

/-- `b"ZTLNP-v1-mac-key"`. -/
def macKeyInfo : Bytes :=
  ascii ['Z', 'T', 'L', 'N', 'P', '-', 'v', '1', '-', 'm', 'a', 'c', '-', 'k', 'e', 'y']

namespace CryptoEngine

/-- `import_ed25519_public`: only the length is checked. -/
def importEd25519Public (raw : Bytes) : Except Exn Bytes :=
  if raw.length = 32 then .ok raw
  else .error ⟨.valueError, "An Ed25519 public key is 32 bytes long"⟩

/-- `import_x25519_public`: only the length is checked. -/
def importX25519Public (raw : Bytes) : Except Exn Bytes :=
  if raw.length = 32 then .ok raw
  else .error ⟨.valueError, "An X25519 public key is 32 bytes long"⟩

variable (C : Primitives)

/-- `verify`: an invalid signature is `false`, a malformed key raises. -/
def verify (publicKey data signature : Bytes) : Except Exn Bool := do
  let pub ← importEd25519Public publicKey
  return C.ed25519Verify pub data signature

/-- `x25519_exchange`. -/
def x25519Exchange (localPrivate remotePublic : Bytes) : Except Exn Bytes := do
  let pub ← importX25519Public remotePublic
  match C.x25519 localPrivate pub with
  | some secret => .ok secret
  | none => .error ⟨.valueError, "Error computing shared key."⟩

/-- `derive_session_key`. -/
def deriveSessionKey (sharedSecret initiatorId responderId : Bytes) : Bytes :=
  C.hkdf 32 (sessionKeyInfo ++ initiatorId ++ responderId) sharedSecret

/-- `derive_mac_key`. -/
def deriveMacKey (sharedSecret initiatorId responderId : Bytes) : Bytes :=
  C.hkdf 64 (macKeyInfo ++ initiatorId ++ responderId) sharedSecret

/-- `verify_mac`: the tag is recomputed and compared. -/
def verifyMac (macKey data tag : Bytes) : Bool := C.hmacSha512 macKey data = tag

/-- `decrypt`. -/
def decrypt (sessionKey nonce ciphertext : Bytes) : Except Exn Bytes :=
  match C.aesGcmDecrypt sessionKey nonce ciphertext with
  | some plaintext => .ok plaintext
  | none => .error ⟨.invalidTag, ""⟩

/-- `sign_packet`. -/
def signPacket (privateKey : Bytes) (p : Packet) : Except Exn Bytes := do
  return C.ed25519Sign privateKey (← p.signedBytes)

/-- `verify_packet`. -/
def verifyPacket (senderPublic : Bytes) (p : Packet) : Except Exn Bool := do
  verify C senderPublic (← p.signedBytes) p.signature

/-- `mac_packet`. -/
def macPacket (macKey : Bytes) (p : Packet) : Except Exn Bytes := do
  return C.hmacSha512 macKey (← p.signedBytes)

/-- `verify_packet_mac`. -/
def verifyPacketMac (macKey : Bytes) (p : Packet) : Except Exn Bool := do
  return verifyMac C macKey (← p.signedBytes) p.signature

end CryptoEngine

/-- A residue of a string, as the toy digests use it. -/
def residue (w : Nat) (b : Bytes) : Bytes := beEncode w (beDecode b % (256 ^ w - 189))

/-- A lawful instance of the primitives that can be evaluated. -/
def toyPrimitives : Primitives where
  sha256 b := residue 32 b
  ed25519Public k := residue 32 k
  ed25519Sign k m := residue 32 k ++ residue 32 m
  ed25519Verify pub m sig := sig = pub ++ residue 32 m
  x25519Public k := beEncode 32 (beDecode k % 256 ^ 31 + 9)
  x25519 k pub := some (beEncode 32 (beDecode k % 256 ^ 31 + beDecode pub))
  hkdf n info secret := residue n (secret ++ info)
  hmacSha512 k m := residue 64 (k ++ m)
  aesGcmEncrypt k n p := p ++ residue 16 (k ++ n ++ p)
  aesGcmDecrypt k n c :=
    if c.drop (c.length - 16) = residue 16 (k ++ n ++ c.take (c.length - 16)) then
      some (c.take (c.length - 16))
    else none
  sha256_length b := beEncode_length _ _
  ed25519Public_length k := beEncode_length _ _
  ed25519Sign_length k m := by simp only [residue, List.length_append, beEncode_length]
  ed25519Verify_sign k m := by simp only [decide_true]
  x25519Public_length k := beEncode_length _ _
  x25519_comm a b := by
    have hbound : ∀ n : Nat, n % 256 ^ 31 + 9 < 256 ^ 32 := by
      intro n
      have := Nat.mod_lt n (show 0 < 256 ^ 31 by decide)
      have : 256 ^ 31 + 9 < 256 ^ 32 := by decide
      omega
    rw [beDecode_beEncode _ _ (hbound _), beDecode_beEncode _ _ (hbound _)]
    congr 2
    omega
  x25519_isSome a b := rfl
  hkdf_length n info secret _ := beEncode_length _ _
  hmacSha512_length k m := beEncode_length _ _
  aesGcmEncrypt_length k n p := by rw [List.length_append, residue, beEncode_length]
  aesGcmDecrypt_encrypt k n p _ _ := by
    have hlen : (p ++ residue 16 (k ++ n ++ p)).length - 16 = p.length := by
      rw [List.length_append, residue, beEncode_length, Nat.add_sub_cancel]
    rw [hlen, List.take_left, List.drop_left, if_pos rfl]

/-- Fixed readings for a run under the toy primitives. -/
def toyEnv : Env where
  parseMs := 1000
  receiveMs := 1000
  confirmMs := 1000
  buildMs := 1000
  nonce := List.replicate 12 0
  x25519Private := [5]
  nonce_length := by decide
  buildMs_ne := by decide

namespace CryptoEngine

variable (C : Primitives)

/-- Under a key of the right length, verification is the bare primitive. -/
theorem verify_eq (pub data sig : Bytes) (hpub : pub.length = 32) :
    verify C pub data sig = .ok (C.ed25519Verify pub data sig) := by
  simp only [verify, importEd25519Public, if_pos hpub, bind, Except.bind, pure, Except.pure]

/-- Verification of a packet that serialises, under a key of the right
    length, is the bare primitive on the signed bytes. -/
theorem verifyPacket_eq (pub : Bytes) (p : Packet) (hpub : pub.length = 32)
    (hp : p.Packable) :
    verifyPacket C pub p = .ok (C.ed25519Verify pub (p.layout ++ p.payload) p.signature) := by
  have hs := (p.signedBytes_eq_ok _).mpr ⟨hp, rfl⟩
  simp only [verifyPacket, hs, bind, Except.bind]
  exact verify_eq C pub _ _ hpub

/-- A signature is made exactly over a packet that serialises. -/
theorem signPacket_eq_ok (key : Bytes) (p : Packet) (sig : Bytes) :
    signPacket C key p = .ok sig ↔
      p.Packable ∧ sig = C.ed25519Sign key (p.layout ++ p.payload) := by
  simp only [signPacket, except_bind_eq_ok, Packet.signedBytes_eq_ok, pure, Except.pure,
    Except.ok.injEq]
  exact ⟨fun ⟨_, ⟨hp, hb⟩, hs⟩ => ⟨hp, by rw [← hs, hb]⟩,
    fun ⟨hp, hs⟩ => ⟨_, ⟨hp, rfl⟩, hs.symm⟩⟩

/-- A tag is made exactly over a packet that serialises. -/
theorem macPacket_eq_ok (key : Bytes) (p : Packet) (tag : Bytes) :
    macPacket C key p = .ok tag ↔
      p.Packable ∧ tag = C.hmacSha512 key (p.layout ++ p.payload) := by
  simp only [macPacket, except_bind_eq_ok, Packet.signedBytes_eq_ok, pure, Except.pure,
    Except.ok.injEq]
  exact ⟨fun ⟨_, ⟨hp, hb⟩, hs⟩ => ⟨hp, by rw [← hs, hb]⟩,
    fun ⟨hp, hs⟩ => ⟨_, ⟨hp, rfl⟩, hs.symm⟩⟩

/-- A signature verifies under the public half of the signing key. -/
theorem verifyPacket_signed (key : Bytes) (q : Packet) (sig : Bytes)
    (h : signPacket C key q = .ok sig) :
    verifyPacket C (C.ed25519Public key) { q with signature := sig } = .ok true := by
  rcases (signPacket_eq_ok C key q sig).mp h with ⟨hp, rfl⟩
  -- The signature is outside the signed bytes.
  have hp' :
      ({ q with signature := C.ed25519Sign key (q.layout ++ q.payload) } : Packet).Packable := hp
  rw [verifyPacket_eq C _ _ (C.ed25519Public_length key) hp', Except.ok.injEq]
  exact C.ed25519Verify_sign key (q.layout ++ q.payload)

/-- A tag verifies under the key it was made with. -/
theorem verifyPacketMac_tagged (key : Bytes) (q : Packet) (tag : Bytes)
    (h : macPacket C key q = .ok tag) :
    verifyPacketMac C key { q with signature := tag } = .ok true := by
  rcases (macPacket_eq_ok C key q tag).mp h with ⟨hp, rfl⟩
  -- The tag is outside the bytes it covers.
  have hs := (Packet.signedBytes_eq_ok
    { q with signature := C.hmacSha512 key (q.layout ++ q.payload) } _).mpr ⟨hp, rfl⟩
  simp only [verifyPacketMac, hs, verifyMac, bind, Except.bind, pure, Except.pure,
    Except.ok.injEq, decide_eq_true_eq]
  rfl

end CryptoEngine

end Ztlnp
