import Ztlnp.Core.Packet

/-!
# The Packet Codec

What the two directions of the packet codec say about each other.

Serialising a well-formed packet and parsing the result gives the packet
back, and because the payload length is part of the header, the bytes a
signature covers determine every field but the signature.

The other direction is weaker. The parser reads the fields of a string and
authentication serialises them again, so a string is only as authentic as it
is canonical. `reencoding` is what serialising gives back: the accepted string
cut off behind its signature, with the timestamp the constructor chose. It is
the accepted string exactly when nothing follows the signature and the
constructor did not replace the timestamp.

## Main definitions

* `Packet.WellFormed`: The fields fit the widths of the wire.
* `Packet.Canonical`: Nothing follows the signature, and the timestamp is kept.

## Theorems

* `Packet.codec_round_trip`: Parsing inverts serialising, and equal signed
  bytes are equal packets up to the signature.
* `Packet.layout_eq_field`: The header of a parsed packet is the header that
  was parsed, where the timestamp was kept.
* `Packet.reencodes_iff_canonical`: The parser's input is recovered exactly
  where it was canonical.
-/

namespace Ztlnp

namespace Packet

/-- Every field fits the width the wire gives it. The identifiers and the
    nonce have their lengths by construction. -/
def WellFormed (p : Packet) : Prop :=
  p.signature.length = 64 ∧ p.flags < 2 ^ 16 ∧ p.sequence < 2 ^ 32 ∧ 0 < p.timestampMs ∧
    p.timestampMs < 2 ^ 64 ∧ p.payload.length < 2 ^ 32

instance (p : Packet) : Decidable p.WellFormed :=
  inferInstanceAs (Decidable (_ ∧ _ ∧ _ ∧ _ ∧ _ ∧ _))

theorem WellFormed.packable (p : Packet) (h : p.WellFormed) : p.Packable := by
  rcases h with ⟨_, hf, hs, _, ht, hl⟩
  exact ⟨hf, ht, hs, hl⟩

/-- The bytes a signature covers determine the header and the payload. The
    header has a fixed size, so the split is where both packets put it. -/
theorem layout_payload_inj (p q : Packet) (h : p.layout ++ p.payload = q.layout ++ q.payload) :
    p.layout = q.layout ∧ p.payload = q.payload := by
  apply List.append_inj h
  rw [p.layout_length, q.layout_length]

/-- Equal headers are equal fields, where every integer fits its width. -/
theorem layout_inj (p q : Packet) (hp : p.Packable) (hq : q.Packable)
    (h : p.layout = q.layout) :
    p.ptype = q.ptype ∧ p.flags = q.flags ∧ p.senderId = q.senderId ∧
      p.recipientId = q.recipientId ∧ p.timestampMs = q.timestampMs ∧
      p.sequence = q.sequence ∧ p.nonce = q.nonce := by
  rcases hp with ⟨pf, pt, ps, _⟩
  rcases hq with ⟨qf, qt, qs, _⟩
  rcases p.layout_fields [] with ⟨_, _, p5, p6, p8, p40, p72, p80, p84, _⟩
  rcases q.layout_fields [] with ⟨_, _, q5, q6, q8, q40, q72, q80, q84, _⟩
  rw [h] at p5 p6 p8 p40 p72 p80 p84
  -- An integer is decoded from its field on both sides.
  have hint : ∀ w m n, m < 256 ^ w → n < 256 ^ w → beEncode w m = beEncode w n → m = n := by
    intro w m n hm hn heq
    rw [← beDecode_beEncode w m hm, heq, beDecode_beEncode w n hn]
  have hcode : p.ptype.code = q.ptype.code :=
    hint 1 _ _ p.ptype.code_lt q.ptype.code_lt (p5.symm.trans q5)
  refine ⟨?_, hint 2 _ _ pf qf (p6.symm.trans q6), p8.symm.trans q8, p40.symm.trans q40,
    hint 8 _ _ pt qt (p72.symm.trans q72), hint 4 _ _ ps qs (p80.symm.trans q80),
    p84.symm.trans q84⟩
  have htype := PacketType.ofCode_code p.ptype
  rw [hcode, PacketType.ofCode_code, Except.ok.injEq] at htype
  exact htype.symm

/-- The codec is a round trip: a well-formed packet serialises, its bytes
    parse back to it on any clock, its sequence number sits at its offset, and
    the bytes its signature covers determine everything but the signature. -/
theorem codec_round_trip :
    (∀ p : Packet, p.WellFormed →
      ∃ b, p.toBytes = .ok b ∧ (∀ nowMs, fromBytes nowMs b = .ok p) ∧
        beDecode (field b sequenceOffset 4) = p.sequence) ∧
    (∀ p q : Packet, p.WellFormed → q.WellFormed → p.signedBytes = q.signedBytes →
      q.toPacketFields = { p.toPacketFields with signature := q.signature }) := by
  constructor
  · intro p hp
    have hb := (p.toBytes_eq_ok _).mpr ⟨hp.packable, rfl⟩
    refine ⟨_, hb, ?_, p.sequence_at_offset _ hb⟩
    intro nowMs
    exact p.fromBytes_toBytes _ nowMs hb hp.1 (Nat.ne_of_gt hp.2.2.2.1)
  · intro p q hp hq h
    rw [(p.signedBytes_eq_ok _).mpr ⟨hp.packable, rfl⟩,
      (q.signedBytes_eq_ok _).mpr ⟨hq.packable, rfl⟩, Except.ok.injEq] at h
    rcases layout_payload_inj p q h with ⟨hl, hpay⟩
    rcases layout_inj p q hp.packable hq.packable hl with ⟨h1, h2, h3, h4, h5, h6, h7⟩
    simp only [h1, h2, h3, h4, h5, h6, h7, hpay]

/-- A data packet with both of its flags set, under a signature of one repeated
    byte. -/
def sealedData (sigByte : UInt8) : Packet where
  ptype := .data
  senderId := List.replicate 32 1
  recipientId := List.replicate 32 2
  payload := [9, 8, 7]
  flags := flagEncrypted ||| flagMacAuth
  sequence := 66051
  nonce := [1, 2, 3, 4, 5, 6, 7, 8, 9, 10, 11, 12]
  timestampMs := 9
  signature := List.replicate 64 sigByte
  senderId_length := rfl
  recipientId_length := rfl
  nonce_length := rfl

/-- The packet comes back as it was. Under another signature it has the same
    signed bytes, and the packets are equal but for the signature. -/
theorem codec_round_trip_sealedData :
    (∃ b, (sealedData 5).toBytes = .ok b ∧ (∀ nowMs, fromBytes nowMs b = .ok (sealedData 5)) ∧
      beDecode (field b sequenceOffset 4) = 66051 ∧ field b sequenceOffset 4 = [0, 1, 2, 3]) ∧
    sealedData 5 ≠ sealedData 6 ∧ (sealedData 5).signedBytes = (sealedData 6).signedBytes ∧
      (sealedData 6).toPacketFields = { (sealedData 5).toPacketFields with
        signature := List.replicate 64 6 } := by
  have hsigned : (sealedData 5).signedBytes = (sealedData 6).signedBytes := by decide
  have hp : (sealedData 5).WellFormed := by decide
  have hq : (sealedData 6).WellFormed := by decide
  rcases codec_round_trip.1 _ hp with ⟨b, hb, hparse, hseq⟩
  refine ⟨⟨b, hb, hparse, hseq, ?_⟩, by decide, hsigned, codec_round_trip.2 _ _ hp hq hsigned⟩
  -- The bytes at the offset encode the number that was read there.
  have hfield := beEncode_beDecode (field b sequenceOffset 4)
  rw [hseq] at hfield
  rw [← hfield, field_length b sequenceOffset 4 ?_]
  · rfl
  · rw [(((sealedData 5).toBytes_eq_ok b).mp hb).2]
    decide

/-- A string that the parser reads without loss: it ends with the signature,
    and its timestamp is one that the constructor keeps. -/
def Canonical (nowMs : Nat) (data : Bytes) : Prop :=
  data.length = headerSize + beDecode (field data 96 4) + sigSize ∧
    (beDecode (field data 72 8) ≠ 0 ∨ nowMs = 0)

instance (nowMs : Nat) (data : Bytes) : Decidable (Canonical nowMs data) :=
  inferInstanceAs (Decidable (_ ∧ (_ ∨ _)))

/-- A field that is decoded and encoded again at its own width is unchanged. -/
theorem beEncode_beDecode_field (data : Bytes) (off len : Nat) (h : off + len ≤ data.length) :
    beEncode len (beDecode (field data off len)) = field data off len := by
  have hlen := field_length data off len h
  have henc := beEncode_beDecode (field data off len)
  rw [hlen] at henc
  exact henc

section Parsed

variable (nowMs : Nat) (data : Bytes) (p : Packet)

/-- The payload of a parsed packet has the length its header announces. -/
theorem parsed_payload_length (h : fromBytes nowMs data = .ok p) :
    p.payload.length = beDecode (field data 96 4) := by
  rcases fromBytes_eq_ok nowMs data p h with ⟨htot, _, _, _, hf⟩
  rw [hf, wireFields]
  exact field_length _ _ _ (by omega)

/-- A parsed packet serialises, unless the clock reading that replaced its
    timestamp does not fit. -/
theorem parsed_packable (h : fromBytes nowMs data = .ok p) :
    p.Packable ↔ p.timestampMs < 256 ^ 8 := by
  rcases fromBytes_eq_ok nowMs data p h with ⟨htot, _, _, _, hf⟩
  have hlen := parsed_payload_length nowMs data p h
  simp only [headerSize, sigSize] at htot
  have hflags : p.flags < 256 ^ 2 := by
    rw [hf]
    exact beDecode_field_lt data 6 2
  have hseq : p.sequence < 256 ^ 4 := by
    rw [hf]
    exact beDecode_field_lt data 80 4
  have hpay : p.payload.length < 256 ^ 4 := by
    rw [hlen]
    exact beDecode_field_lt data 96 4
  constructor
  · intro hp
    exact hp.2.1
  · intro ht
    exact ⟨hflags, ht, hseq, hpay⟩

/-- The header of a parsed packet is the header that was parsed, where the
    constructor kept the timestamp. -/
theorem layout_eq_field (h : fromBytes nowMs data = .ok p)
    (ht : p.timestampMs = beDecode (field data 72 8)) :
    p.layout = field data 0 headerSize := by
  have hlen := parsed_payload_length nowMs data p h
  rcases fromBytes_eq_ok nowMs data p h with ⟨htot, hmag, hver, htype, hf⟩
  have hcode := PacketType.ofCode_eq_ok _ _ htype
  have hflags : p.flags = beDecode (field data 6 2) := by rw [hf, wireFields]
  have hsender : p.senderId = field data 8 32 := by rw [hf, wireFields]
  have hrecipient : p.recipientId = field data 40 32 := by rw [hf, wireFields]
  have hseq : p.sequence = beDecode (field data 80 4) := by rw [hf, wireFields]
  have hnonce : p.nonce = field data 84 12 := by rw [hf, wireFields]
  simp only [headerSize, sigSize] at htot
  -- Every part of the layout is the field it was read from.
  rw [layout, ← hmag, ← hver, ← hcode, hflags, hsender, hrecipient, ht, hseq, hnonce, hlen,
    beEncode_beDecode_field data 4 1 (by omega), beEncode_beDecode_field data 5 1 (by omega),
    beEncode_beDecode_field data 6 2 (by omega), beEncode_beDecode_field data 72 8 (by omega),
    beEncode_beDecode_field data 80 4 (by omega), beEncode_beDecode_field data 96 4 (by omega)]
  -- Adjacent fields join up, from the last one to the first.
  rw [field_append_field data 84 12 4, field_append_field data 80 4, field_append_field data 72 8,
    field_append_field data 40 32, field_append_field data 8 32, field_append_field data 6 2,
    field_append_field data 5 1, field_append_field data 4 1, field_append_field data 0 4]
  rfl

/-- Where the timestamp was kept, serialising gives the accepted string cut
    off behind its signature. -/
theorem reencoding (h : fromBytes nowMs data = .ok p)
    (ht : p.timestampMs = beDecode (field data 72 8)) :
    p.toBytes = .ok (field data 0 (headerSize + beDecode (field data 96 4) + sigSize)) := by
  have hlay := layout_eq_field nowMs data p h ht
  rcases fromBytes_eq_ok nowMs data p h with ⟨htot, _, _, _, hf⟩
  have hpay : p.payload = field data headerSize (beDecode (field data 96 4)) := by
    rw [hf, wireFields]
  have hsig : p.signature = field data (headerSize + beDecode (field data 96 4)) sigSize := by
    rw [hf, wireFields]
  have hbound : p.timestampMs < 256 ^ 8 := by
    rw [ht]
    simp only [headerSize, sigSize] at htot
    exact beDecode_field_lt data 72 8
  rw [toBytes_eq_ok]
  refine ⟨(parsed_packable nowMs data p h).mpr hbound, ?_⟩
  rw [hlay, hpay, hsig, field_append_field]
  have hjoin := field_append_field data 0 headerSize (beDecode (field data 96 4) + sigSize)
  rw [Nat.zero_add] at hjoin
  rw [hjoin, Nat.add_assoc]

/-- Serialising puts the packet's own timestamp on the wire, so a string that
    is recovered carried it. -/
theorem timestamp_of_reencoding (h : p.toBytes = .ok data) :
    beDecode (field data 72 8) = p.timestampMs := by
  rw [toBytes_eq_ok] at h
  rcases h with ⟨⟨_, ht, _, _⟩, rfl⟩
  rcases p.layout_fields (p.payload ++ p.signature) with ⟨_, _, _, _, _, _, h72, _⟩
  rw [h72, beDecode_beEncode _ _ ht]

end Parsed

/-- An accepted string is recovered by serialising what was parsed exactly
    when it is canonical. Bytes behind the signature and a zero timestamp are
    lost, so a string that was altered in these two ways only is not told from
    the one its packet serialises to. -/
theorem reencodes_iff_canonical (nowMs : Nat) (data : Bytes) (p : Packet)
    (h : fromBytes nowMs data = .ok p) :
    (p.toBytes = .ok data ↔ Canonical nowMs data) ∧
      (∀ sent, p.toBytes = .ok sent → (sent = data ↔ Canonical nowMs data)) := by
  have htot := (fromBytes_eq_ok nowMs data p h).1
  have htime := (fromBytes_wire nowMs data p h).2.2.2
  have hmain : p.toBytes = .ok data ↔ Canonical nowMs data := by
    constructor
    · intro hb
      -- A string that came back carried the timestamp the packet has now.
      have hwire := timestamp_of_reencoding data p hb
      have hcut := reencoding nowMs data p h hwire.symm
      rw [hb, Except.ok.injEq] at hcut
      refine ⟨(field_eq_self data _ htot).mp hcut.symm, ?_⟩
      by_cases hz : beDecode (field data 72 8) = 0
      · right
        rw [if_pos hz] at htime
        omega
      · exact Or.inl hz
    · intro hc
      rcases hc with ⟨hlen, hkeep⟩
      have hkept : p.timestampMs = beDecode (field data 72 8) := by
        by_cases hz : beDecode (field data 72 8) = 0
        · rw [if_pos hz] at htime
          rcases hkeep with hne | hnow
          · exact absurd hz hne
          · omega
        · rw [if_neg hz] at htime
          exact htime
      rw [reencoding nowMs data p h hkept, (field_eq_self data _ htot).mpr hlen]
  refine ⟨hmain, ?_⟩
  intro sent hsent
  rw [← hmain, hsent, Except.ok.injEq]

/-- A hello with an empty payload, at the given timestamp. -/
def bareHello (timestampMs : Nat) : Packet where
  ptype := .hello
  senderId := List.replicate 32 1
  payload := []
  timestampMs := timestampMs
  senderId_length := rfl
  recipientId_length := rfl
  nonce_length := rfl

/-- The bytes of an empty hello, with the default signature. -/
def bareBytes (timestampMs : Nat) : Bytes :=
  (bareHello timestampMs).layout ++ List.replicate 64 0

theorem bareBytes_canonical :
    fromBytes 5 (bareBytes 9) = .ok (bareHello 9) ∧ Canonical 5 (bareBytes 9) ∧
      (bareHello 9).toBytes = .ok (bareBytes 9) := by
  have hb : fromBytes 5 (bareBytes 9) = .ok (bareHello 9) := by decide +kernel
  have hc : Canonical 5 (bareBytes 9) := by decide +kernel
  exact ⟨hb, hc, (reencodes_iff_canonical 5 _ _ hb).1.mpr hc⟩

/-- A byte behind the signature is accepted and lost, and so is a zero
    timestamp: both strings are read as packets that serialise to other bytes. -/
theorem accepts_altered_bytes :
    (fromBytes 5 (bareBytes 9 ++ [7]) = .ok (bareHello 9) ∧
      (bareHello 9).toBytes ≠ .ok (bareBytes 9 ++ [7])) ∧
    (fromBytes 5 (bareBytes 0) = .ok (bareHello 5) ∧
      (bareHello 5).toBytes ≠ .ok (bareBytes 0)) := by
  refine ⟨⟨?_, ?_⟩, ?_, ?_⟩ <;> decide +kernel

end Packet

end Ztlnp
