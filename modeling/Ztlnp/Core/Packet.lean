import Ztlnp.Core.Python

/-!
# Wire-Format Packets

The packet record of `packet.py` and its byte codec.

The record's constructor checks three lengths, and those checks are fields of
`Packet`: a packet with a short identifier or nonce cannot be built, and no
proof about one has to re-derive the lengths. `PacketFields` is the argument
list of the constructor with the defaults of the source, and `postInit` is
the constructor itself. It also fills in a missing timestamp, so it takes a
clock reading, and so does `fromBytes`, which ends in the same constructor.

`struct.pack` raises on an out-of-range integer, so serialising is fallible.
`Packable` says exactly when it is not, and `layout` is the header it then
produces. The two directions of the codec meet in `fromBytes_toBytes`.

## Main definitions

* `PacketType`: The packet types with their wire codes.
* `PacketFields`: The constructor's arguments and defaults.
* `Packet`: A packet whose identifiers and nonce have their lengths.
* `PacketFields.postInit`: The constructor's checks.
* `Packet.headerBytes`, `Packet.signedBytes`, `Packet.toBytes`: Serialising.
* `Packet.fromBytes`: Parsing.
* `Packet.wireFields`: What parsing reads off the wire.
* `Packet.Packable`: Every integer field fits its width.
* `Packet.layout`: The header of a packable packet.

## Theorems

* `Packet.headerBytes_eq_ok`: Serialising the header succeeds exactly on
  packable packets.
* `Packet.toBytes_eq_ok`: The serialised form of a packet.
* `Packet.fromBytes_eq_ok`: What the parser has checked of what it accepts.
* `Packet.fromBytes_toBytes`: Parsing inverts serialising.
* `Packet.sequence_at_offset`: The sequence number sits at its offset.
-/

namespace Ztlnp

/-- `MAGIC`. -/
def magic : Bytes := [0x5A, 0x54, 0x4C, 0x50]

/-- `VERSION`. -/
def version : Nat := 1

/-- `_HEADER_SIZE`. -/
def headerSize : Nat := 100

/-- `_SIG_SIZE`. -/
def sigSize : Nat := 64

/-- `BROADCAST_ID`. -/
def broadcastId : Bytes := List.replicate 32 0

/-- `SEQUENCE_OFFSET`. -/
def sequenceOffset : Nat := 80

/-- The packet types. -/
inductive PacketType
  | hello
  | keyExchange
  | data
  | ack
  | error
  | bye
  | routeAnnounce
  | trustEndorse
  | keyRotate
deriving DecidableEq, Repr

namespace PacketType

/-- The code of a type on the wire. -/
def code : PacketType → Nat
  | hello => 1
  | keyExchange => 2
  | data => 3
  | ack => 4
  | error => 5
  | bye => 6
  | routeAnnounce => 7
  | trustEndorse => 8
  | keyRotate => 9

/-- The name `Enum.name` reports. -/
def name : PacketType → String
  | hello => "HELLO"
  | keyExchange => "KEY_EXCHANGE"
  | data => "DATA"
  | ack => "ACK"
  | error => "ERROR"
  | bye => "BYE"
  | routeAnnounce => "ROUTE_ANNOUNCE"
  | trustEndorse => "TRUST_ENDORSE"
  | keyRotate => "KEY_ROTATE"

/-- `PacketType(n)`: the type with a given code. -/
def ofCode (n : Nat) : Except Exn PacketType :=
  if n = 1 then .ok hello
  else if n = 2 then .ok keyExchange
  else if n = 3 then .ok data
  else if n = 4 then .ok ack
  else if n = 5 then .ok error
  else if n = 6 then .ok bye
  else if n = 7 then .ok routeAnnounce
  else if n = 8 then .ok trustEndorse
  else if n = 9 then .ok keyRotate
  else .error ⟨.valueError, toString n ++ " is not a valid PacketType"⟩

@[simp]
theorem ofCode_code (t : PacketType) : ofCode t.code = .ok t := by
  cases t <;> rfl

theorem code_lt (t : PacketType) : t.code < 256 := by
  cases t <;> decide

/-- Only a type's own code names it. -/
theorem ofCode_eq_ok (n : Nat) (t : PacketType) (h : ofCode n = .ok t) : n = t.code := by
  unfold ofCode at h
  split_ifs at h <;> simp only [Except.ok.injEq] at h <;> subst h <;> assumption

end PacketType

/-- `PacketFlags.NONE`. -/
def flagNone : Nat := 0x0000

/-- `PacketFlags.ENCRYPTED`. -/
def flagEncrypted : Nat := 0x0001

/-- `PacketFlags.MAC_AUTH`. -/
def flagMacAuth : Nat := 0x0004

/-- The arguments of the packet constructor, with their defaults. -/
structure PacketFields where
  ptype : PacketType
  senderId : Bytes
  payload : Bytes
  recipientId : Bytes := broadcastId
  flags : Nat := flagNone
  sequence : Nat := 0
  nonce : Bytes := List.replicate 12 0
  timestampMs : Nat := 0
  signature : Bytes := List.replicate sigSize 0
deriving DecidableEq

/-- A packet: fields that passed the constructor's checks. -/
structure Packet extends PacketFields where
  senderId_length : senderId.length = 32
  recipientId_length : recipientId.length = 32
  nonce_length : nonce.length = 12
deriving DecidableEq

/-- `Packet.__post_init__`: the length checks, and the clock reading that
    replaces a zero timestamp. -/
def PacketFields.postInit (nowMs : Nat) (f : PacketFields) : Except Exn Packet :=
  if hs : f.senderId.length = 32 then
    if hr : f.recipientId.length = 32 then
      if hn : f.nonce.length = 12 then
        .ok
          { f with
            timestampMs := if f.timestampMs = 0 then nowMs else f.timestampMs
            senderId_length := hs
            recipientId_length := hr
            nonce_length := hn }
      else .error ⟨.valueError, "nonce must be exactly 12 bytes"⟩
    else .error ⟨.valueError, "recipient_id must be exactly 32 bytes"⟩
  else .error ⟨.valueError, "sender_id must be exactly 32 bytes"⟩

/-- A packet that was constructed has the fields it was given, and a time. -/
theorem PacketFields.postInit_eq_ok (nowMs : Nat) (f : PacketFields) (p : Packet)
    (h : f.postInit nowMs = .ok p) :
    p.toPacketFields =
      { f with timestampMs := if f.timestampMs = 0 then nowMs else f.timestampMs } := by
  unfold postInit at h
  by_cases hs : f.senderId.length = 32
  · by_cases hr : f.recipientId.length = 32
    · by_cases hn : f.nonce.length = 12
      · rw [dif_pos hs, dif_pos hr, dif_pos hn, Except.ok.injEq] at h
        rw [← h]
      · rw [dif_pos hs, dif_pos hr, dif_neg hn] at h
        simp only [reduceCtorEq] at h
    · rw [dif_pos hs, dif_neg hr] at h
      simp only [reduceCtorEq] at h
  · rw [dif_neg hs] at h
    simp only [reduceCtorEq] at h

namespace Packet

/-- Whether the `MAC_AUTH` bit is set. -/
def macAuth (p : Packet) : Bool := p.flags &&& flagMacAuth ≠ 0

/-- `header_bytes`: the fixed-size header. -/
def headerBytes (p : Packet) : Except Exn Bytes := do
  let ver ← packUInt 1 version "ubyte format requires 0 <= number <= 255"
  let typ ← packUInt 1 p.ptype.code "ubyte format requires 0 <= number <= 255"
  let flg ← packUInt 2 p.flags "'H' format requires 0 <= number <= 65535"
  let tim ← packUInt 8 p.timestampMs "int too large to convert"
  let seq ← packUInt 4 p.sequence "'I' format requires 0 <= number <= 4294967295"
  let len ← packUInt 4 p.payload.length "'I' format requires 0 <= number <= 4294967295"
  return magic ++ ver ++ typ ++ flg ++ p.senderId ++ p.recipientId ++ tim ++ seq ++ p.nonce ++ len

/-- `signed_bytes`: everything the signature covers. -/
def signedBytes (p : Packet) : Except Exn Bytes := do
  return (← p.headerBytes) ++ p.payload

/-- `to_bytes`: the complete packet. -/
def toBytes (p : Packet) : Except Exn Bytes := do
  return (← p.signedBytes) ++ p.signature

/-- `from_bytes`: parse a packet. The clock reading is used only where the
    wire carries a zero timestamp. -/
def fromBytes (nowMs : Nat) (data : Bytes) : Except Exn Packet :=
  if data.length < headerSize + sigSize then
    .error ⟨.valueError, "Packet too short: need at least " ++ toString (headerSize + sigSize) ++
      " bytes, got " ++ toString data.length⟩
  else
    let mag := field data 0 4
    let ver := beDecode (field data 4 1)
    let payloadLen := beDecode (field data 96 4)
    -- The checks run in this order; the first that fails decides the error.
    if mag ≠ magic then
      .error ⟨.invalidMagicError,
        "Expected magic " ++ bytesRepr magic ++ ", got " ++ bytesRepr mag⟩
    else if ver ≠ version then
      .error ⟨.invalidVersionError, "Unsupported version 0x" ++ String.ofList (hexByte ver) ++
        " (expected 0x" ++ String.ofList (hexByte version) ++ ")"⟩
    else if data.length < headerSize + payloadLen + sigSize then
      .error ⟨.valueError, "Packet truncated: expected " ++
        toString (headerSize + payloadLen + sigSize) ++ " bytes, got " ++ toString data.length⟩
    else do
      -- An unknown type raises here, before the constructor. Bytes behind the signature are not
      -- looked at.
      let ptype ← PacketType.ofCode (beDecode (field data 5 1))
      PacketFields.postInit nowMs
        { ptype
          senderId := field data 8 32
          payload := field data headerSize payloadLen
          recipientId := field data 40 32
          flags := beDecode (field data 6 2)
          sequence := beDecode (field data 80 4)
          nonce := field data 84 12
          timestampMs := beDecode (field data 72 8)
          signature := field data (headerSize + payloadLen) sigSize }

/-- The fields a parsed packet takes from the wire. Only the timestamp
    depends on the reader's clock, and only where the wire carries none. -/
def wireFields (nowMs : Nat) (data : Bytes) (t : PacketType) : PacketFields :=
  { ptype := t
    senderId := field data 8 32
    payload := field data headerSize (beDecode (field data 96 4))
    recipientId := field data 40 32
    flags := beDecode (field data 6 2)
    sequence := beDecode (field data 80 4)
    nonce := field data 84 12
    timestampMs := if beDecode (field data 72 8) = 0 then nowMs else beDecode (field data 72 8)
    signature := field data (headerSize + beDecode (field data 96 4)) sigSize }

/-- What the parser has checked of the bytes it accepts, and what it makes of
    them. -/
theorem fromBytes_eq_ok (nowMs : Nat) (data : Bytes) (p : Packet)
    (h : fromBytes nowMs data = .ok p) :
    headerSize + beDecode (field data 96 4) + sigSize ≤ data.length ∧
      field data 0 4 = magic ∧ beDecode (field data 4 1) = version ∧
      PacketType.ofCode (beDecode (field data 5 1)) = .ok p.ptype ∧
      p.toPacketFields = wireFields nowMs data p.ptype := by
  unfold fromBytes at h
  by_cases hlen : data.length < headerSize + sigSize
  · rw [if_pos hlen] at h
    simp only [reduceCtorEq] at h
  · rw [if_neg hlen] at h
    simp only at h
    by_cases hmag : field data 0 4 = magic
    · by_cases hver : beDecode (field data 4 1) = version
      · by_cases htot : data.length < headerSize + beDecode (field data 96 4) + sigSize
        · rw [if_neg (not_not.mpr hmag), if_neg (not_not.mpr hver), if_pos htot] at h
          simp only [reduceCtorEq] at h
        · rw [if_neg (not_not.mpr hmag), if_neg (not_not.mpr hver), if_neg htot,
            except_bind_eq_ok] at h
          -- All checks passed: what is left is the constructor.
          rcases h with ⟨t, ht, hp⟩
          have hf := PacketFields.postInit_eq_ok _ _ _ hp
          refine ⟨by omega, hmag, hver, ?_, ?_⟩
          · simp only [hf, ht]
          · simp only [hf, wireFields]
      · rw [if_neg (not_not.mpr hmag), if_pos hver] at h
        simp only [reduceCtorEq] at h
    · rw [if_pos hmag] at h
      simp only [reduceCtorEq] at h

/-- The wire fields that routing a packet to its session reads. -/
theorem fromBytes_wire (nowMs : Nat) (data : Bytes) (p : Packet)
    (h : fromBytes nowMs data = .ok p) :
    p.senderId = field data 8 32 ∧ p.sequence = beDecode (field data 80 4) ∧
      PacketType.ofCode (beDecode (field data 5 1)) = .ok p.ptype ∧
      p.timestampMs = if beDecode (field data 72 8) = 0 then nowMs
        else beDecode (field data 72 8) := by
  rcases fromBytes_eq_ok nowMs data p h with ⟨_, _, _, ht, hf⟩
  refine ⟨?_, ?_, ht, ?_⟩
  · rw [hf, wireFields]
  · rw [hf, wireFields]
  · rw [hf, wireFields]

/-- Every integer field fits the width the header gives it. -/
def Packable (p : Packet) : Prop :=
  p.flags < 256 ^ 2 ∧ p.timestampMs < 256 ^ 8 ∧ p.sequence < 256 ^ 4 ∧
    p.payload.length < 256 ^ 4

instance (p : Packet) : Decidable p.Packable :=
  inferInstanceAs (Decidable (_ ∧ _ ∧ _ ∧ _))

/-- The header of a packable packet, field by field. -/
def layout (p : Packet) : Bytes :=
  magic ++ (beEncode 1 version ++ (beEncode 1 p.ptype.code ++ (beEncode 2 p.flags ++
    (p.senderId ++ (p.recipientId ++ (beEncode 8 p.timestampMs ++ (beEncode 4 p.sequence ++
      (p.nonce ++ beEncode 4 p.payload.length))))))))

theorem layout_length (p : Packet) : p.layout.length = headerSize := by
  simp only [layout, List.length_append, beEncode_length, p.senderId_length,
    p.recipientId_length, p.nonce_length, magic, List.length_cons, List.length_nil, headerSize]

theorem headerBytes_eq_ok (p : Packet) (b : Bytes) :
    p.headerBytes = .ok b ↔ p.Packable ∧ b = p.layout := by
  simp only [headerBytes, except_bind_eq_ok, packUInt_eq_ok, pure, Except.pure, Except.ok.injEq]
  constructor
  · -- Forward, each field that packed gives its bound.
    rintro ⟨_, ⟨_, rfl⟩, _, ⟨_, rfl⟩, _, ⟨hf, rfl⟩, _, ⟨ht, rfl⟩, _, ⟨hs, rfl⟩, _, ⟨hl, rfl⟩, rfl⟩
    refine ⟨⟨hf, ht, hs, hl⟩, ?_⟩
    simp only [layout, List.append_assoc]
  · -- Backward, the two constant fields fit by evaluation.
    rintro ⟨⟨hf, ht, hs, hl⟩, rfl⟩
    refine ⟨_, ⟨by decide, rfl⟩, _, ⟨p.ptype.code_lt, rfl⟩, _, ⟨hf, rfl⟩, _, ⟨ht, rfl⟩, _,
      ⟨hs, rfl⟩, _, ⟨hl, rfl⟩, ?_⟩
    simp only [layout, List.append_assoc]

theorem signedBytes_eq_ok (p : Packet) (b : Bytes) :
    p.signedBytes = .ok b ↔ p.Packable ∧ b = p.layout ++ p.payload := by
  simp only [signedBytes, except_bind_eq_ok, headerBytes_eq_ok, pure, Except.pure,
    Except.ok.injEq]
  exact ⟨fun ⟨_, ⟨hp, ha⟩, hb⟩ => ⟨hp, by rw [← hb, ha]⟩, fun ⟨hp, hb⟩ => ⟨_, ⟨hp, rfl⟩, hb.symm⟩⟩

theorem toBytes_eq_ok (p : Packet) (b : Bytes) :
    p.toBytes = .ok b ↔ p.Packable ∧ b = p.layout ++ (p.payload ++ p.signature) := by
  simp only [toBytes, except_bind_eq_ok, signedBytes_eq_ok, pure, Except.pure, Except.ok.injEq]
  constructor
  · rintro ⟨_, ⟨hp, rfl⟩, rfl⟩
    exact ⟨hp, List.append_assoc _ _ _⟩
  · rintro ⟨hp, rfl⟩
    exact ⟨_, ⟨hp, rfl⟩, List.append_assoc _ _ _⟩

/-- The ten header fields of a serialised packet, each read at its offset. -/
theorem layout_fields (p : Packet) (rest : Bytes) :
    field (p.layout ++ rest) 0 4 = magic ∧
    field (p.layout ++ rest) 4 1 = beEncode 1 version ∧
    field (p.layout ++ rest) 5 1 = beEncode 1 p.ptype.code ∧
    field (p.layout ++ rest) 6 2 = beEncode 2 p.flags ∧
    field (p.layout ++ rest) 8 32 = p.senderId ∧
    field (p.layout ++ rest) 40 32 = p.recipientId ∧
    field (p.layout ++ rest) 72 8 = beEncode 8 p.timestampMs ∧
    field (p.layout ++ rest) 80 4 = beEncode 4 p.sequence ∧
    field (p.layout ++ rest) 84 12 = p.nonce ∧
    field (p.layout ++ rest) 96 4 = beEncode 4 p.payload.length := by
  have hm : magic.length = 4 := rfl
  have hs := p.senderId_length
  have hr := p.recipientId_length
  have hn := p.nonce_length
  simp only [layout, List.append_assoc]
  refine ⟨field_append_left _ _ _ hm, ?_, ?_, ?_, ?_, ?_, ?_, ?_, ?_, ?_⟩
  -- Skip the fields in front of the one that is read, then read it.
  all_goals
    repeat rw [field_append_right _ _ _ _ (by simp only [beEncode_length, hm, hs, hr, hn]; omega)]
    simp only [beEncode_length, hm, hs, hr, hn, Nat.reduceSub]
    exact field_append_left _ _ _ (by simp only [beEncode_length, hs, hr, hn])

/-- The sequence number of a serialised packet sits at its offset. -/
theorem sequence_at_offset (p : Packet) (b : Bytes) (h : p.toBytes = .ok b) :
    beDecode (field b sequenceOffset 4) = p.sequence := by
  rw [toBytes_eq_ok] at h
  rcases h with ⟨⟨_, _, hseq, _⟩, rfl⟩
  rcases p.layout_fields (p.payload ++ p.signature) with ⟨_, _, _, _, _, _, _, hs, _⟩
  rw [sequenceOffset, hs, beDecode_beEncode _ _ hseq]

/-- Parsing inverts serialising. The signature must have its length, as every
    signature and tag has, and the timestamp must be set, because a zero one
    is replaced by the reader's clock. -/
theorem fromBytes_toBytes (p : Packet) (b : Bytes) (nowMs : Nat) (h : p.toBytes = .ok b)
    (hsig : p.signature.length = sigSize) (htime : p.timestampMs ≠ 0) :
    fromBytes nowMs b = .ok p := by
  rw [toBytes_eq_ok] at h
  rcases h with ⟨⟨hflags, hms, hseq, hlen⟩, rfl⟩
  rcases p.layout_fields (p.payload ++ p.signature) with
    ⟨f0, f4, f5, f6, f8, f40, f72, f80, f84, f96⟩
  have hsize := p.layout_length
  have hcode : p.ptype.code < 256 ^ 1 := p.ptype.code_lt
  -- The payload starts right behind the header, the signature right behind the payload.
  have hpay : field (p.layout ++ (p.payload ++ p.signature)) headerSize p.payload.length
      = p.payload := by
    rw [field_append_right _ _ _ _ hsize.le, hsize, Nat.sub_self]
    exact field_append_left _ _ _ rfl
  have hsg : field (p.layout ++ (p.payload ++ p.signature))
      (headerSize + p.payload.length) sigSize = p.signature := by
    rw [field_append_right _ _ _ _ (by omega), field_append_right _ _ _ _ (by omega), hsize,
      Nat.add_sub_cancel_left, Nat.sub_self, ← hsig, field, List.drop_zero, List.take_length]
  -- With a signature of full length the total is what the parser computes.
  have htotal : (p.layout ++ (p.payload ++ p.signature)).length
      = headerSize + p.payload.length + sigSize := by
    rw [List.length_append, List.length_append, hsize, hsig, Nat.add_assoc]
  have hver : beDecode (beEncode 1 version) = version := by decide
  simp only [fromBytes, htotal, f0, f4, f5, f6, f8, f40, f72, f80, f84, f96, hver,
    beDecode_beEncode _ _ hcode, beDecode_beEncode _ _ hflags, beDecode_beEncode _ _ hms,
    beDecode_beEncode _ _ hseq, beDecode_beEncode _ _ hlen, hpay, hsg, PacketType.ofCode_code]
  -- None of the four checks fires.
  rw [if_neg (by omega), if_neg (by simp only [ne_eq, not_true_eq_false, not_false_eq_true]),
    if_neg (by simp only [ne_eq, not_true_eq_false, not_false_eq_true]), if_neg (by omega)]
  simp only [bind, Except.bind, PacketFields.postInit, p.senderId_length, p.recipientId_length,
    p.nonce_length, dite_true, if_neg htime]

end Packet

end Ztlnp
