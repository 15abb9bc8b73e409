import Ztlnp.Core.Trust

/-!
# Scanned Codes

The QR payload of `trust.py`, and what the runtime does with the text of one.

What a scanner returns is a string of the language and not a `String`: a list of
code points, among them the surrogates that no character has. The functions
below read it as the source does. It is split at every colon, and two of its
fields go through `bytes.fromhex`, which takes digits of either case and skips
blanks between two bytes, but refuses everything that is not ASCII before it
looks at any digit.

One message quotes the payload. Which characters beyond ASCII are quoted as they
are is a table of the runtime, and a parameter here.

## Main definitions

* `CodePoints`, `codes`: Strings of the language.
* `strRepr`: `repr` of a string.
* `fromHex`: `bytes.fromhex`.
* `digitPairs`: A byte string written with given digits.
* `encodeQrPayload`, `parseQrPayload`: The payload of a code.

## Theorems

* `hexPairs_digitPairs`, `fromHex_digitPairs`: What was written with digits of
  the right values is read back, whatever their case.
* `codes_hex`: The text form of a byte string, as code points.
* `parseQrPayload_eq_ok`: The payloads that are accepted.
* `parseQrPayload_cases`: What is raised for all others.
* `splitOn_encodeQrPayload`: The fields of an encoded payload.
-/

namespace Ztlnp

/-- A string of the language, as its code points. -/
abbrev CodePoints := List Nat

/-- The code points of a text. -/
def codes (s : String) : CodePoints := s.toList.map Char.toNat

/-- A number in `w` hexadecimal digits. -/
def hexWidth : Nat → Nat → List Char
  | 0, _ => []
  | w + 1, n => hexDigit (n / 16 ^ w % 16) :: hexWidth w n

/-- How `repr` writes one code point between two quotes. -/
def reprCode (printable : Nat → Bool) (quote c : Nat) : List Char :=
  if c = quote ∨ c = 92 then ['\\', Char.ofNat c]
  else if c = 9 then ['\\', 't']
  else if c = 10 then ['\\', 'n']
  else if c = 13 then ['\\', 'r']
  else if c < 32 ∨ c = 127 then ['\\', 'x'] ++ hexWidth 2 c
  else if c < 127 ∨ printable c then [Char.ofNat c]
  else if c < 256 then ['\\', 'x'] ++ hexWidth 2 c
  else if c < 65536 then ['\\', 'u'] ++ hexWidth 4 c
  else ['\\', 'U'] ++ hexWidth 8 c

/-- `repr` of a string. The quotes are chosen as for a byte string. -/
def strRepr (printable : Nat → Bool) (s : CodePoints) : String :=
  let quote := if 39 ∈ s ∧ 34 ∉ s then 34 else 39
  String.ofList ([Char.ofNat quote] ++ s.flatMap (reprCode printable quote) ++ [Char.ofNat quote])

/-- The blanks that `bytes.fromhex` skips. -/
def isHexSpace (c : Nat) : Bool := c = 32 ∨ (9 ≤ c ∧ c ≤ 13)

/-- The value of a hexadecimal digit of either case. -/
def digitValue (c : Nat) : Option Nat :=
  if 48 ≤ c ∧ c ≤ 57 then some (c - 48)
  else if 65 ≤ c ∧ c ≤ 70 then some (c - 55)
  else if 97 ≤ c ∧ c ≤ 102 then some (c - 87)
  else none

/-- The loop of `bytes.fromhex`, from a position on. It stops at the position of
    a code point that is no digit, or at the end if a digit is missing there. -/
def hexPairs : Nat → CodePoints → Except Nat Bytes
  | _, [] => .ok []
  | pos, [c] =>
    if isHexSpace c then .ok []
    else if digitValue c = none then .error pos
    else .error (pos + 1)
  | pos, c :: c' :: cs =>
    -- A blank is skipped in front of a byte, but not inside it.
    if isHexSpace c then hexPairs (pos + 1) (c' :: cs)
    else
      match digitValue c, digitValue c' with
      | none, _ => .error pos
      | some _, none => .error (pos + 1)
      | some top, some bot => do
        let rest ← hexPairs (pos + 2) cs
        return UInt8.ofNat (top * 16 + bot) :: rest

/-- The error of `bytes.fromhex` at a position. -/
def nonHexadecimal (pos : Nat) : Exn :=
  ⟨.valueError, "non-hexadecimal number found in fromhex() arg at position " ++ toString pos⟩

/-- `bytes.fromhex`. -/
def fromHex (s : CodePoints) : Except Exn Bytes :=
  match s.findIdx? (fun c => 128 ≤ c) with
  | some pos => .error (nonHexadecimal pos)
  | none => (hexPairs 0 s).mapError nonHexadecimal

/-- `encode_qr_payload`. -/
def encodeQrPayload (C : Primitives) (deviceId ed25519Public : Bytes) : String :=
  let fp := hex (C.sha256 ed25519Public)
  "ZTLNP:1:" ++ hex deviceId ++ ":" ++ hex ed25519Public ++ ":" ++ fp

/-- What `parse_qr_payload` raises for a field that is not hexadecimal. -/
def hexDecodeError (exn : Exn) : Exn :=
  ⟨.trustError, "QR payload hex decode error: " ++ exn.message⟩

/-- `parse_qr_payload`. -/
def parseQrPayload (C : Primitives) (printable : Nat → Bool) (payload : CodePoints) :
    Except Exn (Bytes × Bytes) :=
  match payload.splitOn 58 with
  | [magic, version, deviceField, keyField, fpFromPayload] =>
    if magic ≠ codes "ZTLNP" ∨ version ≠ codes "1" then
      .error ⟨.trustError, "Invalid QR payload format: " ++ strRepr printable payload⟩
    else do
      let deviceId ← (fromHex deviceField).mapError hexDecodeError
      let ed25519Public ← (fromHex keyField).mapError hexDecodeError
      if deviceId.length ≠ 32 ∨ ed25519Public.length ≠ 32 then
        throw ⟨.trustError, "QR payload fields have wrong length"⟩
      else if fpFromPayload ≠ codes (hex (C.sha256 ed25519Public)) then
        throw ⟨.trustError, "QR payload fingerprint does not match the public key"⟩
      else if deviceId ≠ C.sha256 ed25519Public then
        throw ⟨.trustError, "QR payload device_id does not match SHA-256(ed25519_public)"⟩
      else
        return (deviceId, ed25519Public)
  | _ => .error ⟨.trustError, "Invalid QR payload format: " ++ strRepr printable payload⟩

section Digits

/-- A byte string written with the given digits, two for each byte. -/
def digitPairs (digit : Nat → Nat) (b : Bytes) : CodePoints :=
  b.flatMap (fun x => [digit (x.toNat / 16), digit (x.toNat % 16)])

/-- A digit is neither a blank nor a colon, and it is ASCII. -/
theorem digitValue_some (c n : Nat) (h : digitValue c = some n) :
    isHexSpace c = false ∧ c ≠ 58 ∧ c < 128 := by
  unfold digitValue at h
  split_ifs at h
  all_goals simp only [isHexSpace, decide_eq_false_iff_not]; omega

variable (digit : Nat → Nat) (hdigit : ∀ n < 16, digitValue (digit n) = some n)
include hdigit

/-- What is written with digits consists of digits. -/
theorem mem_digitPairs (b : Bytes) (c : Nat) (hc : c ∈ digitPairs digit b) :
    ∃ n, digitValue c = some n := by
  rcases List.mem_flatMap.mp hc with ⟨x, _, hx⟩
  have hlt := x.toNat_lt
  rcases List.mem_pair.mp hx with rfl | rfl
  · exact ⟨_, hdigit _ (by omega)⟩
  · exact ⟨_, hdigit _ (by omega)⟩

/-- Two digits at a time give back the bytes they were written for. -/
theorem hexPairs_digitPairs (b : Bytes) (pos : Nat) :
    hexPairs pos (digitPairs digit b) = .ok b := by
  induction b generalizing pos with
  | nil => rfl
  | cons x b ih =>
      -- The two digits of the first byte are not blanks, so they are read as a pair.
      have hlt := x.toNat_lt
      have htop := hdigit (x.toNat / 16) (by omega)
      have hbot := hdigit (x.toNat % 16) (by omega)
      have hcons : digitPairs digit (x :: b)
          = digit (x.toNat / 16) :: digit (x.toNat % 16) :: digitPairs digit b := rfl
      have hbyte : UInt8.ofNat (x.toNat / 16 * 16 + x.toNat % 16) = x := by
        rw [Nat.div_add_mod', UInt8.ofNat_toNat]
      rw [hcons, hexPairs, (digitValue_some _ _ htop).1, htop, hbot]
      simp only [Bool.false_eq_true, if_false, ih, bind, Except.bind, pure, Except.pure, hbyte]

theorem fromHex_digitPairs (b : Bytes) : fromHex (digitPairs digit b) = .ok b := by
  have hascii : (digitPairs digit b).findIdx? (fun c => 128 ≤ c) = none := by
    rw [List.findIdx?_eq_none_iff]
    intro c hc
    rcases mem_digitPairs digit hdigit b c hc with ⟨n, hn⟩
    exact decide_eq_false (Nat.not_le.mpr (digitValue_some c n hn).2.2)
  rw [fromHex, hascii, hexPairs_digitPairs digit hdigit]
  rfl

/-- There is no separator among the digits. -/
theorem colon_notMem_digitPairs (b : Bytes) : 58 ∉ digitPairs digit b := by
  intro hc
  rcases mem_digitPairs digit hdigit b 58 hc with ⟨n, hn⟩
  exact (digitValue_some 58 n hn).2.1 rfl

end Digits

/-- The digits of `bytes.hex` have their values. -/
theorem digitValue_hexDigit : ∀ n < 16, digitValue (hexDigit n).toNat = some n := by
  decide

/-- The text form of a byte string, as code points. -/
theorem codes_hex (b : Bytes) : codes (hex b) = digitPairs (fun n => (hexDigit n).toNat) b := by
  rw [codes, hex, String.toList_ofList, List.map_flatMap]
  rfl

theorem fromHex_codes_hex (b : Bytes) : fromHex (codes (hex b)) = .ok b := by
  rw [codes_hex, fromHex_digitPairs _ digitValue_hexDigit]

section Parsing

variable (C : Primitives) (printable : Nat → Bool) (payload : CodePoints)

/-- A payload is accepted if it has five fields, the right heading, the digits
    of a key of the right length and of its digest, and the digest once more in
    the digits that are written for it. -/
theorem parseQrPayload_eq_ok (d k : Bytes) :
    parseQrPayload C printable payload = .ok (d, k) ↔
      ∃ deviceField keyField,
        payload.splitOn 58 = [codes "ZTLNP", codes "1", deviceField, keyField,
          codes (hex (C.sha256 k))] ∧
        fromHex deviceField = .ok d ∧ fromHex keyField = .ok k ∧
        d.length = 32 ∧ k.length = 32 ∧ d = C.sha256 k := by
  unfold parseQrPayload
  split
  · rename_i magic version deviceField keyField fpFromPayload hsplit
    rw [hsplit]
    simp only [List.cons.injEq, and_true]
    by_cases hhead : magic ≠ codes "ZTLNP" ∨ version ≠ codes "1"
    · rw [if_pos hhead]
      simp only [reduceCtorEq, false_iff]
      rintro ⟨_, _, ⟨hmagic, hversion, _⟩, _⟩
      exact hhead.elim (fun h => h hmagic) (fun h => h hversion)
    · rw [not_or, not_not, not_not] at hhead
      rw [if_neg (by rw [not_or, not_not, not_not]; exact hhead)]
      simp only [except_bind_eq_ok, except_mapError_eq_ok]
      -- What is left is the order of the checks.
      constructor
      · rintro ⟨d', hd, k', hk, h⟩
        split_ifs at h with hlen hfp hid
        simp only [pure, Except.pure, Except.ok.injEq, Prod.mk.injEq] at h
        rcases h with ⟨rfl, rfl⟩
        rw [not_or, not_not, not_not] at hlen
        exact ⟨deviceField, keyField, ⟨hhead.1, hhead.2, rfl, rfl, not_not.mp hfp⟩, hd, hk,
          hlen.1, hlen.2, not_not.mp hid⟩
      · rintro ⟨_, _, ⟨_, _, rfl, rfl, hfp⟩, hd, hk, hd32, hk32, hid⟩
        refine ⟨d, hd, k, hk, ?_⟩
        rw [if_neg (by omega), if_neg (not_not.mpr hfp), if_neg (not_not.mpr hid)]
        rfl
  · rename_i hsplit
    simp only [reduceCtorEq, false_iff]
    rintro ⟨deviceField, keyField, hfields, _⟩
    exact hsplit _ _ _ _ _ hfields

/-- Whatever is wrong with a payload, the error is the same. -/
theorem parseQrPayload_error (e : Exn) (h : parseQrPayload C printable payload = .error e) :
    e.kind = .trustError := by
  unfold parseQrPayload at h
  split at h
  · rename_i deviceField keyField _ _
    split_ifs at h with hhead
    · rw [← Except.error.inj h]
    · -- A field that is not hexadecimal raises an error of its own, which is replaced.
      cases hd : fromHex deviceField with
      | error exn =>
          rw [hd] at h
          rw [← Except.error.inj h, hexDecodeError]
      | ok d =>
          cases hk : fromHex keyField with
          | error exn =>
              rw [hd, hk] at h
              rw [← Except.error.inj h, hexDecodeError]
          | ok k =>
              rw [hd, hk] at h
              simp only [except_mapError_ok, bind, Except.bind] at h
              split_ifs at h with hlen hfp hid
              · rw [← Except.error.inj h]
              · rw [← Except.error.inj h]
              · rw [← Except.error.inj h]
              · simp only [pure, Except.pure, reduceCtorEq] at h
  · rw [← Except.error.inj h]

/-- A payload raises that error, or is accepted. -/
theorem parseQrPayload_cases :
    (∃ message, parseQrPayload C printable payload = .error ⟨.trustError, message⟩) ∨
      ∃ d k, parseQrPayload C printable payload = .ok (d, k) := by
  cases hparse : parseQrPayload C printable payload with
  | error e =>
      have hkind := parseQrPayload_error C printable payload e hparse
      exact Or.inl ⟨e.message, by rw [← hkind]⟩
  | ok out => exact Or.inr ⟨out.1, out.2, rfl⟩

end Parsing

theorem codes_append (s t : String) : codes (s ++ t) = codes s ++ codes t := by
  rw [codes, String.toList_append, List.map_append, codes, codes]

/-- The fields of an encoded payload are what was put between the colons. -/
theorem splitOn_encodeQrPayload (C : Primitives) (d k : Bytes) :
    (codes (encodeQrPayload C d k)).splitOn 58 =
      [codes "ZTLNP", codes "1", codes (hex d), codes (hex k), codes (hex (C.sha256 k))] := by
  have hjoin : codes (encodeQrPayload C d k) = List.intercalate [58]
      [codes "ZTLNP", codes "1", codes (hex d), codes (hex k), codes (hex (C.sha256 k))] := by
    have hhead : codes "ZTLNP:1:" = codes "ZTLNP" ++ [58] ++ codes "1" ++ [58] := by decide
    have hcolon : codes ":" = [58] := by decide
    simp only [encodeQrPayload, codes_append, hhead, hcolon, List.intercalate, List.intersperse,
      List.flatten_cons, List.flatten_nil, List.append_nil, List.append_assoc]
  have hhex (b : Bytes) : 58 ∉ codes (hex b) := by
    rw [codes_hex]
    exact colon_notMem_digitPairs _ digitValue_hexDigit b
  rw [hjoin, List.splitOn_intercalate 58 ?_ (List.cons_ne_nil _ _)]
  simp only [List.forall_mem_cons, hhex, not_false_iff, List.not_mem_nil, false_implies,
    implies_true, and_true]
  decide

end Ztlnp
