import Ztlnp.Lib.Bytes
import Ztlnp.Lib.Effects

/-!
# The Python Runtime

The parts of the language and its standard library the sources lean on:
exceptions, the text forms of byte strings that error messages quote, and
`struct.pack` for unsigned fields.

A Python method that raises keeps whatever it wrote before the raise. The
model therefore uses `EStateM`, whose error result carries a state as well,
and never a monad that rolls the state back. What is lost or kept on a raise
is a fact about each method, proved where the method is modelled.

The time and the random source are inputs. Every reading of the clock that a
single call makes has its own name in `Env`, so nothing assumes that two
readings inside one call agree. The reading that stamps an outgoing packet is
not the epoch itself, which the code uses to mean that no time was given.

## Main definitions

* `ErrorKind`: The exception classes raised by the modelled code.
* `Exn`: An exception with its message.
* `Env`: The clock readings and random draws of one call.
* `hex`, `hexByte`, `bytesRepr`: Text forms of byte strings.
* `packUInt`: One unsigned field of `struct.pack`.

## Theorems

* `packUInt_eq_ok`: An unsigned field packs exactly when it fits.
-/

namespace Ztlnp

/-- The exception classes raised by the modelled code: the ones of
    `exceptions.py` and the built-in and library ones that escape it. -/
inductive ErrorKind
  | valueError
  | typeError
  | attributeError
  | keyError
  | zeroDivisionError
  | overflowError
  | structError
  | invalidTag
  | invalidMagicError
  | invalidVersionError
  | signatureVerificationError
  | replayAttackError
  | sessionNotFoundError
  | handshakeError
  | trustError
  | routingError
  | retransmitError
  | keyRotationError
  | trustPoisoningError
deriving DecidableEq, Repr

/-- An exception: its class and its message. -/
structure Exn where
  kind : ErrorKind
  message : String
deriving DecidableEq, Repr

/-- What one call reads from outside: the clock, as often as the call reads
    it, and the random source. -/
structure Env where
  /-- The reading of `_now_ms` while an incoming packet is parsed. -/
  parseMs : Nat
  /-- The reading in the replay check of `receive_packet`. -/
  receiveMs : Nat
  /-- The reading in the replay check that follows a completed exchange. -/
  confirmMs : Nat
  /-- The reading of `_now_ms` while an outgoing packet is built. -/
  buildMs : Nat
  /-- The output of `generate_nonce`. -/
  nonce : Bytes
  /-- The private key drawn by `generate_x25519_keypair`. -/
  x25519Private : Bytes
  nonce_length : nonce.length = 12
  buildMs_ne : buildMs ≠ 0
deriving DecidableEq

/-- A hexadecimal digit in lower case. -/
def hexDigit (n : Nat) : Char :=
  if n < 10 then Char.ofNat (48 + n) else Char.ofNat (87 + n)

/-- Two hexadecimal digits, as `format(n, "02x")` writes a byte. -/
def hexByte (n : Nat) : List Char := [hexDigit (n / 16), hexDigit (n % 16)]

/-- `bytes.hex`. -/
def hex (b : Bytes) : String := String.ofList (b.flatMap (fun x => hexByte x.toNat))

/-- How `repr` writes one byte inside single quotes. -/
def reprByte (n : Nat) : List Char :=
  if n = 92 then ['\\', '\\']
  else if n = 39 then ['\\', '\'']
  else if n = 9 then ['\\', 't']
  else if n = 10 then ['\\', 'n']
  else if n = 13 then ['\\', 'r']
  else if 32 ≤ n ∧ n < 127 then [Char.ofNat n]
  else ['\\', 'x'] ++ hexByte n

/-- `repr` of a byte string. Double quotes are chosen only when the string
    holds a single quote and no double quote, and then neither is escaped. -/
def bytesRepr (b : Bytes) : String :=
  let ns := b.map UInt8.toNat
  if 39 ∈ ns ∧ 34 ∉ ns then
    String.ofList (['b', '"'] ++
      ns.flatMap (fun n => if n = 39 then ['\''] else reprByte n) ++ ['"'])
  else String.ofList (['b', '\''] ++ ns.flatMap reprByte ++ ['\''])

/-- One unsigned field of `struct.pack`, `w` octets wide. -/
def packUInt (w n : Nat) (message : String) : Except Exn Bytes :=
  if n < 256 ^ w then .ok (beEncode w n) else .error ⟨.structError, message⟩

theorem packUInt_eq_ok (w n : Nat) (message : String) (b : Bytes) :
    packUInt w n message = .ok b ↔ n < 256 ^ w ∧ b = beEncode w n := by
  unfold packUInt
  by_cases h : n < 256 ^ w
  · rw [if_pos h, Except.ok.injEq]
    exact ⟨fun hb => ⟨h, hb.symm⟩, fun hb => hb.2.symm⟩
  · rw [if_neg h]
    simp only [reduceCtorEq, h, false_and]

end Ztlnp
