import Ztlnp.Lib.Bytes
import Mathlib.Algebra.Order.Ring.Unbundled.Rat

/-!
# Transports

The in-process transport of `transport.py`.

Two transports are linked by references to each other, and either has a queue
that the other puts datagrams in. A reference is the place of a transport
among all that were made. The destination of a datagram is not looked at.

All methods may be called from any thread, and `send` and `recv` are not
atomic: what they check may have changed by the time they touch the queue. So
each is given in its two parts, the checks and the access to the queue, which
is atomic.

A `get` that finds the queue empty waits. Its outcome is given for one point in
time, some seconds after the call, and is `none` as long as it goes on waiting.
A transport that is closed in the meantime does not wake it.

## Main definitions

* `TransportError`: The exceptions of the module.
* `InProcessTransport`: One end of a pair.
* `InProcessTransport.createPair`: Two linked ends.
* `InProcessTransport.checkSend`, `InProcessTransport.put`: The parts of `send`.
* `InProcessTransport.checkRecv`, `InProcessTransport.get`: The parts of `recv`.
* `InProcessTransport.close`: What is closed stays closed.
-/

namespace Ztlnp

/-- The classes of exceptions that transports raise. -/
inductive TransportErrorKind
  | transportTimeout
  | transportClosed
  | runtimeError
  | valueError
deriving DecidableEq, Repr

/-- An exception of a transport. -/
structure TransportError where
  kind : TransportErrorKind
  message : String
deriving DecidableEq, Repr

/-- One end of a pair, or an end without a peer. -/
structure InProcessTransport where
  localAddr : Bytes
  inbox : List (Bytes × Bytes) := []
  closed : Bool := false
  peer : Option Nat := none
deriving DecidableEq

namespace InProcessTransport

/-- `create_pair`, as the next two of the transports that were made. -/
def createPair (addrA addrB : Bytes) (made : List InProcessTransport) : List InProcessTransport :=
  made ++ [{ localAddr := addrA, peer := some (made.length + 1) },
    { localAddr := addrB, peer := some made.length }]

/-- The checks of `send`, of the transport and of its peer. -/
def checkSend (self : InProcessTransport) (peer : Option InProcessTransport) :
    Except TransportError Unit :=
  if self.closed then .error ⟨.transportClosed, "Transport is closed"⟩
  else match peer with
    | none => .error ⟨.runtimeError, "InProcessTransport has no peer; use create_pair()"⟩
    | some p =>
      if p.closed then .error ⟨.transportClosed, "Peer transport is closed"⟩ else .ok ()

/-- What `send` does to the peer once it has checked: the datagram goes to the end
    of its queue, under the address of the sender. -/
def put (self : InProcessTransport) (data : Bytes) (peer : InProcessTransport) :
    InProcessTransport :=
  { peer with inbox := peer.inbox ++ [(self.localAddr, data)] }

/-- The check of `recv`. -/
def checkRecv (self : InProcessTransport) : Except TransportError Unit :=
  if self.closed then .error ⟨.transportClosed, "Transport is closed"⟩ else .ok ()

/-- What `recv` does once it has checked, some seconds after it was called: the
    oldest datagram and what is left, or nothing yet. -/
def get (self : InProcessTransport) (timeout : Option Rat) (waited : Rat) :
    Except TransportError (Option ((Bytes × Bytes) × InProcessTransport)) :=
  match timeout with
  | none =>
    match self.inbox with
    | datagram :: rest => .ok (some (datagram, { self with inbox := rest }))
    | [] => .ok none
  | some seconds =>
    -- The queue looks at the timeout before it looks for a datagram.
    if seconds < 0 then .error ⟨.valueError, "'timeout' must be a non-negative number"⟩
    else match self.inbox with
      | datagram :: rest => .ok (some (datagram, { self with inbox := rest }))
      | [] =>
        if waited < seconds then .ok none
        else .error ⟨.transportTimeout, "No datagram within timeout"⟩

/-- `close`. -/
def close (self : InProcessTransport) : InProcessTransport := { self with closed := true }

/-- What a `get` can do: it takes the oldest datagram, waits, or raises. -/
theorem get_cases (self : InProcessTransport) (timeout : Option Rat) (waited : Rat) :
    (∃ datagram rest, self.inbox = datagram :: rest ∧
      self.get timeout waited = .ok (some (datagram, { self with inbox := rest }))) ∨
    (self.inbox = [] ∧ self.get timeout waited = .ok none) ∨
    ∃ x seconds, timeout = some seconds ∧ self.get timeout waited = .error x := by
  cases timeout with
  | none =>
      simp only [get]
      cases hinbox : self.inbox with
      | nil => exact Or.inr (Or.inl ⟨rfl, rfl⟩)
      | cons datagram rest => exact Or.inl ⟨datagram, rest, rfl, rfl⟩
  | some seconds =>
      simp only [get]
      by_cases hneg : seconds < 0
      · rw [if_pos hneg]
        exact Or.inr (Or.inr ⟨_, seconds, rfl, rfl⟩)
      · rw [if_neg hneg]
        cases hinbox : self.inbox with
        | cons datagram rest => exact Or.inl ⟨datagram, rest, rfl, rfl⟩
        -- An empty queue: `get` still waits, or the timeout is over.
        | nil =>
            simp only
            by_cases hwait : waited < seconds
            · rw [if_pos hwait]
              exact Or.inr (Or.inl ⟨trivial, rfl⟩)
            · rw [if_neg hwait]
              exact Or.inr (Or.inr ⟨_, seconds, rfl, rfl⟩)

/-- A send that passed its checks has a peer, and both ends were open. -/
theorem checkSend_eq_ok (self : InProcessTransport) (peer : Option InProcessTransport) :
    self.checkSend peer = .ok () ↔ self.closed = false ∧ ∃ p, peer = some p ∧ p.closed = false := by
  cases hself : self.closed with
  | true => simp only [checkSend, hself, if_true, reduceCtorEq, false_and]
  | false =>
      cases peer with
      | none => simp only [checkSend, hself, Bool.false_eq_true, if_false, reduceCtorEq, false_and,
          exists_false, and_false]
      | some p =>
          cases hp : p.closed with
          | true => simp only [checkSend, hself, hp, Bool.false_eq_true, if_false, if_true,
              reduceCtorEq, Option.some.injEq, exists_eq_left', and_false]
          | false => simp only [checkSend, hself, hp, Bool.false_eq_true, if_false,
              Option.some.injEq, exists_eq_left', and_self]

end InProcessTransport

end Ztlnp
