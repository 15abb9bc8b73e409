import Ztlnp.Core.Channel

/-!
# The Stop-and-Wait Channel

The reliable channel of `reliability.py`.

It keeps what it has sent in a dictionary by sequence number, without a window
and without a receive side. A send is never refused for what is in flight, and
an acknowledgement names one number. The record of a pending packet and the
poll for retransmissions are those of the sliding window, line by line, so
they are shared with it.

## Main definitions

* `PendingPacket`: A packet in flight.
* `ReliableChannel`: The state of a channel.
* `ReliableChannel.processAck`, `ReliableChannel.getRetransmissions`: Its
  methods.
* `ReliableEnd`: A channel with its protocol and device.
* `ReliableEnd.send`: The method that touches the device.

## Theorems

* `ReliableChannel.getRetransmissions_run`: The poll is that of the window.
-/

namespace Ztlnp

/-- A DATA packet that has not been acknowledged. The fields are those of a
    packet in a window. The default of the timeout differs, but every record is
    made with one. -/
abbrev PendingPacket := WindowedPacket

/-- The state of a channel, apart from its protocol. -/
structure ReliableChannel where
  baseTimeoutMs : Rat := 500
  maxTimeoutMs : Rat := 16000
  maxRetries : Nat := 5
  useMac : Bool := false
  pending : Dict Nat PendingPacket := .empty
deriving DecidableEq

namespace ReliableChannel

/-- The channel once a packet is in flight. -/
def enqueued (r : ReliableChannel) (sequence : Nat) (wire : Bytes) (now : Rat) :
    ReliableChannel :=
  { r with
    pending := r.pending.set sequence
      { sequence, packetBytes := wire, sentAt := now, nextTimeoutMs := r.baseTimeoutMs } }

/-- `process_ack`: the channel afterwards, and whether the packet was still
    pending. -/
def processAck (r : ReliableChannel) (sequence : Nat) : ReliableChannel × Bool :=
  ({ r with pending := r.pending.pop sequence }, (r.pending.get? sequence).isSome)

/-- The pending packets as a window. -/
def asWindow (r : ReliableChannel) : Channel where
  baseMs := r.baseTimeoutMs
  maxMs := r.maxTimeoutMs
  maxRetries := r.maxRetries
  useMac := r.useMac
  sendWindow := r.pending

/-- `get_retransmissions`. -/
def getRetransmissions (due sent : Nat → Rat) : EStateM Exn ReliableChannel (List Bytes) :=
  zoom asWindow (fun c r => { r with pending := c.sendWindow })
    (Channel.getRetransmissions due sent)

theorem getRetransmissions_run (due sent : Nat → Rat) (r : ReliableChannel) :
    (getRetransmissions due sent).run r
      = match (Channel.getRetransmissions due sent).run r.asWindow with
        | .ok again c => .ok again { r with pending := c.sendWindow }
        | .error x c => .error x { r with pending := c.sendWindow } := by
  rw [getRetransmissions, run_zoom]
  cases (Channel.getRetransmissions due sent).run r.asWindow with
  | ok again c => rfl
  | error x c => rfl

end ReliableChannel

/-- A channel with the protocol and the device it sits on. -/
structure ReliableEnd (C : Primitives) where
  channel : ReliableChannel
  endpoint : Endpoint C
deriving DecidableEq

namespace ReliableEnd

variable {C : Primitives}

/-- Call a method of the protocol. -/
def onProtocol {α : Type} (x : EStateM Exn (Endpoint C) α) : EStateM Exn (ReliableEnd C) α :=
  zoom ReliableEnd.endpoint (fun e s => { s with endpoint := e }) x

/-- `send`. -/
def send (env : Env) (now : Rat) (plaintext : Bytes) :
    EStateM Exn (ReliableEnd C) (Nat × Bytes) := do
  let s ← get
  let wire ← onProtocol (ChannelEnd.dataPacket env s.channel.useMac plaintext)
  -- The number is read back out of the bytes.
  let sequence := beDecode (field wire sequenceOffset 4)
  modify (fun s => { s with channel := s.channel.enqueued sequence wire now })
  return (sequence, wire)

end ReliableEnd

end Ztlnp
