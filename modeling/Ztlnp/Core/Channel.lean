import Ztlnp.Core.Protocol
import Ztlnp.Lib.Reassembly
import Mathlib.Data.List.Sort
import Mathlib.Order.Interval.Finset.Nat

/-!
# The Sliding-Window Channel

The reliable channel of `sliding_window.py`, and the cover traffic of
`privacy.py` that shares a session with it.

A channel belongs to a protocol, and a protocol to a device; `ChannelEnd` is
the three together, since a call to the channel may write to all of them. The
sequence number of a packet is not chosen by the channel. It is whatever the
session hands out when the packet is built, and the channel reads it back out
of the bytes.

The receive side has no number to start from. It takes the first packet it
sees for the first one sent, and counts from there. The last number delivered
is an integer, with minus one for nothing yet, as in the source.

The clock of the retransmission timer is a rational number of seconds. It is
read once for every packet that is looked at and once more for every packet
that is sent again, so a call is given one reading of each kind per number.

## Main definitions

* `SackFrame`, `SackFrame.encode`, `SackFrame.decode`, `SackFrame.allAcked`:
  Acknowledgements.
* `WindowedPacket`: A packet in flight.
* `Channel`: The state of a channel.
* `Channel.canSend`, `Channel.enqueued`, `Channel.processSack`,
  `Channel.getRetransmissions`: The send side.
* `Channel.accept`, `Channel.buildSack`: The receive side.
* `ChannelEnd`: A channel with its protocol and device.
* `ChannelEnd.send`, `ChannelEnd.receive`, `ChannelEnd.buildSackAck`: The
  methods that touch the device.
* `CoverTraffic`, `CoverTraffic.recordRealSend`, `CoverTraffic.setIntervalMs`,
  `ChannelEnd.maybeSend`: Cover traffic.

## Theorems

* `SackFrame.mem_allAcked`: What a frame acknowledges.
* `Channel.mem_buildSack`: A frame acknowledges what was delivered, whatever
  lies below it, and what is buffered.
* `Channel.processSack_get?`: Processing a frame removes what it acknowledges.
* `Channel.accept_cases`: The three branches of the receive side.
-/

namespace Ztlnp

/-- An acknowledgement: everything up to `cumAck`, and the numbers in the
    blocks, whose ends are included. -/
structure SackFrame where
  cumAck : Nat
  blocks : List (Nat × Nat) := []
deriving DecidableEq, Repr

namespace SackFrame

/-- The message of a number that does not fit four octets. -/
def tooLarge : String := "'I' format requires 0 <= number <= 4294967295"

/-- One block on the wire. -/
def encodeBlock (block : Nat × Nat) : Except Exn Bytes := do
  return (← packUInt 4 block.1 tooLarge) ++ (← packUInt 4 block.2 tooLarge)

/-- `encode`. -/
def encode (f : SackFrame) : Except Exn Bytes := do
  let sackType := if f.blocks = [] then 0x01 else 0x02
  let typ ← packUInt 1 sackType "ubyte format requires 0 <= number <= 255"
  let cum ← packUInt 4 f.cumAck tooLarge
  let num ← packUInt 2 f.blocks.length "'H' format requires 0 <= number <= 65535"
  let body ← f.blocks.mapM encodeBlock
  return typ ++ cum ++ num ++ body.flatten

/-- `decode`. The type octet is not looked at. -/
def decode (data : Bytes) : Except Exn SackFrame :=
  if data.length < 7 then
    .error ⟨.valueError, "SACK frame too short: " ++ toString data.length ++ " bytes"⟩
  else
    -- The count of blocks is believed as far as there are bytes for it.
    let count := beDecode (field data 5 2)
    if data.length < 7 + count * 8 then
      .error ⟨.valueError, "SACK frame truncated: expected " ++ toString (7 + count * 8) ++
        " bytes, got " ++ toString data.length⟩
    else .ok
      { cumAck := beDecode (field data 1 4)
        blocks := (List.range count).map (fun i =>
          (beDecode (field data (7 + i * 8) 4), beDecode (field data (11 + i * 8) 4))) }

/-- `all_acked`. -/
def allAcked (f : SackFrame) : Finset Nat :=
  f.blocks.foldl (fun acked block => acked ∪ Finset.Icc block.1 block.2)
    (Finset.range (f.cumAck + 1))

theorem mem_foldl_blocks (acked : Finset Nat) (bs : List (Nat × Nat)) (n : Nat) :
    n ∈ bs.foldl (fun acked block => acked ∪ Finset.Icc block.1 block.2) acked ↔
      n ∈ acked ∨ ∃ b ∈ bs, b.1 ≤ n ∧ n ≤ b.2 := by
  induction bs generalizing acked with
  | nil => simp only [List.foldl_nil, List.not_mem_nil, false_and, exists_false, or_false]
  | cons b bs ih =>
      rw [List.foldl_cons, ih]
      simp only [Finset.mem_union, Finset.mem_Icc, List.mem_cons, exists_eq_or_imp, or_assoc]

/-- A frame acknowledges what lies at or below its cumulative number and what
    lies in its blocks. -/
theorem mem_allAcked (f : SackFrame) (n : Nat) :
    n ∈ f.allAcked ↔ n ≤ f.cumAck ∨ ∃ b ∈ f.blocks, b.1 ≤ n ∧ n ≤ b.2 := by
  unfold allAcked
  rw [mem_foldl_blocks, Finset.mem_range, Nat.lt_succ_iff]

end SackFrame

/-- A DATA packet in the send window. -/
structure WindowedPacket where
  sequence : Nat
  packetBytes : Bytes
  sentAt : Rat
  retries : Nat := 0
  nextTimeoutMs : Rat := 200
deriving DecidableEq

namespace WindowedPacket

/-- `is_due`. -/
def isDue (w : WindowedPacket) (now : Rat) : Bool := (now - w.sentAt) * 1000 ≥ w.nextTimeoutMs

/-- `record_retransmit`. The base timeout is not used. -/
def recordRetransmit (w : WindowedPacket) (now maxMs : Rat) : WindowedPacket :=
  { w with
    retries := w.retries + 1
    sentAt := now
    nextTimeoutMs := min (w.nextTimeoutMs * 2) maxMs }

end WindowedPacket

/-- The state of a channel, apart from its protocol. -/
structure Channel where
  windowSize : Nat := 64
  baseMs : Rat := 200
  maxMs : Rat := 8000
  maxRetries : Nat := 5
  useMac : Bool := false
  sendWindow : Dict Nat WindowedPacket := .empty
  sendBase : Nat := 0
  recvNext : Int := -1
  recvBuffer : Dict Nat Bytes := .empty
deriving DecidableEq

namespace Channel

/-- `can_send`. -/
def canSend (c : Channel) : Bool := c.sendWindow.size < c.windowSize

/-- The channel once a packet is in flight. The base is set when the window
    holds only the new packet. -/
def enqueued (c : Channel) (sequence : Nat) (wire : Bytes) (now : Rat) : Channel :=
  let sendWindow := c.sendWindow.set sequence
    { sequence, packetBytes := wire, sentAt := now, nextTimeoutMs := c.baseMs }
  -- Acknowledged packets may have left, so one packet need not be the first ever.
  { c with
    sendWindow
    sendBase := if sendWindow.size = 1 then sequence else c.sendBase }

/-- `process_sack`: the channel afterwards, and how many packets left the
    window. -/
def processSack (c : Channel) (sack : SackFrame) : Channel × Nat :=
  let sendWindow := c.sendWindow.filter (fun n _ => n ∉ sack.allAcked)
  -- An empty window keeps its old base.
  ({ c with
      sendWindow
      sendBase := sendWindow.keys.min?.getD c.sendBase },
    c.sendWindow.size - sendWindow.size)

/-- A packet is due and has no attempts left. -/
def isLost (c : Channel) (due : Nat → Rat) (n : Nat) (w : WindowedPacket) : Bool :=
  w.isDue (due n) && decide (c.maxRetries ≤ w.retries)

/-- A packet is due and has attempts left. -/
def isOverdue (c : Channel) (due : Nat → Rat) (n : Nat) (w : WindowedPacket) : Bool :=
  w.isDue (due n) && decide (w.retries < c.maxRetries)

/-- `get_retransmissions`. Lost packets leave the window before the error is
    raised. -/
def getRetransmissions (due sent : Nat → Rat) : EStateM Exn Channel (List Bytes) := do
  let c ← get
  -- A packet that is due is either out of attempts or sent again.
  let lost := (c.sendWindow.filter (c.isLost due)).keys
  let overdue := (c.sendWindow.filter (c.isOverdue due)).entries.map (fun e => e.2.packetBytes)
  let again := c.sendWindow.mapValues (fun n w =>
    if c.isOverdue due n w then w.recordRetransmit (sent n) c.maxMs else w)
  -- Timers have moved and lost packets have left, also if the call raises.
  set { c with sendWindow := again.filter (fun n _ => n ∉ lost) }
  if lost ≠ [] then
    throw ⟨.retransmitError, "Packet(s) with sequence number(s) " ++
      String.intercalate ", " (lost.map toString) ++ " exceeded max_retries=" ++
      toString c.maxRetries ++ " without acknowledgement"⟩
  else return overdue

/-- The receive side of `receive`, once the packet is authenticated and
    decrypted: what is delivered, and the channel afterwards. -/
def accept (c : Channel) (sequence : Nat) (plaintext : Bytes) : Option Bytes × Channel :=
  -- The first packet ever seen decides where the count starts.
  let recvNext : Int := if c.recvNext = -1 then (sequence : Int) - 1 else c.recvNext
  if (sequence : Int) = recvNext + 1 then
    -- In turn: deliver it, and whatever in the buffer follows.
    let (last, recvBuffer, out) := drain c.recvBuffer.size sequence c.recvBuffer plaintext
    (some out, { c with recvNext := last, recvBuffer })
  else if (sequence : Int) > recvNext + 1 then
    -- Early: keep it for later.
    (none, { c with recvNext, recvBuffer := c.recvBuffer.set sequence plaintext })
  -- Late: drop it.
  else (none, { c with recvNext })

/-- `_build_sack`. -/
def buildSack (c : Channel) : SackFrame where
  cumAck := (max c.recvNext 0).toNat
  blocks := blocks (c.recvBuffer.keys.insertionSort (· ≤ ·))

/-- A frame acknowledges everything up to the last number delivered, and what
    is buffered. -/
theorem mem_buildSack (c : Channel) (n : Nat) :
    n ∈ c.buildSack.allAcked ↔ (n : Int) ≤ max c.recvNext 0 ∨ c.recvBuffer.get? n ≠ none := by
  rw [SackFrame.mem_allAcked]
  simp only [buildSack, mem_blocks, List.mem_insertionSort, Dict.mem_keys,
    Option.ne_none_iff_exists']
  have hle : n ≤ (max c.recvNext 0).toNat ↔ (n : Int) ≤ max c.recvNext 0 := by omega
  rw [hle]

/-- Processing a frame removes exactly what it acknowledges. -/
theorem processSack_get? (c : Channel) (sack : SackFrame) (n : Nat) :
    (c.processSack sack).1.sendWindow.get? n
      = if n ∈ sack.allAcked then none else c.sendWindow.get? n := by
  simp only [processSack, Dict.get?_filter]
  cases c.sendWindow.get? n with
  | none => rw [ite_self, Option.filter_none]
  | some w =>
      by_cases hn : n ∈ sack.allAcked
      · simp only [Option.filter_some, hn, not_true_eq_false, decide_false, Bool.false_eq_true,
          if_false, if_true]
      · simp only [Option.filter_some, hn, not_false_eq_true, decide_true, if_true, if_false]

/-- What a frame leaves in the window was there before. -/
theorem processSack_kept (c : Channel) (sack : SackFrame) (n : Nat) (w : WindowedPacket)
    (h : (c.processSack sack).1.sendWindow.get? n = some w) : c.sendWindow.get? n = some w := by
  rw [processSack_get?] at h
  by_cases hacked : n ∈ sack.allAcked
  · rw [if_pos hacked] at h
    simp only [reduceCtorEq] at h
  · rw [if_neg hacked] at h
    exact h

/-- What the count starts from. -/
def counted (c : Channel) (sequence : Nat) : Int :=
  if c.recvNext = -1 then (sequence : Int) - 1 else c.recvNext

/-- The three branches of the receive side: the next number is delivered with
    what follows it in the buffer, a later one is buffered, and an earlier one
    is dropped. -/
theorem accept_cases (c : Channel) (n : Nat) (plaintext : Bytes) :
    ((n : Int) = c.counted n + 1 ∧ c.accept n plaintext
      = (some (drain c.recvBuffer.size n c.recvBuffer plaintext).2.2,
          { c with
            recvNext := (drain c.recvBuffer.size n c.recvBuffer plaintext).1
            recvBuffer := (drain c.recvBuffer.size n c.recvBuffer plaintext).2.1 })) ∨
    ((n : Int) > c.counted n + 1 ∧ c.accept n plaintext
      = (none, { c with
          recvNext := c.counted n
          recvBuffer := c.recvBuffer.set n plaintext })) ∨
    ((n : Int) < c.counted n + 1 ∧ c.accept n plaintext
      = (none, { c with recvNext := c.counted n })) := by
  unfold accept counted
  simp only
  by_cases heq : (n : Int) = (if c.recvNext = -1 then (n : Int) - 1 else c.recvNext) + 1
  · left
    rw [if_pos heq]
    exact ⟨heq, rfl⟩
  · right
    rw [if_neg heq]
    by_cases hgt : (n : Int) > (if c.recvNext = -1 then (n : Int) - 1 else c.recvNext) + 1
    · left
      rw [if_pos hgt]
      exact ⟨hgt, rfl⟩
    · right
      rw [if_neg hgt]
      exact ⟨by omega, rfl⟩

end Channel

/-- A channel with the protocol and the device it sits on. -/
structure ChannelEnd (C : Primitives) where
  channel : Channel
  endpoint : Endpoint C
deriving DecidableEq

/-- A source of cover traffic on the same protocol. -/
structure CoverTraffic where
  intervalMs : Rat := 1000
  coverSize : Nat := 64
  useMac : Bool := true
  lastSendMs : Rat
deriving DecidableEq

namespace CoverTraffic

/-- `record_real_send`. -/
def recordRealSend (nowMs : Rat) (cover : CoverTraffic) : CoverTraffic :=
  { cover with lastSendMs := nowMs }

/-- The setter of `interval_ms`. -/
def setIntervalMs (value : Rat) (cover : CoverTraffic) : Except Exn CoverTraffic :=
  if value ≤ 0 then .error ⟨.valueError, "interval_ms must be positive"⟩
  else .ok { cover with intervalMs := value }

end CoverTraffic

namespace ChannelEnd

variable {C : Primitives}

/-- Call a method of the protocol. -/
def onProtocol {α : Type} (x : EStateM Exn (Endpoint C) α) : EStateM Exn (ChannelEnd C) α :=
  zoom ChannelEnd.endpoint (fun e s => { s with endpoint := e }) x

/-- Call a method of the device. -/
def onDevice {α : Type} (x : EStateM Exn (Device C) α) : EStateM Exn (ChannelEnd C) α :=
  onProtocol (Endpoint.onDevice x)

/-- Write the channel's own fields. -/
def modifyChannel (f : Channel → Channel) : EStateM Exn (ChannelEnd C) Unit :=
  modify (fun s => { s with channel := f s.channel })

/-- A DATA packet for the protocol's peer, in bytes. With a MAC the device is
    asked directly, and the state of the protocol is not looked at. -/
def dataPacket (env : Env) (useMac : Bool) (plaintext : Bytes) : EStateM Exn (Endpoint C) Bytes :=
  if useMac then do
    let peerId ← Endpoint.requirePeer
    let packet ← Endpoint.onDevice (Device.buildDataPacketMac env peerId plaintext)
    ofExcept packet.toBytes
  else Endpoint.sendData env plaintext

/-- `send`. Nothing is returned when the window is full. -/
def send (env : Env) (now : Rat) (plaintext : Bytes) :
    EStateM Exn (ChannelEnd C) (Option (Nat × Bytes)) := do
  let s ← get
  if s.channel.canSend then
    let wire ← onProtocol (dataPacket env s.channel.useMac plaintext)
    -- The number is read back out of the bytes.
    let sequence := beDecode (field wire sequenceOffset 4)
    modifyChannel (fun c => c.enqueued sequence wire now)
    return some (sequence, wire)
  else return none

/-- `receive`. Neither the type nor the sender of the packet is looked at. -/
def receive (env : Env) (raw : Bytes) :
    EStateM Exn (ChannelEnd C) (Option Bytes × SackFrame) := do
  let packet ← onDevice (Device.receivePacket env raw)
  let plaintext ← onDevice (Device.decryptPacket packet)
  let s ← get
  let (delivered, channel) := s.channel.accept packet.sequence plaintext
  set { s with channel := channel }
  return (delivered, channel.buildSack)

/-- `build_sack_ack`. -/
def buildSackAck (env : Env) (sack : SackFrame) : EStateM Exn (ChannelEnd C) Bytes := do
  let peerId ← onProtocol Endpoint.requirePeer
  let _ ← onDevice (Device.getSession peerId)
  let payload ← ofExcept sack.encode
  let packet ← onDevice (Device.buildSealed env .ack flagEncrypted peerId payload Device.signed)
  ofExcept packet.toBytes

/-- What the usage notes do with an ACK packet: receive it, decrypt it, and
    process the frame in it. -/
def receiveAck (env : Env) (raw : Bytes) : EStateM Exn (ChannelEnd C) Nat := do
  let packet ← onDevice (Device.receivePacket env raw)
  let payload ← onDevice (Device.decryptPacket packet)
  let sack ← ofExcept (SackFrame.decode payload)
  let s ← get
  set { s with channel := (s.channel.processSack sack).1 }
  return (s.channel.processSack sack).2

/-- `maybe_send` of the cover traffic, on the protocol of the channel: nothing
    until the interval is over, then a DATA packet around random bytes. -/
def maybeSend (env : Env) (nowMs : Rat) (urandom : Nat → Bytes) (cover : CoverTraffic) :
    EStateM Exn (ChannelEnd C) (Option Bytes × CoverTraffic) :=
  -- The timer moves only when a packet was built.
  if nowMs - cover.lastSendMs < cover.intervalMs then return (none, cover)
  else do
    let wire ← onProtocol (dataPacket env cover.useMac (urandom cover.coverSize))
    return (some wire, { cover with lastSendMs := nowMs })

end ChannelEnd

end Ztlnp
