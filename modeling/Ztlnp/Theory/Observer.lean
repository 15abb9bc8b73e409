import Ztlnp.Lib.Lockstep
import Ztlnp.Theory.Bench

/-!
# What an Observer Sees

A session with its channels and its cover traffic, and somebody who listens to
the wire without knowing a key.

Such an observer sees the header of every packet and how long the packet is.
The payload is a ciphertext, and what authenticates it is a signature or a tag
over it; both are blanked out here. What is left does not depend on what was
said. A header is made before the plaintext is looked at, apart from its
length, and whether a packet can be built at all depends on its length alone.
So two runs of a session that differ only in what they say look the same,
packet by packet, with all retransmissions, acknowledgements and failures.

A cover packet that is due is built like a real one, and moves the timer like
a real one does. It can stand in for any real packet of its length that is
authenticated in the same way. It must be the same way: the header says
whether there is a signature or a tag, and the default of the cover traffic is
not the default of the channels.

Nothing is said here about ciphertexts. That they can be blanked out is what
encryption is for.

## Main definitions

* `blanked`: A packet as the observer sees it.
* `Channel.blanked`, `ReliableChannel.blanked`: The same for packets in flight.
* `Tap`, `TapAct`, `Tap.step`: A session with what was put on its wire and what was
  raised.
* `TapAct.Alike`: Two acts that differ in what they say.
* `Veiled`: Two outcomes of a builder that look the same.
* `Tap.Alike`: Two sessions that look the same.

## Theorems

* `sealedWire_blanked`: What a sealed packet looks like depends on the length of
  its plaintext.
* `numbered_veiled`: So it does for every builder.
* `step_alike`: Alike acts keep sessions alike.
* `dataPacket_told_iff`: When one DATA packet can be told from another.
* `observer_sees_lengths`: An observer learns how long, and not what.
-/

namespace Ztlnp

variable {C : Primitives}

/-- A packet with everything behind its header blanked out. -/
def blanked (raw : Bytes) : Bytes :=
  raw.take headerSize ++ List.replicate (raw.length - headerSize) 0

theorem blanked_append (header rest : Bytes) (h : header.length = headerSize) :
    blanked (header ++ rest) = header ++ List.replicate rest.length 0 := by
  rw [blanked, List.take_left' h, List.length_append, h, Nat.add_sub_cancel_left]

theorem blanked_take (raw : Bytes) : (blanked raw).take headerSize = raw.take headerSize := by
  rw [blanked, List.take_append, List.take_take, Nat.min_self, List.length_take]
  rcases Nat.le_total headerSize raw.length with hle | hle
  · rw [Nat.min_eq_left hle, Nat.sub_self, List.take_zero, List.append_nil]
  · rw [Nat.sub_eq_zero_of_le hle, List.replicate_zero, List.take_nil, List.append_nil]

/-- The number of a packet is in its header. -/
theorem wireSequence_blanked (raw : Bytes) : wireSequence (blanked raw) = wireSequence raw := by
  have hfield : ∀ r : Bytes, field r 80 4 = field (r.take headerSize) 80 4 := by
    intro r
    simp only [field, List.drop_take, List.take_take]
    rfl
  rw [wireSequence, wireSequence, hfield, hfield raw, blanked_take]

namespace Packet

/-- The header is made of the fields and of the length of the payload. -/
theorem headerBytes_congr (p q : Packet) (hlength : p.payload.length = q.payload.length)
    (hfields : { p.toPacketFields with payload := [], signature := [] }
      = { q.toPacketFields with payload := [], signature := [] }) :
    p.headerBytes = q.headerBytes := by
  simp only [PacketFields.mk.injEq] at hfields
  rcases hfields with ⟨htype, hsender, _, hrecipient, hflags, hsequence, hnonce, htime, _⟩
  simp only [headerBytes, hlength, htype, hsender, hrecipient, hflags, hsequence, hnonce, htime]

end Packet

/-- Either way of authenticating a packet serialises it first, and produces as
    many octets as the other. -/
theorem auth_cases (d : Device C) (s : Session)
    (auth : Device C → Session → Packet → Except Exn Bytes)
    (hauth : auth = Device.signed ∨ auth = Device.tagged) :
    ∃ f : Bytes → Bytes, (∀ b, (f b).length = sigSize) ∧
      ∀ p : Packet, auth d s p = (do return f (← p.signedBytes)) := by
  rcases hauth with rfl | rfl
  · exact ⟨C.ed25519Sign d.identityPrivate, C.ed25519Sign_length _, fun p => rfl⟩
  · exact ⟨C.hmacSha512 s.macKey, C.hmacSha512_length _, fun p => rfl⟩

/-- Two outcomes that look the same: packets that do, or one exception. -/
inductive SameView : Except Exn Bytes → Except Exn Bytes → Prop
  | built (wire wire' : Bytes) (h : blanked wire = blanked wire') : SameView (.ok wire) (.ok wire')
  | raised (x : Exn) : SameView (.error x) (.error x)

/-- Packets with the same fields, around payloads of the same length, look the same
    once they are authenticated, or cannot be serialised. -/
theorem authenticated_blanked (d : Device C) (s : Session)
    (auth : Device C → Session → Packet → Except Exn Bytes)
    (hauth : auth = Device.signed ∨ auth = Device.tagged) (p q : Packet)
    (hlength : p.payload.length = q.payload.length)
    (hfields : { p.toPacketFields with payload := [], signature := [] }
      = { q.toPacketFields with payload := [], signature := [] }) :
    SameView
      (auth d s p >>= fun signature => Packet.toBytes { p with signature := signature })
      (auth d s q >>= fun signature => Packet.toBytes { q with signature := signature }) := by
  have hheader := Packet.headerBytes_congr p q hlength hfields
  rcases auth_cases d s auth hauth with ⟨f, hf, hrun⟩
  -- The signature does not enter the header, so the same header is written for every one.
  have hserial : ∀ (r : Packet) (signature : Bytes),
      Packet.toBytes { r with signature := signature }
        = (r.headerBytes >>= fun b => .ok (b ++ r.payload ++ signature)) := by
    intro r signature
    cases hb : r.headerBytes with
    | error x =>
        have hb' : Packet.headerBytes { r with signature := signature } = .error x := hb
        simp only [Packet.toBytes, Packet.signedBytes, hb', bind, Except.bind]
    | ok b =>
        have hb' : Packet.headerBytes { r with signature := signature } = .ok b := hb
        simp only [Packet.toBytes, Packet.signedBytes, hb', bind, Except.bind, pure, Except.pure]
  simp only [hrun, hserial, Packet.signedBytes, ← hheader]
  cases hb : p.headerBytes with
  | error x => exact .raised x
  | ok b =>
      have hb' := ((Packet.headerBytes_eq_ok p b).mp hb).2
      -- Past the header only the lengths are left, and they are the same.
      refine .built _ _ ?_
      rw [List.append_assoc, List.append_assoc,
        blanked_append b _ (hb' ▸ p.layout_length), blanked_append b _ (hb' ▸ p.layout_length),
        List.length_append, List.length_append, hf, hf, hlength]

/-- What a sealed packet looks like depends on its plaintext only through the
    length. -/
theorem sealedWire_blanked (d : Device C) (env : Env) (ptype : PacketType) (flags : Nat)
    (peerId x y : Bytes) (s : Session) (n : Nat)
    (auth : Device C → Session → Packet → Except Exn Bytes)
    (hauth : auth = Device.signed ∨ auth = Device.tagged) (hlength : x.length = y.length) :
    SameView (d.sealPacket env ptype flags peerId x s n auth >>= Packet.toBytes)
      (d.sealPacket env ptype flags peerId y s n auth >>= Packet.toBytes) := by
  simp only [Device.sealPacket, bind_assoc, pure_bind]
  by_cases hsender : d.deviceId.length = 32
  · by_cases hrecipient : peerId.length = 32
    · by_cases hnonce : env.nonce.length = 12
      · simp only [PacketFields.postInit, dif_pos hsender, dif_pos hrecipient, dif_pos hnonce]
        refine authenticated_blanked d s auth hauth _ _ ?_ rfl
        simp only [C.aesGcmEncrypt_length, hlength]
      · simp only [PacketFields.postInit, dif_pos hsender, dif_pos hrecipient, dif_neg hnonce]
        exact .raised _
    · simp only [PacketFields.postInit, dif_pos hsender, dif_neg hrecipient]
      exact .raised _
  · simp only [PacketFields.postInit, dif_neg hsender]
    exact .raised _

/-- Two outcomes of a builder that look the same and leave the same behind. -/
inductive Veiled {σ : Type} : EStateM.Result Exn σ Bytes → EStateM.Result Exn σ Bytes → Prop
  | built (wire wire' : Bytes) (s : σ) (h : blanked wire = blanked wire') :
      Veiled (.ok wire s) (.ok wire' s)
  | raised (x : Exn) (s : σ) : Veiled (.error x s) (.error x s)

theorem veiled_refl {σ : Type} (r : EStateM.Result Exn σ Bytes) : Veiled r r := by
  cases r with
  | ok wire s => exact .built wire wire s rfl
  | error x s => exact .raised x s

theorem veiled_ofExcept {σ : Type} (r r' : Except Exn Bytes) (h : SameView r r') (s : σ) :
    Veiled ((ofExcept r).run s) ((ofExcept r').run s) := by
  cases h with
  | built wire wire' hsame => exact .built wire wire' s hsame
  | raised x => exact .raised x s

/-- A common first part changes nothing. -/
theorem veiled_bind {σ α : Type} (x : EStateM Exn σ α) (f g : α → EStateM Exn σ Bytes) (s : σ)
    (h : ∀ a t, Veiled ((f a).run t) ((g a).run t)) :
    Veiled ((x >>= f).run s) ((x >>= g).run s) := by
  rw [EStateM.run_bind, EStateM.run_bind]
  cases x.run s with
  | ok a t => exact h a t
  | error e t => exact .raised e t

namespace ChannelEnd

/-- The two steps that all builders end in. -/
theorem sealedBytes_veiled (env : Env) (ptype : PacketType) (flags : Nat) (peerId x y : Bytes)
    (auth : Device C → Session → Packet → Except Exn Bytes)
    (hauth : auth = Device.signed ∨ auth = Device.tagged) (hlength : x.length = y.length)
    (e : Endpoint C) :
    Veiled ((sealedBytes env ptype flags peerId x auth).run e)
      ((sealedBytes env ptype flags peerId y auth).run e) := by
  simp only [sealedBytes, EStateM.run_bind, Endpoint.run_onDevice]
  cases hget : e.device.sessions.get? peerId with
  | none =>
      rw [Device.buildSealed_none _ _ _ _ _ _ _ hget, Device.buildSealed_none _ _ _ _ _ _ _ hget]
      exact .raised _ _
  | some s =>
      rw [Device.buildSealed_some _ _ _ _ _ _ _ _ hget,
        Device.buildSealed_some _ _ _ _ _ _ _ _ hget]
      have hview := veiled_ofExcept _ _ (sealedWire_blanked (e.device.advanced peerId s) env ptype
        flags peerId x y s s.localSequence auth hauth hlength) (e.advanced peerId s)
      -- Either plaintext is sealed or refused, and then serialised or refused.
      generalize (e.device.advanced peerId s).sealPacket env ptype flags peerId x s s.localSequence
        auth = p at hview ⊢
      generalize (e.device.advanced peerId s).sealPacket env ptype flags peerId y s s.localSequence
        auth = q at hview ⊢
      cases p with
      | error _ => cases q with
        | error _ => exact hview
        | ok _ => exact hview
      | ok _ => cases q with
        | error _ => exact hview
        | ok _ => exact hview

/-- A DATA packet, whichever way it is authenticated. -/
theorem dataPacket_veiled (env : Env) (useMac : Bool) (x y : Bytes) (hlength : x.length = y.length)
    (e : Endpoint C) :
    Veiled ((dataPacket env useMac x).run e) ((dataPacket env useMac y).run e) := by
  cases useMac with
  | true =>
      refine veiled_bind Endpoint.requirePeer _ _ e (fun peerId e' => ?_)
      exact sealedBytes_veiled env .data (flagEncrypted ||| flagMacAuth) peerId x y Device.tagged
        (Or.inr rfl) hlength e'
  | false =>
      refine veiled_bind Endpoint.requireEstablished _ _ e (fun _ e' => ?_)
      refine veiled_bind Endpoint.requirePeer _ _ e' (fun peerId e' => ?_)
      exact sealedBytes_veiled env .data flagEncrypted peerId x y Device.signed (Or.inl rfl) hlength
        e'

/-- An ACK of either kind. -/
theorem ackBytes_veiled (env : Env) (x y : Bytes) (hlength : x.length = y.length)
    (e : Endpoint C) :
    Veiled ((ackBytes env (.ok x)).run e) ((ackBytes env (.ok y)).run e) := by
  refine veiled_bind Endpoint.requirePeer _ _ e (fun peerId e' => ?_)
  refine veiled_bind (Endpoint.onDevice (Device.getSession peerId)) _ _ e' (fun _ e' => ?_)
  exact sealedBytes_veiled env .ack flagEncrypted peerId x y Device.signed (Or.inl rfl) hlength e'

end ChannelEnd

/-- Packets of one kind around plaintexts of one length. What is acknowledged is a
    plaintext too. -/
inductive Numbered.Alike : Numbered → Numbered → Prop
  | same (b : Numbered) : Alike b b
  | data (x y : Bytes) (h : x.length = y.length) : Alike (.data x) (.data y)
  | dataMac (x y : Bytes) (h : x.length = y.length) : Alike (.dataMac x) (.dataMac y)
  | ack (m n : Nat) (hm : m < 256 ^ 4) (hn : n < 256 ^ 4) : Alike (.ack m) (.ack n)
  | sackAck (f g : SackFrame) (x y : Bytes) (hf : f.encode = .ok x) (hg : g.encode = .ok y)
      (h : x.length = y.length) : Alike (.sackAck f) (.sackAck g)

/-- Packets of every kind look the same if they are alike. -/
theorem numbered_veiled (env : Env) (b b' : Numbered) (h : b.Alike b') :
    ∃ x x' : EStateM Exn (Endpoint C) Bytes, b.run env = ChannelEnd.onProtocol x ∧
      b'.run env = ChannelEnd.onProtocol x' ∧ ∀ e, Veiled (x.run e) (x'.run e) := by
  cases h with
  | same =>
      rcases ChannelEnd.numbered_draws (C := C) env b with ⟨x, hx, _⟩
      exact ⟨x, x, hx, hx, fun e => veiled_refl _⟩
  | data x y h =>
      refine ⟨_, _, ChannelEnd.peerBytes_sealed env .data flagEncrypted x Device.signed,
        ChannelEnd.peerBytes_sealed env .data flagEncrypted y Device.signed, fun e => ?_⟩
      exact veiled_bind Endpoint.requirePeer _ _ e (fun id e' =>
        ChannelEnd.sealedBytes_veiled env _ _ id x y _ (Or.inl rfl) h e')
  | dataMac x y h =>
      refine ⟨_, _,
        ChannelEnd.peerBytes_sealed env .data (flagEncrypted ||| flagMacAuth) x Device.tagged,
        ChannelEnd.peerBytes_sealed env .data (flagEncrypted ||| flagMacAuth) y Device.tagged,
        fun e => ?_⟩
      exact veiled_bind Endpoint.requirePeer _ _ e (fun id e' =>
        ChannelEnd.sealedBytes_veiled env _ _ id x y _ (Or.inr rfl) h e')
  -- The two acknowledgements have payloads of one length, as their numbers fit.
  | ack m n hm hn =>
      refine ⟨_, _, ChannelEnd.acknowledgement_eq env m, ChannelEnd.acknowledgement_eq env n,
        fun e => ?_⟩
      rw [packUInt, if_pos hm, packUInt, if_pos hn]
      refine ChannelEnd.ackBytes_veiled env _ _ ?_ e
      rw [beEncode_length, beEncode_length]
  | sackAck f g x y hf hg h =>
      refine ⟨_, _, ChannelEnd.buildSackAck_eq env f, ChannelEnd.buildSackAck_eq env g,
        fun e => ?_⟩
      rw [hf, hg]
      exact ChannelEnd.ackBytes_veiled env x y h e

/-- A packet in flight as the observer has seen it. -/
def WindowedPacket.blanked (w : WindowedPacket) : WindowedPacket :=
  { w with packetBytes := Ztlnp.blanked w.packetBytes }

/-- All packets in flight. -/
def blankedBox (box : Dict Nat WindowedPacket) : Dict Nat WindowedPacket :=
  box.mapValues (fun _ w => w.blanked)

/-- The channels as the observer has to imagine them. -/
def Channel.blanked (c : Channel) : Channel := { c with sendWindow := blankedBox c.sendWindow }

def ReliableChannel.blanked (r : ReliableChannel) : ReliableChannel :=
  { r with pending := blankedBox r.pending }

@[simp]
theorem blankedBox_size (box : Dict Nat WindowedPacket) : (blankedBox box).size = box.size :=
  Dict.size_mapValues box _

@[simp]
theorem blankedBox_keys (box : Dict Nat WindowedPacket) : (blankedBox box).keys = box.keys :=
  Dict.keys_mapValues box _

/-- A packet is put in flight, whatever its bytes are. -/
theorem blankedBox_set (box : Dict Nat WindowedPacket) (n : Nat) (w : WindowedPacket) :
    blankedBox (box.set n w) = (blankedBox box).set n w.blanked :=
  (Dict.set_mapValues box (fun _ w => w.blanked) n w).symm

/-- What an acknowledgement removes does not depend on the bytes. -/
theorem blankedBox_filter (box : Dict Nat WindowedPacket) (p : Nat → Bool) :
    blankedBox (box.filter (fun n _ => p n)) = (blankedBox box).filter (fun n _ => p n) :=
  (Dict.filter_mapValues box (fun _ w => w.blanked) (fun n _ => p n)).symm

section Polls

variable (due sent : Nat → Rat) (maxMs : Rat) (maxRetries : Nat)

/-- Neither does what a poll finds lost, -/
theorem lost_blanked (box : Dict Nat WindowedPacket) :
    (retryTimer due sent maxMs maxRetries).lost (blankedBox box)
      = (retryTimer due sent maxMs maxRetries).lost box := by
  rw [Timer.lost, blankedBox, Dict.filter_mapValues, Dict.keys_mapValues]
  rfl

/-- what it leaves, -/
theorem swept_blanked (box : Dict Nat WindowedPacket) :
    (retryTimer due sent maxMs maxRetries).swept (blankedBox box)
      = blankedBox ((retryTimer due sent maxMs maxRetries).swept box) := by
  rw [Timer.swept, Timer.swept, lost_blanked, blankedBox_filter]
  congr 1
  rw [blankedBox, blankedBox, Dict.mapValues_mapValues, Dict.mapValues_mapValues]
  congr 1
  funext n w
  -- Attempts and times are the same, and the bytes are carried along.
  by_cases hover : (retryTimer due sent maxMs maxRetries).isOverdue n w = true
  · rw [if_pos hover]
    exact if_pos hover
  · rw [if_neg hover]
    exact if_neg hover

/-- and what it hands out, as far as the observer sees it. -/
theorem overdue_blanked (box : Dict Nat WindowedPacket) :
    (((retryTimer due sent maxMs maxRetries).overdue box).entries.map
      (fun e => e.2.packetBytes)).map blanked
      = ((retryTimer due sent maxMs maxRetries).overdue (blankedBox box)).entries.map
          (fun e => e.2.packetBytes) := by
  rw [Timer.overdue, Timer.overdue, blankedBox, Dict.filter_mapValues, Dict.mapValues,
    List.map_map, List.map_map]
  rfl

end Polls

namespace Channel

theorem blanked_canSend (c : Channel) : c.blanked.canSend = c.canSend := by
  simp only [canSend, blanked, blankedBox_size]

theorem blanked_enqueued (c : Channel) (n : Nat) (wire : Bytes) (now : Rat) :
    (c.enqueued n wire now).blanked = c.blanked.enqueued n (Ztlnp.blanked wire) now := by
  have hset := blankedBox_set c.sendWindow n
    { sequence := n, packetBytes := wire, sentAt := now, nextTimeoutMs := c.baseMs }
  have hsize := congrArg Dict.size hset
  rw [blankedBox_size] at hsize
  simp only [blanked, enqueued, hset, hsize]
  rfl

theorem blanked_processSack (c : Channel) (sack : SackFrame) :
    (c.processSack sack).1.blanked = (c.blanked.processSack sack).1 := by
  have hfilter := blankedBox_filter c.sendWindow (fun n => n ∉ sack.allAcked)
  have hkeys := congrArg Dict.keys hfilter
  rw [blankedBox_keys] at hkeys
  simp only [blanked, processSack, hfilter, hkeys]

theorem blanked_accept (c : Channel) (n : Nat) (plaintext : Bytes) :
    (c.accept n plaintext).2.blanked = (c.blanked.accept n plaintext).2 := by
  have hcount : c.blanked.counted n = c.counted n := rfl
  rcases accept_cases c n plaintext with ⟨hturn, h⟩ | ⟨hearly, h⟩ | ⟨hlate, h⟩
  · rcases accept_cases c.blanked n plaintext with ⟨_, h'⟩ | ⟨hearly', _⟩ | ⟨hlate', _⟩
    · rw [h, h']
      rfl
    · omega
    · omega
  · rcases accept_cases c.blanked n plaintext with ⟨hturn', _⟩ | ⟨_, h'⟩ | ⟨hlate', _⟩
    · omega
    · rw [h, h']
      rfl
    · omega
  · rcases accept_cases c.blanked n plaintext with ⟨hturn', _⟩ | ⟨hearly', _⟩ | ⟨_, h'⟩
    · omega
    · omega
    · rw [h, h']
      rfl

/-- A poll of a channel as the observer imagines it. -/
theorem blanked_getRetransmissions (due sent : Nat → Rat) (c : Channel) :
    (getRetransmissions due sent).run c.blanked = match (getRetransmissions due sent).run c with
      | .ok again d => .ok (again.map Ztlnp.blanked) d.blanked
      | .error x d => .error x d.blanked := by
  have hlost := lost_blanked due sent c.maxMs c.maxRetries c.sendWindow
  have hswept := swept_blanked due sent c.maxMs c.maxRetries c.sendWindow
  have hover := overdue_blanked due sent c.maxMs c.maxRetries c.sendWindow
  rw [getRetransmissions_run, getRetransmissions_run]
  simp only [timer, blanked, hlost, hswept, ← hover]
  by_cases hnone : (retryTimer due sent c.maxMs c.maxRetries).lost c.sendWindow = []
  · simp only [hnone, if_true]
  · simp only [hnone, if_false]

/-- Polls of two channels that look the same end alike. -/
theorem getRetransmissions_alike (due sent : Nat → Rat) {c c' : Channel}
    (h : c.blanked = c'.blanked) :
    (∃ again again' d d', (getRetransmissions due sent).run c = .ok again d ∧
      (getRetransmissions due sent).run c' = .ok again' d' ∧ d.blanked = d'.blanked ∧
      again.map Ztlnp.blanked = again'.map Ztlnp.blanked) ∨
    ∃ x d d', (getRetransmissions due sent).run c = .error x d ∧
      (getRetransmissions due sent).run c' = .error x d' ∧ d.blanked = d'.blanked := by
  have hrun := blanked_getRetransmissions due sent c
  rw [h, blanked_getRetransmissions due sent c'] at hrun
  cases hc : (getRetransmissions due sent).run c with
  | ok again d => cases hc' : (getRetransmissions due sent).run c' with
    | ok again' d' =>
        simp only [hc, hc', EStateM.Result.ok.injEq] at hrun
        exact Or.inl ⟨again, again', d, d', rfl, rfl, hrun.2.symm, hrun.1.symm⟩
    | error x d' => simp only [hc, hc', reduceCtorEq] at hrun
  | error x d => cases hc' : (getRetransmissions due sent).run c' with
    | ok again' d' => simp only [hc, hc', reduceCtorEq] at hrun
    | error x' d' =>
        simp only [hc, hc', EStateM.Result.error.injEq] at hrun
        rw [← hrun.1]
        exact Or.inr ⟨x', d, d', rfl, rfl, hrun.2.symm⟩

end Channel

namespace ReliableChannel

theorem blanked_enqueued (r : ReliableChannel) (n : Nat) (wire : Bytes) (now : Rat) :
    (r.enqueued n wire now).blanked = r.blanked.enqueued n (Ztlnp.blanked wire) now := by
  simp only [blanked, enqueued, blankedBox_set]
  rfl

theorem blanked_processAck (r : ReliableChannel) (n : Nat) :
    (r.processAck n).1.blanked = (r.blanked.processAck n).1 := by
  have hfilter := blankedBox_filter r.pending (fun k => k ≠ n)
  simp only [blanked, processAck, Dict.pop, hfilter]

/-- Polls of two channels that look the same end alike. -/
theorem getRetransmissions_alike (due sent : Nat → Rat) {r r' : ReliableChannel}
    (h : r.blanked = r'.blanked) :
    (∃ again again' u u', (getRetransmissions due sent).run r = .ok again u ∧
      (getRetransmissions due sent).run r' = .ok again' u' ∧ u.blanked = u'.blanked ∧
      again.map Ztlnp.blanked = again'.map Ztlnp.blanked) ∨
    ∃ x u u', (getRetransmissions due sent).run r = .error x u ∧
      (getRetransmissions due sent).run r' = .error x u' ∧ u.blanked = u'.blanked := by
  have hwindow : r.asWindow.blanked = r'.asWindow.blanked := congrArg asWindow h
  have hafter : ∀ d d' : Channel, d.blanked = d'.blanked →
      ({ r with pending := d.sendWindow } : ReliableChannel).blanked
        = ({ r' with pending := d'.sendWindow } : ReliableChannel).blanked := by
    intro d d' hd
    have hbox : blankedBox d.sendWindow = blankedBox d'.sendWindow :=
      congrArg Channel.sendWindow hd
    simp only [blanked, ReliableChannel.mk.injEq] at h ⊢
    exact ⟨h.1, h.2.1, h.2.2.1, h.2.2.2.1, hbox⟩
  -- The list of pending entries is polled as a window, and written back as a list.
  simp only [getRetransmissions_run]
  rcases Channel.getRetransmissions_alike due sent hwindow with
    ⟨again, again', d, d', hc, hc', hd, hagain⟩ | ⟨x, d, d', hc, hc', hd⟩
  · rw [hc, hc']
    exact Or.inl ⟨again, again', _, _, rfl, rfl, hafter d d' hd, hagain⟩
  · rw [hc, hc']
    exact Or.inr ⟨x, _, _, rfl, rfl, hafter d d' hd⟩

end ReliableChannel

/-- A session with its channels and its cover traffic, all that was put on its
    wire, first transmissions and retransmissions alike, and what was raised. -/
structure Tap (C : Primitives) where
  endpoint : Endpoint C
  sliding : Channel
  reliable : ReliableChannel
  cover : CoverTraffic
  seen : List Bytes := []
  raised : List Exn := []
deriving DecidableEq

/-- What can happen. A real packet is one that is recorded as such, as the usage
    notes of the cover traffic have it. -/
inductive TapAct
  | build (env : Env) (b : Numbered)
  | real (env : Env) (nowMs : Rat) (useMac : Bool) (plaintext : Bytes)
  | maybeSend (env : Env) (nowMs : Rat) (urandom : Nat → Bytes)
  | recordRealSend (nowMs : Rat)
  | setIntervalMs (value : Rat)
  | send (env : Env) (now : Rat) (plaintext : Bytes)
  | sendReliable (env : Env) (now : Rat) (plaintext : Bytes)
  | receive (env : Env) (raw : Bytes)
  | processSack (sack : SackFrame)
  | processAck (sequence : Nat)
  | poll (due sent : Nat → Rat)
  | pollReliable (due sent : Nat → Rat)

namespace Tap

/-- The sliding-window channel on its protocol. -/
def slidingEnd (t : Tap C) : ChannelEnd C := ⟨t.sliding, t.endpoint⟩

/-- The stop-and-wait channel on the same protocol. -/
def reliableEnd (t : Tap C) : ReliableEnd C := ⟨t.reliable, t.endpoint⟩

/-- One act. A call that raises puts nothing on the wire. -/
def step (t : Tap C) : TapAct → Tap C
  | .build env b =>
    match (b.run env).run t.slidingEnd with
    | .ok wire s => { t with endpoint := s.endpoint, seen := t.seen ++ [wire] }
    | .error x s => { t with endpoint := s.endpoint, raised := t.raised ++ [x] }
  | .real env nowMs useMac plaintext =>
    match (ChannelEnd.dataPacket env useMac plaintext).run t.endpoint with
    | .ok wire e =>
      { t with endpoint := e, cover := t.cover.recordRealSend nowMs, seen := t.seen ++ [wire] }
    | .error x e => { t with endpoint := e, raised := t.raised ++ [x] }
  | .maybeSend env nowMs urandom =>
    match (ChannelEnd.maybeSend env nowMs urandom t.cover).run t.slidingEnd with
    | .ok (wire, cover) s =>
      { t with endpoint := s.endpoint, cover := cover, seen := t.seen ++ wire.toList }
    | .error x s => { t with endpoint := s.endpoint, raised := t.raised ++ [x] }
  | .recordRealSend nowMs => { t with cover := t.cover.recordRealSend nowMs }
  | .setIntervalMs value =>
    match t.cover.setIntervalMs value with
    | .ok cover => { t with cover := cover }
    | .error x => { t with raised := t.raised ++ [x] }
  | .send env now plaintext =>
    match (ChannelEnd.send env now plaintext).run t.slidingEnd with
    | .ok (some (_, wire)) s =>
      { t with endpoint := s.endpoint, sliding := s.channel, seen := t.seen ++ [wire] }
    | .ok none s => { t with endpoint := s.endpoint, sliding := s.channel }
    | .error x s =>
      { t with endpoint := s.endpoint, sliding := s.channel, raised := t.raised ++ [x] }
  | .sendReliable env now plaintext =>
    match (ReliableEnd.send env now plaintext).run t.reliableEnd with
    | .ok (_, wire) s =>
      { t with endpoint := s.endpoint, reliable := s.channel, seen := t.seen ++ [wire] }
    | .error x s =>
      { t with endpoint := s.endpoint, reliable := s.channel, raised := t.raised ++ [x] }
  | .receive env raw =>
    match (ChannelEnd.receive env raw).run t.slidingEnd with
    | .ok _ s => { t with endpoint := s.endpoint, sliding := s.channel }
    | .error x s =>
      { t with endpoint := s.endpoint, sliding := s.channel, raised := t.raised ++ [x] }
  | .processSack sack => { t with sliding := (t.sliding.processSack sack).1 }
  | .processAck n => { t with reliable := (t.reliable.processAck n).1 }
  | .poll due sent =>
    match (Channel.getRetransmissions due sent).run t.sliding with
    | .ok again c => { t with sliding := c, seen := t.seen ++ again }
    | .error x c => { t with sliding := c, raised := t.raised ++ [x] }
  | .pollReliable due sent =>
    match (ReliableChannel.getRetransmissions due sent).run t.reliable with
    | .ok again r => { t with reliable := r, seen := t.seen ++ again }
    | .error x r => { t with reliable := r, raised := t.raised ++ [x] }

/-- Two sessions that look the same: they differ in what their packets carry, and
    in nothing else. -/
structure Alike (t t' : Tap C) : Prop where
  endpoint : t.endpoint = t'.endpoint
  cover : t.cover = t'.cover
  sliding : t.sliding.blanked = t'.sliding.blanked
  reliable : t.reliable.blanked = t'.reliable.blanked
  seen : t.seen.map blanked = t'.seen.map blanked
  raised : t.raised = t'.raised

end Tap

/-- Two acts that differ in what they say, and a cover packet that stands in for a
    real one. Whether it can depends on the timer. -/
inductive TapAct.Alike (t : Tap C) : TapAct → TapAct → Prop
  | same (a : TapAct) : Alike t a a
  | build (env : Env) (b b' : Numbered) (h : b.Alike b') : Alike t (.build env b) (.build env b')
  | real (env : Env) (nowMs : Rat) (useMac : Bool) (x y : Bytes) (h : x.length = y.length) :
      Alike t (.real env nowMs useMac x) (.real env nowMs useMac y)
  | cover (env : Env) (nowMs : Rat) (urandom urandom' : Nat → Bytes)
      (h : (urandom t.cover.coverSize).length = (urandom' t.cover.coverSize).length) :
      Alike t (.maybeSend env nowMs urandom) (.maybeSend env nowMs urandom')
  | covered (env : Env) (nowMs : Rat) (x : Bytes) (urandom : Nat → Bytes)
      (hdue : ¬ nowMs - t.cover.lastSendMs < t.cover.intervalMs)
      (h : x.length = (urandom t.cover.coverSize).length) :
      Alike t (.real env nowMs t.cover.useMac x) (.maybeSend env nowMs urandom)
  | uncovered (env : Env) (nowMs : Rat) (x : Bytes) (urandom : Nat → Bytes)
      (hdue : ¬ nowMs - t.cover.lastSendMs < t.cover.intervalMs)
      (h : (urandom t.cover.coverSize).length = x.length) :
      Alike t (.maybeSend env nowMs urandom) (.real env nowMs t.cover.useMac x)
  | send (env : Env) (now : Rat) (x y : Bytes) (h : x.length = y.length) :
      Alike t (.send env now x) (.send env now y)
  | sendReliable (env : Env) (now : Rat) (x y : Bytes) (h : x.length = y.length) :
      Alike t (.sendReliable env now x) (.sendReliable env now y)

section Steps

variable {t t' : Tap C}

/-- What is put on the wire is put on both. -/
theorem seen_append {seen seen' again again' : List Bytes}
    (h : seen.map blanked = seen'.map blanked) (hagain : again.map blanked = again'.map blanked) :
    (seen ++ again).map blanked = (seen' ++ again').map blanked := by
  rw [List.map_append, List.map_append, h, hagain]

/-- And so it is with what is raised. -/
theorem raised_append {raised raised' : List Exn} (h : raised = raised') (x : Exn) :
    raised ++ [x] = raised' ++ [x] := by
  rw [h]

/-- A builder on sessions that look the same. -/
theorem build_alike (h : t.Alike t') (env : Env) (b b' : Numbered) (hb : b.Alike b') :
    (t.step (.build env b)).Alike (t'.step (.build env b')) := by
  rcases numbered_veiled (C := C) env b b' hb with ⟨x, x', hx, hx', hveiled⟩
  simp only [Tap.step, hx, hx', ChannelEnd.run_onProtocol, Tap.slidingEnd, ← h.endpoint]
  have hrun := hveiled t.endpoint
  generalize x.run t.endpoint = r at hrun
  generalize x'.run t.endpoint = r' at hrun
  cases hrun with
  | built wire wire' e hsame =>
      exact ⟨rfl, h.cover, h.sliding, h.reliable,
        seen_append h.seen (by rw [List.map_singleton, List.map_singleton, hsame]), h.raised⟩
  | raised y e => exact ⟨rfl, h.cover, h.sliding, h.reliable, h.seen, raised_append h.raised y⟩

/-- A real packet. -/
theorem real_alike (h : t.Alike t') (env : Env) (nowMs : Rat) (useMac : Bool) (x y : Bytes)
    (hlength : x.length = y.length) :
    (t.step (.real env nowMs useMac x)).Alike (t'.step (.real env nowMs useMac y)) := by
  simp only [Tap.step, ← h.endpoint]
  have hrun := ChannelEnd.dataPacket_veiled env useMac x y hlength t.endpoint
  generalize (ChannelEnd.dataPacket env useMac x).run t.endpoint = r at hrun
  generalize (ChannelEnd.dataPacket env useMac y).run t.endpoint = r' at hrun
  cases hrun with
  | built wire wire' e hsame =>
      exact ⟨rfl, congrArg (CoverTraffic.recordRealSend nowMs) h.cover, h.sliding, h.reliable,
        seen_append h.seen (by rw [List.map_singleton, List.map_singleton, hsame]), h.raised⟩
  | raised y e => exact ⟨rfl, h.cover, h.sliding, h.reliable, h.seen, raised_append h.raised y⟩

/-- A cover packet that is due does what a real packet does. -/
theorem maybeSend_due (t : Tap C) (env : Env) (nowMs : Rat) (urandom : Nat → Bytes)
    (hdue : ¬ nowMs - t.cover.lastSendMs < t.cover.intervalMs) :
    t.step (.maybeSend env nowMs urandom)
      = t.step (.real env nowMs t.cover.useMac (urandom t.cover.coverSize)) := by
  simp only [Tap.step, ChannelEnd.maybeSend_run, if_neg hdue, Tap.slidingEnd]
  cases (ChannelEnd.dataPacket env t.cover.useMac (urandom t.cover.coverSize)).run t.endpoint with
  | ok wire e => rfl
  | error x e => rfl

/-- One that is not due does nothing. -/
theorem maybeSend_idle (t : Tap C) (env : Env) (nowMs : Rat) (urandom : Nat → Bytes)
    (hidle : nowMs - t.cover.lastSendMs < t.cover.intervalMs) :
    t.step (.maybeSend env nowMs urandom) = t := by
  simp only [Tap.step, ChannelEnd.maybeSend_run, if_pos hidle, Tap.slidingEnd, Option.toList_none,
    List.append_nil]

theorem cover_alike (h : t.Alike t') (env : Env) (nowMs : Rat) (urandom urandom' : Nat → Bytes)
    (hlength : (urandom t.cover.coverSize).length = (urandom' t.cover.coverSize).length) :
    (t.step (.maybeSend env nowMs urandom)).Alike (t'.step (.maybeSend env nowMs urandom')) := by
  by_cases hidle : nowMs - t.cover.lastSendMs < t.cover.intervalMs
  · rw [maybeSend_idle t env nowMs urandom hidle,
      maybeSend_idle t' env nowMs urandom' (h.cover ▸ hidle)]
    exact h
  · rw [maybeSend_due t env nowMs urandom hidle,
      maybeSend_due t' env nowMs urandom' (h.cover ▸ hidle), ← h.cover]
    exact real_alike h env nowMs _ _ _ hlength

/-- The channel reads the number of a packet back out of its bytes. -/
theorem sequence_of_blanked {wire wire' : Bytes} (h : blanked wire = blanked wire') :
    beDecode (field wire sequenceOffset 4) = beDecode (field wire' sequenceOffset 4) := by
  have hnumber := congrArg wireSequence h
  rw [wireSequence_blanked, wireSequence_blanked] at hnumber
  exact hnumber

/-- Sending over the sliding window. What it does beside building a packet depends
    on the number of packets in flight and on the header of the new one. -/
theorem send_alike (h : t.Alike t') (env : Env) (now : Rat) (x y : Bytes)
    (hlength : x.length = y.length) :
    (t.step (.send env now x)).Alike (t'.step (.send env now y)) := by
  -- Room and builder are chosen by what the views show, so both runs choose the same.
  have hroom : t.sliding.canSend = t'.sliding.canSend := by
    rw [← Channel.blanked_canSend, h.sliding, Channel.blanked_canSend]
  have hmac : t.sliding.useMac = t'.sliding.useMac := by
    have hfield := congrArg Channel.useMac h.sliding
    exact hfield
  simp only [Tap.step, ChannelEnd.send_run, Tap.slidingEnd, ← hroom, ← hmac, ← h.endpoint]
  by_cases hcan : t.sliding.canSend = true
  · rw [if_pos hcan, if_pos hcan]
    have hrun := ChannelEnd.dataPacket_veiled env t.sliding.useMac x y hlength t.endpoint
    generalize (ChannelEnd.dataPacket env t.sliding.useMac x).run t.endpoint = r at hrun
    generalize (ChannelEnd.dataPacket env t.sliding.useMac y).run t.endpoint = r' at hrun
    -- The builder ends the same way on both sides; what was built looks the same.
    cases hrun with
    | built wire wire' e hsame =>
        refine ⟨rfl, h.cover, ?_, h.reliable,
          seen_append h.seen (by rw [List.map_singleton, List.map_singleton, hsame]), h.raised⟩
        simp only [Channel.blanked_enqueued, h.sliding, sequence_of_blanked hsame, hsame]
    | raised y e =>
        exact ⟨rfl, h.cover, h.sliding, h.reliable, h.seen, raised_append h.raised y⟩
  · rw [if_neg hcan, if_neg hcan]
    exact ⟨rfl, h.cover, h.sliding, h.reliable, h.seen, h.raised⟩

/-- And over the other channel. -/
theorem sendReliable_alike (h : t.Alike t') (env : Env) (now : Rat) (x y : Bytes)
    (hlength : x.length = y.length) :
    (t.step (.sendReliable env now x)).Alike (t'.step (.sendReliable env now y)) := by
  have hmac : t.reliable.useMac = t'.reliable.useMac := by
    have hfield := congrArg ReliableChannel.useMac h.reliable
    exact hfield
  simp only [Tap.step, ReliableEnd.send_run, Tap.reliableEnd, ← hmac, ← h.endpoint]
  have hrun := ChannelEnd.dataPacket_veiled env t.reliable.useMac x y hlength t.endpoint
  generalize (ChannelEnd.dataPacket env t.reliable.useMac x).run t.endpoint = r at hrun
  generalize (ChannelEnd.dataPacket env t.reliable.useMac y).run t.endpoint = r' at hrun
  cases hrun with
  | built wire wire' e hsame =>
      refine ⟨rfl, h.cover, h.sliding, ?_,
        seen_append h.seen (by rw [List.map_singleton, List.map_singleton, hsame]), h.raised⟩
      simp only [ReliableChannel.blanked_enqueued, h.reliable, sequence_of_blanked hsame, hsame]
  | raised y e => exact ⟨rfl, h.cover, h.sliding, h.reliable, h.seen, raised_append h.raised y⟩

/-- Receiving does not look at the packets in flight. -/
theorem receive_alike (h : t.Alike t') (env : Env) (raw : Bytes) :
    (t.step (.receive env raw)).Alike (t'.step (.receive env raw)) := by
  simp only [Tap.step, ChannelEnd.receive, EStateM.run_bind, ChannelEnd.run_onDevice,
    Tap.slidingEnd, ← h.endpoint]
  cases (Device.receivePacket env raw).run t.endpoint.device with
  | error x d => exact ⟨rfl, h.cover, h.sliding, h.reliable, h.seen, raised_append h.raised x⟩
  | ok p d =>
      simp only
      cases (Device.decryptPacket p).run d with
      | error x d =>
          exact ⟨rfl, h.cover, h.sliding, h.reliable, h.seen, raised_append h.raised x⟩
      | ok plaintext d =>
          refine ⟨rfl, h.cover, ?_, h.reliable, h.seen, h.raised⟩
          simp only [EStateM.run_get, EStateM.run_set, EStateM.run_pure]
          rw [Channel.blanked_accept, Channel.blanked_accept, h.sliding]

/-- Every act. -/
theorem step_alike (h : t.Alike t') (a a' : TapAct) (ha : a.Alike t a') :
    (t.step a).Alike (t'.step a') := by
  cases ha with
  | build env b b' hb => exact build_alike h env b b' hb
  | real env nowMs useMac x y hlength => exact real_alike h env nowMs useMac x y hlength
  | cover env nowMs urandom urandom' hlength => exact cover_alike h env nowMs _ _ hlength
  -- A due cover packet is a DATA packet with random bytes, in place of a real one and the other
  -- way round.
  | covered env nowMs x urandom hdue hlength =>
      rw [maybeSend_due t' env nowMs urandom (h.cover ▸ hdue), ← h.cover]
      exact real_alike h env nowMs _ _ _ hlength
  | uncovered env nowMs x urandom hdue hlength =>
      rw [maybeSend_due t env nowMs urandom hdue]
      exact real_alike h env nowMs _ _ _ hlength
  | send env now x y hlength => exact send_alike h env now x y hlength
  | sendReliable env now x y hlength => exact sendReliable_alike h env now x y hlength
  -- The same act on both sides: one case for every act of the tap.
  | same =>
      cases a with
      | build env b => exact build_alike h env b b (.same b)
      | real env nowMs useMac x => exact real_alike h env nowMs useMac x x rfl
      | maybeSend env nowMs urandom => exact cover_alike h env nowMs urandom urandom rfl
      | send env now x => exact send_alike h env now x x rfl
      | sendReliable env now x => exact sendReliable_alike h env now x x rfl
      | receive env raw => exact receive_alike h env raw
      | recordRealSend nowMs =>
          exact ⟨h.endpoint, congrArg (CoverTraffic.recordRealSend nowMs) h.cover, h.sliding,
            h.reliable, h.seen, h.raised⟩
      -- The interval is refused for its value alone, so both sides refuse it.
      | setIntervalMs value =>
          simp only [Tap.step, ← h.cover]
          cases t.cover.setIntervalMs value with
          | ok cover => exact ⟨h.endpoint, rfl, h.sliding, h.reliable, h.seen, h.raised⟩
          | error x =>
              exact ⟨h.endpoint, rfl, h.sliding, h.reliable, h.seen, raised_append h.raised x⟩
      | processSack sack =>
          refine ⟨h.endpoint, h.cover, ?_, h.reliable, h.seen, h.raised⟩
          simp only [Tap.step, Channel.blanked_processSack, h.sliding]
      | processAck n =>
          refine ⟨h.endpoint, h.cover, h.sliding, ?_, h.seen, h.raised⟩
          simp only [Tap.step, ReliableChannel.blanked_processAck, h.reliable]
      | poll due sent =>
          simp only [Tap.step]
          rcases Channel.getRetransmissions_alike due sent h.sliding with
            ⟨again, again', d, d', hc, hc', hd, hagain⟩ | ⟨x, d, d', hc, hc', hd⟩
          · rw [hc, hc']
            exact ⟨h.endpoint, h.cover, hd, h.reliable, seen_append h.seen hagain, h.raised⟩
          · rw [hc, hc']
            exact ⟨h.endpoint, h.cover, hd, h.reliable, h.seen, raised_append h.raised x⟩
      | pollReliable due sent =>
          -- Both poll what looks the same and raise alike.
          simp only [Tap.step]
          rcases ReliableChannel.getRetransmissions_alike due sent h.reliable with
            ⟨again, again', d, d', hc, hc', hd, hagain⟩ | ⟨x, d, d', hc, hc', hd⟩
          · rw [hc, hc']
            exact ⟨h.endpoint, h.cover, h.sliding, hd, seen_append h.seen hagain, h.raised⟩
          · rw [hc, hc']
            exact ⟨h.endpoint, h.cover, h.sliding, hd, h.seen, raised_append h.raised x⟩

end Steps

/-- What a DATA packet looks like: its flags, and how long it is. -/
theorem dataPacket_shape (env : Env) (useMac : Bool) (x wire : Bytes) (e e' : Endpoint C)
    (h : (ChannelEnd.dataPacket env useMac x).run e = .ok wire e') :
    beDecode (field (blanked wire) 6 2)
        = (if useMac then flagEncrypted ||| flagMacAuth else flagEncrypted) ∧
      (blanked wire).length = headerSize + (x.length + 16 + sigSize) := by
  have hbuilds := ChannelEnd.dataPacket_builds env useMac x e
  rw [h] at hbuilds
  cases hbuilds with
  | built peerId s p wire hpeer hget hseal hwire =>
      have hsealed := (Device.sealPacket_eq_ok _ _ _ _ _ _ _ _ _ _ hseal).1
      have hsig := Device.sealPacket_signature_length _ _ _ _ _ _ _ _ _ _
        (by cases useMac with | true => exact Or.inr rfl | false => exact Or.inl rfl) hseal
      rcases (p.toBytes_eq_ok wire).mp hwire with ⟨⟨hflags, _⟩, rfl⟩
      rw [blanked_append _ _ p.layout_length]
      constructor
      · rcases p.layout_fields (List.replicate (p.payload ++ p.signature).length 0) with
          ⟨_, _, _, hfield, _⟩
        rw [hfield, beDecode_beEncode _ _ hflags, hsealed.flags]
      · rw [List.length_append, List.length_replicate, p.layout_length, List.length_append, hsig,
          hsealed.payload, C.aesGcmEncrypt_length]

/-- Of two DATA packets that could have been built at one point, one can be told from
    the other exactly when their plaintexts are not of one length or they are not
    authenticated in the same way. -/
theorem dataPacket_told_iff (env : Env) (useMac useMac' : Bool) (x y wire wire' : Bytes)
    (e d d' : Endpoint C) (h : (ChannelEnd.dataPacket env useMac x).run e = .ok wire d)
    (h' : (ChannelEnd.dataPacket env useMac' y).run e = .ok wire' d') :
    blanked wire = blanked wire' ↔ x.length = y.length ∧ useMac = useMac' := by
  constructor
  · -- The length and the flags are read off the wire.
    intro hsame
    have hx := dataPacket_shape env useMac x wire e d h
    have hy := dataPacket_shape env useMac' y wire' e d' h'
    rw [hsame] at hx
    refine ⟨by omega, ?_⟩
    have hflags := hx.1.symm.trans hy.1
    cases useMac with
    | true => cases useMac' with
      | true => rfl
      | false => exact absurd hflags (by decide)
    | false => cases useMac' with
      | true => exact absurd hflags (by decide)
      | false => rfl
  · rintro ⟨hlength, rfl⟩
    have hveiled := ChannelEnd.dataPacket_veiled env useMac x y hlength e
    rw [h, h'] at hveiled
    cases hveiled with
    | built _ _ _ hsame => exact hsame

/-- The defaults differ: a cover packet has a tag where a packet of a channel has a
    signature. -/
example : ({ lastSendMs := 0 } : CoverTraffic).useMac ≠ ({} : Channel).useMac := by decide

/-- Two runs of a session, with its channels, its acknowledgements and its cover
    traffic, that take their steps together and differ only in the plaintexts, of
    the same lengths, and in cover packets that stand in for real ones of the same
    length, authenticated in the same way, look the same: as many packets, with the
    same headers and lengths, in the same order. The same exceptions are raised. -/
theorem observer_sees_lengths (t : Tap C) (acts : List (TapAct × TapAct))
    (halike : Along (lockstep Tap.step) (fun s a => a.1.Alike s.1 a.2) (t, t) acts) :
    ((acts.map Prod.fst).foldl Tap.step t).seen.map blanked
        = ((acts.map Prod.snd).foldl Tap.step t).seen.map blanked ∧
      ((acts.map Prod.fst).foldl Tap.step t).raised
        = ((acts.map Prod.snd).foldl Tap.step t).raised := by
  have hends : Tap.Alike ((acts.map Prod.fst).foldl Tap.step t)
      ((acts.map Prod.snd).foldl Tap.step t) :=
    lockstep_related Tap.Alike (fun s a => a.1.Alike s.1 a.2)
      (fun s s' a a' h ha => step_alike h a a' ha) t t acts ⟨rfl, rfl, rfl, rfl, rfl, rfl⟩ halike
  exact ⟨hends.seen, hends.raised⟩

/-- The first of the toy ends, listened to. Its channel retransmits once. -/
def toyTap : Tap toyPrimitives where
  endpoint := (toyEnds {}).1.endpoint
  sliding := { maxRetries := 1 }
  reliable := {}
  cover := { coverSize := 1, lastSendMs := 0 }

/-- A real packet, a message, an acknowledgement, and two polls, the second of which
    finds the message out of attempts. On the other side a cover packet, another
    message and another number, and the same polls. -/
def twoTaps : List (TapAct × TapAct) :=
  [(.real toyEnv 2000 true [7], .maybeSend toyEnv 2000 (fun n => List.replicate n 9)),
    (.send toyEnv 0 [1], .send toyEnv 0 [2]), (.build toyEnv (.ack 3), .build toyEnv (.ack 5)),
    (.poll (fun _ => 1) (fun _ => 1), .poll (fun _ => 1) (fun _ => 1)),
    (.poll (fun _ => 9) (fun _ => 9), .poll (fun _ => 9) (fun _ => 9))]

/-- They look the same, although the packets are others: three that are built, one
    that is sent again, and the error of the last poll. -/
theorem twoTaps_look_the_same :
    let t := (twoTaps.map Prod.fst).foldl Tap.step toyTap
    let t' := (twoTaps.map Prod.snd).foldl Tap.step toyTap
    t.seen.map wireSequence = [1, 2, 3, 2] ∧ (∀ raw ∈ t.seen, raw ∉ t'.seen) ∧
      t.raised.length = 1 ∧ t.seen.map blanked = t'.seen.map blanked ∧ t.raised = t'.raised := by
  have hdue : ¬ (2000 : Rat) - 0 < 1000 := by decide +kernel
  have hsame := observer_sees_lengths toyTap twoTaps
    ⟨.covered toyEnv 2000 [7] _ hdue rfl, .send toyEnv 0 [1] [2] rfl,
      .build toyEnv _ _ (.ack 3 5 (by decide) (by decide)), .same _, .same _, trivial⟩
  have hrun : let t := (twoTaps.map Prod.fst).foldl Tap.step toyTap
      t.seen.map wireSequence = [1, 2, 3, 2] ∧
        (∀ raw ∈ t.seen, raw ∉ ((twoTaps.map Prod.snd).foldl Tap.step toyTap).seen) ∧
        t.raised.length = 1 := by
    decide +kernel
  exact ⟨hrun.1, hrun.2.1, hrun.2.2, hsame⟩

end Ztlnp
