import Ztlnp.Theory.Channels
import Ztlnp.Theory.CrossSession

/-!
# Two Ends of a Channel

One direction of a channel: an end that sends, an end that receives, and a
network between them that loses, reorders and duplicates.

Two ends are paired when each has a session for the other and the sessions
hold the same keys, as a handshake leaves them. Between paired ends a sent
packet is never refused for what it is. It parses, it verifies and it
decrypts, so the replay check alone decides whether it is accepted.

The network is the list of everything that was ever handed to it, first
transmissions and retransmissions alike, and any of it may be delivered at any
time and any number of times. The frames the receiver makes travel in the same
way. What was sent, returned and accepted is kept beside the two ends, so that
results can refer to it.

## Main definitions

* `Wraps`: Bytes that carry a plaintext under a number for a session.
* `Paired`: Two ends of one session.
* `Link`, `LinkAct`, `Link.step`: The machine.
* `Link.Sound`: What holds of a link whatever is delivered.
* `Link.Moved`: What a step of a sound link can do.

## Theorems

* `dataSealed_wraps`: A sealed DATA packet carries its plaintext.
* `receive_wraps`: Only the replay check stands between it and the channel.
* `link_moved`: Every step is one of `Link.Moved`.
* `moved_sound`: Every step keeps a link sound.
-/

namespace Ztlnp

variable {C : Primitives}

/-- The bytes parse to a packet of a sender, with a number, that verifies in a
    session and decrypts there to a plaintext. -/
structure Wraps (C : Primitives) (id : Bytes) (t : Session) (raw : Bytes) (n : Nat)
    (plaintext : Bytes) (p : Packet) : Prop where
  parses : ∀ nowMs, Packet.fromBytes nowMs raw = .ok p
  ptype : p.ptype ≠ .hello
  senderId : p.senderId = id
  sequence : p.sequence = n
  verifies : Device.Verifies C t p
  decrypts : C.aesGcmDecrypt t.sessionKey p.nonce p.payload = some plaintext

/-- The number can be read off the bytes. -/
theorem Wraps.wireSequence_eq {id raw plaintext : Bytes} {t : Session} {n : Nat} {p : Packet}
    (h : Wraps C id t raw n plaintext p) : wireSequence raw = n := by
  rcases Packet.fromBytes_wire 0 raw p (h.parses 0) with ⟨_, hseq, _⟩
  rw [wireSequence, ← hseq, h.sequence]

/-- So can the time, because a packet that was built carries one. -/
theorem Wraps.timestampMs_eq {id raw plaintext : Bytes} {t : Session} {n : Nat} {p : Packet}
    (h : Wraps C id t raw n plaintext p) : p.timestampMs = wireTimestamp raw := by
  rcases Packet.fromBytes_wire 0 raw p (h.parses 0) with ⟨_, _, _, hzero⟩
  rcases Packet.fromBytes_wire 1 raw p (h.parses 1) with ⟨_, _, _, hone⟩
  by_cases htime : beDecode (field raw 72 8) = 0
  · -- Without a time on the wire two readers would disagree.
    rw [if_pos htime] at hzero hone
    rw [hzero] at hone
    simp only [zero_ne_one] at hone
  · rw [if_neg htime] at hzero
    exact hzero

/-- What a session has recorded does not matter. -/
theorem Wraps.recorded {id raw plaintext : Bytes} {t : Session} {n : Nat} {p : Packet}
    (h : Wraps C id t raw n plaintext p) (k : Nat) : Wraps C id (t.recorded k) raw n plaintext p :=
  ⟨h.parses, h.ptype, h.senderId, h.sequence, h.verifies, h.decrypts⟩

/-- What either way of sealing puts into a packet, apart from its
    authentication. -/
theorem sealed_wraps (d : Device C) (env : Env) (ptype : PacketType) (flags : Nat)
    (peerId plaintext raw : Bytes) (s t : Session) (n : Nat)
    (auth : Device C → Session → Packet → Except Exn Bytes) (p : Packet)
    (hauth : auth = Device.signed ∨ auth = Device.tagged) (htype : ptype ≠ .hello)
    (h : d.sealPacket env ptype flags peerId plaintext s n auth = .ok p)
    (hraw : p.toBytes = .ok raw) (hkey : s.sessionKey = t.sessionKey)
    (hver : Device.Verifies C t p) : Wraps C d.deviceId t raw n plaintext p := by
  have hseal := (Device.sealPacket_eq_ok _ _ _ _ _ _ _ _ _ _ h).1
  have hsig := Device.sealPacket_signature_length _ _ _ _ _ _ _ _ _ _ hauth h
  refine ⟨fun nowMs => ?_, ?_, hseal.senderId, hseal.sequence, hver, ?_⟩
  · refine Packet.fromBytes_toBytes p raw nowMs hraw hsig ?_
    rw [hseal.timestampMs]
    exact env.buildMs_ne
  · rw [hseal.ptype]
    exact htype
  · -- Both ends hold the same key, so decryption undoes encryption.
    rw [hseal.nonce, hseal.payload, hkey]
    exact C.aesGcmDecrypt_encrypt _ _ _ t.sessionKey_length env.nonce_length

/-- A packet that its device signed verifies where its key is on file. -/
theorem signed_wraps (d : Device C) (env : Env) (ptype : PacketType)
    (peerId plaintext raw : Bytes) (s t : Session) (n : Nat) (p : Packet)
    (htype : ptype ≠ .hello)
    (h : d.sealPacket env ptype flagEncrypted peerId plaintext s n Device.signed = .ok p)
    (hraw : p.toBytes = .ok raw) (hkey : s.sessionKey = t.sessionKey)
    (hpub : t.peerEd25519Public = d.identityPublicBytes) :
    Wraps C d.deviceId t raw n plaintext p := by
  refine sealed_wraps d env ptype flagEncrypted peerId plaintext raw s t n Device.signed p
    (Or.inl rfl) htype h hraw hkey ?_
  have hseal := (Device.sealPacket_eq_ok _ _ _ _ _ _ _ _ _ _ h).1
  -- The flag of the MAC is not set, so the signature is what counts.
  have hmac : p.macAuth = false := by
    rw [Packet.macAuth, hseal.flags]
    decide
  rw [Device.Verifies, hmac, if_neg Bool.false_ne_true, hpub]
  exact Device.sealPacket_signed_verifies _ _ _ _ _ _ _ _ _ h

/-- A packet with a tag verifies where the MAC key is the same. -/
theorem tagged_wraps (d : Device C) (env : Env) (peerId plaintext raw : Bytes) (s t : Session)
    (n : Nat) (p : Packet)
    (h : d.sealPacket env .data (flagEncrypted ||| flagMacAuth) peerId plaintext s n
      Device.tagged = .ok p)
    (hraw : p.toBytes = .ok raw) (hkey : s.sessionKey = t.sessionKey)
    (hmac : s.macKey = t.macKey) : Wraps C d.deviceId t raw n plaintext p := by
  refine sealed_wraps d env .data (flagEncrypted ||| flagMacAuth) peerId plaintext raw s t n
    Device.tagged p (Or.inr rfl) (by decide) h hraw hkey ?_
  rcases Device.sealPacket_eq_ok _ _ _ _ _ _ _ _ _ _ h with ⟨hseal, q, tag, htag, hp⟩
  -- The flag of the MAC is set, so the tag is what counts.
  have hflag : p.macAuth = true := by
    rw [Packet.macAuth, hseal.flags]
    decide
  rw [Device.Verifies, hflag, if_pos rfl, ← hmac, hp]
  exact CryptoEngine.verifyPacketMac_tagged C s.macKey q tag htag

/-- A sealed DATA packet carries its plaintext under the number drawn for it. -/
theorem dataSealed_wraps (d : Device C) (env : Env) (useMac : Bool)
    (peerId plaintext raw : Bytes) (s t : Session) (p : Packet)
    (h : DataSealed d env useMac peerId plaintext s p) (hraw : p.toBytes = .ok raw)
    (hkey : s.sessionKey = t.sessionKey) (hmac : s.macKey = t.macKey)
    (hpub : t.peerEd25519Public = d.identityPublicBytes) :
    Wraps C d.deviceId t raw s.localSequence plaintext p := by
  cases useMac with
  | true =>
      exact tagged_wraps (d.advanced peerId s) env peerId plaintext raw s t _ p h hraw hkey hmac
  | false =>
      exact signed_wraps (d.advanced peerId s) env .data peerId plaintext raw s t _ p (by decide) h
        hraw hkey hpub

/-- The device once a session has recorded a number. -/
def Device.noted (d : Device C) (id : Bytes) (t : Session) (n : Nat) : Device C :=
  { d with sessions := d.sessions.set id (t.recorded n) }

/-- An endpoint once a session of its device has recorded a number. -/
def Endpoint.noted (e : Endpoint C) (id : Bytes) (t : Session) (n : Nat) : Endpoint C :=
  { e with device := e.device.noted id t n }

/-- Bytes that carry a plaintext are received exactly when the replay check
    admits them. -/
theorem receivePacket_wraps (d : Device C) (env : Env) (id raw plaintext : Bytes) (t : Session)
    (n : Nat) (p : Packet) (hw : Wraps C id t raw n plaintext p)
    (hget : d.sessions.get? id = some t) :
    (t.Admits env.receiveMs n (wireTimestamp raw) ∧
      (Device.receivePacket env raw).run d = .ok p (d.noted id t n)) ∨
    (¬ t.Admits env.receiveMs n (wireTimestamp raw) ∧
      ∃ x, (Device.receivePacket env raw).run d = .error x d) := by
  have hparse := hw.parses env.parseMs
  have hsess : d.sessions.get? p.senderId = some t := by
    rw [hw.senderId]
    exact hget
  rw [← hw.timestampMs_eq, ← hw.sequence, ← hw.senderId]
  rcases Device.receivePacket_cases env raw d with ⟨q, d', hrec⟩ | ⟨x, hx⟩
  · left
    have hrun := Device.receivePacket_of_received env raw d d' q hrec
    have heq : q = p := Except.ok.inj ((Device.received_parse _ _ _ _ _ hrec).symm.trans hparse)
    subst heq
    -- There is a session of the sender, which rules out the other two ways.
    cases hrec with
    | hello _ hello => exact absurd hello hw.ptype
    | pending key _ _ hnone =>
        rw [hnone] at hsess
        simp only [reduceCtorEq] at hsess
    | session u _ _ hu _ hadmits =>
        rw [hsess, Option.some.injEq] at hu
        subst hu
        exact ⟨hadmits, hrun⟩
  · right
    refine ⟨fun hadmits => ?_, x, hx⟩
    -- Nothing but the replay check could have refused it.
    have hrun := Device.receivePacket_of_received env raw d _ p
      (.session p t hparse hw.ptype hsess hw.verifies hadmits)
    rw [hrun] at hx
    simp only [reduceCtorEq] at hx

/-- What the channel does with bytes that carry a plaintext. -/
theorem receive_wraps (b : ChannelEnd C) (env : Env) (id raw plaintext : Bytes) (t : Session)
    (n : Nat) (p : Packet) (hw : Wraps C id t raw n plaintext p)
    (hget : b.endpoint.device.sessions.get? id = some t) :
    (t.Admits env.receiveMs n (wireTimestamp raw) ∧
      (ChannelEnd.receive env raw).run b = .ok
        ((b.channel.accept n plaintext).1, (b.channel.accept n plaintext).2.buildSack)
        ⟨(b.channel.accept n plaintext).2, b.endpoint.noted id t n⟩) ∨
    (¬ t.Admits env.receiveMs n (wireTimestamp raw) ∧
      ∃ x, (ChannelEnd.receive env raw).run b = .error x b) := by
  simp only [ChannelEnd.receive, EStateM.run_bind, ChannelEnd.run_onDevice]
  rcases receivePacket_wraps b.endpoint.device env id raw plaintext t n p hw hget with
    ⟨hadmits, hrun⟩ | ⟨hno, x, hrun⟩
  · left
    -- The session has recorded the number by now, and its key is as before.
    have hplain : (b.endpoint.device.noted id t n).Decrypts p plaintext := by
      refine ⟨t.recorded n, ?_, hw.decrypts⟩
      rw [hw.senderId]
      exact Dict.get?_set_self _ _ _
    have hdec := (Device.decryptPacket_eq_ok p _ _ plaintext).mpr ⟨hplain, rfl⟩
    refine ⟨hadmits, ?_⟩
    rw [hrun]
    simp only
    rw [hdec]
    simp only [EStateM.run_get, EStateM.run_set, EStateM.run_pure, hw.sequence]
    rfl
  · right
    refine ⟨hno, x, ?_⟩
    rw [hrun]

/-- Two ends of one session: one sends under `s`, the other receives under
    `t`, the keys agree, and nothing has been received that was not sent. -/
structure Paired (a b : Endpoint C) (s t : Session) : Prop where
  peerId : a.proto.peerId = some b.device.deviceId
  sending : a.device.sessions.get? b.device.deviceId = some s
  receiving : b.device.sessions.get? a.device.deviceId = some t
  sessionKey : s.sessionKey = t.sessionKey
  macKey : s.macKey = t.macKey
  identity : t.peerEd25519Public = a.device.identityPublicBytes
  largest : t.peerMaxSeq ≤ s.localSequence
  recent : ∀ n ∈ t.peerSeqWindow, n < s.localSequence

/-- Drawing a number keeps two ends paired. -/
theorem paired_advanced (a b : Endpoint C) (s t : Session) (h : Paired a b s t) :
    Paired (a.advanced b.device.deviceId s) b
      { s with localSequence := s.localSequence + 1 } t :=
  ⟨h.peerId, Dict.get?_set_self _ _ _, h.receiving, h.sessionKey, h.macKey, h.identity,
    Nat.le_succ_of_le h.largest, fun n hn => Nat.lt_succ_of_lt (h.recent n hn)⟩

/-- So does recording a number that was drawn. -/
theorem paired_noted (a b : Endpoint C) (s t : Session) (n : Nat) (h : Paired a b s t)
    (hn : n < s.localSequence) :
    Paired a (b.noted a.device.deviceId t n) s (t.recorded n) := by
  refine ⟨h.peerId, h.sending, Dict.get?_set_self _ _ _, h.sessionKey, h.macKey, h.identity, ?_,
    fun k hk => ?_⟩
  · rw [Session.recorded_peerMaxSeq]
    exact max_le (Nat.le_of_lt hn) h.largest
  · rcases SeqWindow.mem_recent_record replayWindow t.window n k hk with rfl | hk
    · exact hn
    · exact h.recent k hk

/-- The session a builder draws from is the one of the pair. -/
theorem paired_session (a b : Endpoint C) (s t u : Session) (peerId : Bytes) (h : Paired a b s t)
    (hpeer : a.proto.peerId = some peerId) (hget : a.device.sessions.get? peerId = some u) :
    peerId = b.device.deviceId ∧ u = s := by
  rw [h.peerId, Option.some.injEq] at hpeer
  subst hpeer
  rw [h.sending, Option.some.injEq] at hget
  exact ⟨rfl, hget.symm⟩

/-- One direction of a channel, with everything that was sent, handed to the
    network, acknowledged, returned and accepted. -/
structure Link (C : Primitives) where
  sender : ChannelEnd C
  receiver : ChannelEnd C
  sent : List (Nat × Bytes) := []
  wires : List Bytes := []
  frames : List SackFrame := []
  returned : Bytes := []
  accepted : List Nat := []
deriving DecidableEq

/-- What can happen on a link. Deliveries name what is delivered by its place
    in the network. -/
inductive LinkAct
  | send (env : Env) (now : Rat) (plaintext : Bytes)
  | retransmit (due sent : Nat → Rat)
  | deliver (env : Env) (i : Nat)
  | acknowledge (i : Nat)

namespace Link

/-- A link on which nothing has happened yet. -/
def opened (a b : ChannelEnd C) : Link C := { sender := a, receiver := b }

/-- One step. -/
def step (l : Link C) : LinkAct → Link C
  | .send env now plaintext =>
    match (ChannelEnd.send env now plaintext).run l.sender with
    | .ok (some (n, wire)) a =>
      { l with sender := a, sent := l.sent ++ [(n, plaintext)], wires := l.wires ++ [wire] }
    | r => { l with sender := r.final }
  | .retransmit due sent =>
    match (Channel.getRetransmissions due sent).run l.sender.channel with
    | .ok again c => { l with sender := { l.sender with channel := c }, wires := l.wires ++ again }
    | .error _ c => { l with sender := { l.sender with channel := c } }
  | .deliver env i =>
    match l.wires[i]? with
    | none => l
    | some raw =>
      match (ChannelEnd.receive env raw).run l.receiver with
      | .ok (out, sack) b =>
        { l with
          receiver := b
          frames := l.frames ++ [sack]
          returned := l.returned ++ out.getD []
          accepted := wireSequence raw :: l.accepted }
      | .error _ b => { l with receiver := b }
  | .acknowledge i =>
    match l.frames[i]? with
    | none => l
    | some sack =>
      { l with sender := { l.sender with channel := (l.sender.channel.processSack sack).1 } }

/-- What holds of a link whatever is delivered: the ends stay paired, numbers
    ascend from the first one drawn, the network holds only what was sent, and
    so does the window. -/
structure Sound (l : Link C) (first : Nat) (s t : Session) : Prop where
  paired : Paired l.sender.endpoint l.receiver.endpoint s t
  ascending : Ascending l.sent
  drawn : ∀ i ∈ l.sent, first ≤ i.1 ∧ i.1 < s.localSequence
  wires : ∀ raw ∈ l.wires, ∃ n x p, (n, x) ∈ l.sent ∧
    Wraps C l.sender.endpoint.device.deviceId t raw n x p
  window : ∀ n w, l.sender.channel.sendWindow.get? n = some w →
    w.packetBytes ∈ l.wires ∧ wireSequence w.packetBytes = n
  started : first ≤ s.localSequence

/-- What a step of a sound link can do to it and to the two sessions. -/
inductive Moved (l : Link C) (s t : Session) : LinkAct → Link C → Session → Session → Prop
  /-- The window is full, the call is refused, or there is nothing to deliver. -/
  | idle (a : LinkAct) : Moved l s t a l s t
  /-- A number was drawn and no packet came of it. -/
  | spoilt (env : Env) (now : Rat) (plaintext : Bytes) :
      Moved l s t (.send env now plaintext) { l with sender := { l.sender with
        endpoint := l.sender.endpoint.advanced l.receiver.endpoint.device.deviceId s } }
        { s with localSequence := s.localSequence + 1 } t
  | sent (env : Env) (now : Rat) (plaintext wire : Bytes) (p : Packet)
      (hroom : l.sender.channel.canSend = true)
      (hw : Wraps C l.sender.endpoint.device.deviceId t wire s.localSequence plaintext p) :
      Moved l s t (.send env now plaintext)
        { l with
          sender := ⟨l.sender.channel.enqueued s.localSequence wire now,
            l.sender.endpoint.advanced l.receiver.endpoint.device.deviceId s⟩
          sent := l.sent ++ [(s.localSequence, plaintext)]
          wires := l.wires ++ [wire] }
        { s with localSequence := s.localSequence + 1 } t
  | again (due sent : Nat → Rat) (c : Channel) (more : List Bytes)
      (hkept : ∀ n w, c.sendWindow.get? n = some w →
        ∃ w', l.sender.channel.sendWindow.get? n = some w' ∧ w.packetBytes = w'.packetBytes)
      (hmore : ∀ raw ∈ more, raw ∈ l.wires) :
      Moved l s t (.retransmit due sent)
        { l with sender := { l.sender with channel := c }, wires := l.wires ++ more } s t
  | received (env : Env) (i : Nat) (raw plaintext : Bytes) (n : Nat) (p : Packet)
      (hraw : l.wires[i]? = some raw) (hmem : (n, plaintext) ∈ l.sent)
      (hw : Wraps C l.sender.endpoint.device.deviceId t raw n plaintext p)
      (hadmits : t.Admits env.receiveMs n (wireTimestamp raw)) :
      Moved l s t (.deliver env i)
        { l with
          receiver := ⟨(l.receiver.channel.accept n plaintext).2,
            l.receiver.endpoint.noted l.sender.endpoint.device.deviceId t n⟩
          frames := l.frames ++ [(l.receiver.channel.accept n plaintext).2.buildSack]
          returned := l.returned ++ (l.receiver.channel.accept n plaintext).1.getD []
          accepted := n :: l.accepted }
        s (t.recorded n)
  | acknowledged (i : Nat) (sack : SackFrame) (hsack : l.frames[i]? = some sack) :
      Moved l s t (.acknowledge i)
        { l with sender := { l.sender with channel := (l.sender.channel.processSack sack).1 } } s t

end Link

/-- What is in the window was sent. -/
theorem Link.Sound.sent_of_window {l : Link C} {first : Nat} {s t : Session}
    (h : l.Sound first s t) {n : Nat} {w : WindowedPacket}
    (hw : l.sender.channel.sendWindow.get? n = some w) : ∃ x, (n, x) ∈ l.sent := by
  rcases h.window n w hw with ⟨hmem, hseq⟩
  rcases h.wires _ hmem with ⟨m, x, p, hsent, hwraps⟩
  rw [hwraps.wireSequence_eq] at hseq
  rw [← hseq]
  exact ⟨x, hsent⟩

/-- A send on a sound link. -/
theorem send_moved (l : Link C) (first : Nat) (s t : Session) (hl : l.Sound first s t)
    (env : Env) (now : Rat) (plaintext : Bytes) :
    ∃ s' t', l.Moved s t (.send env now plaintext) (l.step (.send env now plaintext)) s' t' := by
  have hout := ChannelEnd.send_outcome env now plaintext l.sender
  simp only [Link.step]
  generalize (ChannelEnd.send env now plaintext).run l.sender = r at hout
  cases hout with
  | full => exact ⟨s, t, .idle _⟩
  | refused => exact ⟨s, t, .idle _⟩
  | spoilt peerId u x hpeer hget =>
      rcases paired_session _ _ s t u peerId hl.paired hpeer hget with ⟨rfl, rfl⟩
      exact ⟨_, t, .spoilt env now plaintext⟩
  | sent peerId u p wire hroom hpeer hget hseal hwire =>
      rcases paired_session _ _ s t u peerId hl.paired hpeer hget with ⟨rfl, rfl⟩
      -- The sessions agree on their keys, so the packet carries the plaintext to the receiver.
      have hwraps := dataSealed_wraps _ env _ _ plaintext wire u t p hseal hwire
        hl.paired.sessionKey hl.paired.macKey hl.paired.identity
      simp only [hwraps.sequence]
      exact ⟨_, t, .sent env now plaintext wire p hroom hwraps⟩

/-- Every step of a sound link is in the inventory. -/
theorem link_moved (l : Link C) (first : Nat) (s t : Session) (hl : l.Sound first s t)
    (a : LinkAct) : ∃ s' t', l.Moved s t a (l.step a) s' t' := by
  cases a with
  | send env now plaintext => exact send_moved l first s t hl env now plaintext
  | retransmit due sent =>
      have hkept := Channel.getRetransmissions_kept due sent l.sender.channel
      have hagain := Channel.getRetransmissions_returned due sent l.sender.channel
      simp only [Link.step]
      cases hrun : (Channel.getRetransmissions due sent).run l.sender.channel with
      | error x c =>
          rw [hrun] at hkept
          have hmoved := Link.Moved.again (l := l) (s := s) (t := t) due sent c [] hkept
            (fun raw h => absurd h List.not_mem_nil)
          rw [List.append_nil] at hmoved
          exact ⟨s, t, hmoved⟩
      | ok more c =>
          rw [hrun] at hkept
          refine ⟨s, t, .again due sent c more hkept (fun raw hraw => ?_)⟩
          -- Only what is in the window is sent again, and that was sent before.
          rcases hagain more c hrun raw hraw with ⟨n, w, hw, rfl⟩
          exact (hl.window n w hw).1
  -- Whatever the network holds carries something that was sent.
  | deliver env i =>
      simp only [Link.step]
      cases hraw : l.wires[i]? with
      | none => exact ⟨s, t, .idle _⟩
      | some raw =>
          rcases hl.wires raw (List.mem_of_getElem? hraw) with ⟨n, x, p, hmem, hw⟩
          simp only
          rcases receive_wraps l.receiver env _ raw x t n p hw hl.paired.receiving with
            ⟨hadmits, hrun⟩ | ⟨_, e, hrun⟩
          · rw [hrun]
            simp only [hw.wireSequence_eq]
            exact ⟨s, t.recorded n, .received env i raw x n p hraw hmem hw hadmits⟩
          · rw [hrun]
            exact ⟨s, t, .idle _⟩
  | acknowledge i =>
      simp only [Link.step]
      cases hsack : l.frames[i]? with
      | none => exact ⟨s, t, .idle _⟩
      | some sack => exact ⟨s, t, .acknowledged i sack hsack⟩

/-- Every step keeps a link sound. -/
theorem moved_sound (l l' : Link C) (first : Nat) (s t s' t' : Session) (a : LinkAct)
    (hl : l.Sound first s t) (hmove : l.Moved s t a l' s' t') : l'.Sound first s' t' := by
  cases hmove with
  | idle => exact hl
  | spoilt env now plaintext =>
      refine ⟨paired_advanced _ _ s t hl.paired, hl.ascending, fun i hi => ?_, hl.wires, hl.window,
        Nat.le_succ_of_le hl.started⟩
      rcases hl.drawn i hi with ⟨hlow, hhigh⟩
      exact ⟨hlow, Nat.lt_succ_of_lt hhigh⟩
  | sent env now plaintext wire p hroom hw =>
      refine ⟨paired_advanced _ _ s t hl.paired, ?_, fun i hi => ?_, fun raw hraw => ?_,
        fun n w hn => ?_, Nat.le_succ_of_le hl.started⟩
      · -- The counter is above every number drawn before.
        exact ascending_concat _ _ _ hl.ascending (fun i hi => (hl.drawn i hi).2)
      · rcases List.mem_append.mp hi with hi | hi
        · exact ⟨(hl.drawn i hi).1, Nat.lt_succ_of_lt (hl.drawn i hi).2⟩
        · rw [List.mem_singleton] at hi
          rw [hi]
          exact ⟨hl.started, Nat.lt_succ_self _⟩
      · rcases List.mem_append.mp hraw with hraw | hraw
        · rcases hl.wires raw hraw with ⟨n, x, q, hmem, hq⟩
          exact ⟨n, x, q, List.mem_append_left _ hmem, hq⟩
        · rw [List.mem_singleton] at hraw
          rw [hraw]
          exact ⟨_, plaintext, p, List.mem_append_right _ (List.mem_singleton.mpr rfl), hw⟩
      · -- The window has the new packet beside what it had.
        simp only [Channel.enqueued, Dict.get?_set] at hn
        by_cases heq : n = s.localSequence
        · rw [if_pos heq, Option.some.injEq] at hn
          rw [← hn]
          exact ⟨List.mem_append_right _ (List.mem_singleton.mpr rfl),
            hw.wireSequence_eq.trans heq.symm⟩
        · rw [if_neg heq] at hn
          exact ⟨List.mem_append_left _ (hl.window n w hn).1, (hl.window n w hn).2⟩
  | again due sent c more hkept hmore =>
      refine ⟨hl.paired, hl.ascending, hl.drawn, fun raw hraw => ?_, fun n w hn => ?_,
        hl.started⟩
      · rcases List.mem_append.mp hraw with hraw | hraw
        · exact hl.wires raw hraw
        · exact hl.wires raw (hmore raw hraw)
      · rcases hkept n w hn with ⟨w', hw', hbytes⟩
        rw [hbytes]
        exact ⟨List.mem_append_left _ (hl.window n w' hw').1, (hl.window n w' hw').2⟩
  -- Recording a number changes no key, so the network carries what it did.
  | received env i raw plaintext n p hraw hmem hw hadmits =>
      refine ⟨paired_noted _ _ s t n hl.paired (hl.drawn _ hmem).2, hl.ascending,
        hl.drawn, fun raw' hraw' => ?_, hl.window, hl.started⟩
      rcases hl.wires raw' hraw' with ⟨m, x, q, hmem', hq⟩
      exact ⟨m, x, q, hmem', hq.recorded n⟩
  | acknowledged i sack hsack =>
      refine ⟨hl.paired, hl.ascending, hl.drawn, hl.wires, fun n w hn => ?_, hl.started⟩
      exact hl.window n w (Channel.processSack_kept _ sack n w hn)

end Ztlnp
