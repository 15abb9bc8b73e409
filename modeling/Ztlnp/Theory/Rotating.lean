import Ztlnp.Theory.Reception

/-!
# Rotating Keys Under a Session

Two established ends that exchange data while either of them rotates its
identity key.

A session is filed under the identity that its peer had in the handshake, and
it holds the key of that identity. A rotation touches neither table nor
session. For the device that receives it is therefore harmless: it looks the
session up under the sender, and never asks who it is itself. For the device
that sends it is not. Every packet carries the new identity, and the other
side has no session under that name.

So packets built under the identity of the handshake arrive, whatever is
rotated around them, and that is what is proved: in a run whose senders are
still who they were, every packet that is delivered in time and for the first
time is handed up with its plaintext.

## Main definitions

* `Conversation`, `RotatingAct`, `Conversation.step`: The machine.
* `Conversation.InTime`: A packet is delivered fresh and for the first time.
* `Conversation.SentAsItself`: The sender has the identity of the handshake.
* `Conversation.Joined`: The invariant.

## Theorems

* `receiveData_wraps`: Only the replay check stands between a DATA packet and
  the application.
* `joined_rotated`, `joined_sent`, `joined_delivered`: Every act keeps the
  invariant.
* `rotation_keeps_sessions`: Packets of an unchanged sender are handed up.
-/

namespace Ztlnp

variable {C : Primitives}

/-- Two ends with what each has sent, as bytes and plaintext, and the places of
    what was delivered of it. -/
structure Conversation (C : Primitives) where
  ends : Bool → Endpoint C
  flights : Bool → List (Bytes × Bytes)
  delivered : Bool → List Nat

/-- What can happen in a conversation. A delivery names the sender and the
    place of the packet among what it has sent. -/
inductive RotatingAct
  | rotateKey (side : Bool) (nowMs : Nat) (identityPrivate : Bytes)
  | send (side : Bool) (env : Env) (useMac : Bool) (plaintext : Bytes)
  | deliver (side : Bool) (env : Env) (i : Nat)

namespace Conversation

/-- Two ends that have nothing under way. -/
def opened (ends : Bool → Endpoint C) : Conversation C where
  ends
  flights := fun _ => []
  delivered := fun _ => []

/-- One act: a rotation, a DATA packet by signature or tag, or a delivery to
    the other side. -/
def step (x : Conversation C) : RotatingAct → Conversation C
  | .rotateKey side nowMs k =>
    { x with ends := Function.update x.ends side { x.ends side with
        device := ((Device.rotateKey nowMs k).run (x.ends side).device).final } }
  | .send side env useMac plaintext =>
    match (ChannelEnd.dataPacket env useMac plaintext).run (x.ends side) with
    | .ok wire e =>
      { x with
        ends := Function.update x.ends side e
        flights := Function.update x.flights side (x.flights side ++ [(wire, plaintext)]) }
    | .error _ e => { x with ends := Function.update x.ends side e }
  | .deliver side env i =>
    match (x.flights side)[i]? with
    | none => x
    | some flight =>
      { x with
        ends := Function.update x.ends (!side)
          ((Endpoint.receiveData env flight.1).run (x.ends !side)).final
        delivered := Function.update x.delivered side (i :: x.delivered side) }

/-- A packet is delivered fresh and once: not before, within the clock skew,
    and not overtaken by a whole replay window. -/
def InTime (x : Conversation C) (side : Bool) (env : Env) (i : Nat) (wire : Bytes) : Prop :=
  i ∉ x.delivered side ∧ Session.Timely env.receiveMs (wireTimestamp wire) ∧
    ∀ t, (x.ends !side).device.sessions.get? (wireSender wire) = some t →
      (t.peerMaxSeq : Int) - replayWindow < wireSequence wire

/-- Whoever sends has the identity it had at the start. -/
def SentAsItself (dev : Bool → Device C) (x : Conversation C) : RotatingAct → Prop
  | .send side _ _ _ =>
    (x.ends side).device.identityPublicBytes = (dev side).identityPublicBytes
  | _ => True

instance (dev : Bool → Device C) (x : Conversation C) (a : RotatingAct) :
    Decidable (Conversation.SentAsItself dev x a) :=
  match a with
  | .send _ _ _ _ => inferInstanceAs (Decidable (_ = _))
  | .rotateKey _ _ _ => .isTrue trivial
  | .deliver _ _ _ => .isTrue trivial

end Conversation

/-- A session is in use between an endpoint and another device. -/
structure Endpoint.Keeps (e : Endpoint C) (you : Device C) (s : Session) : Prop where
  state : e.proto.state = .established
  peerId : e.proto.peerId = some you.deviceId
  session : e.device.sessions.get? you.deviceId = some s
  identity : s.peerEd25519Public = you.identityPublicBytes

/-- The invariant of a conversation: both ends keep a session under the names
    of the start, and what is under way fits the session of the other side. -/
structure Conversation.Joined (dev : Bool → Device C) (sessionKey macKey : Bytes)
    (x : Conversation C) (S : Bool → Session) : Prop where
  keeps : ∀ side, (x.ends side).Keeps (dev !side) (S side)
  sessionKey_eq : ∀ side, (S side).sessionKey = sessionKey
  macKey_eq : ∀ side, (S side).macKey = macKey
  recent : ∀ side, ∀ n ∈ (S !side).peerSeqWindow, n < (S side).localSequence
  flights : ∀ side, ∀ f ∈ x.flights side, ∃ n p, n < (S side).localSequence ∧
    Wraps C (dev side).deviceId (S !side) f.1 n f.2 p ∧ p.ptype = .data
  ascending : ∀ side, (x.flights side).Pairwise
    (fun f g => wireSequence f.1 < wireSequence g.1)
  noted : ∀ side i f, (x.flights side)[i]? = some f →
    wireSequence f.1 ∈ (S !side).peerSeqWindow → i ∈ x.delivered side

/-- Whether bytes fit a session depends on its keys alone. -/
theorem Wraps.of_keys {id raw plaintext : Bytes} {t t' : Session} {n : Nat} {p : Packet}
    (h : Wraps C id t raw n plaintext p) (hkey : t'.sessionKey = t.sessionKey)
    (hmac : t'.macKey = t.macKey) (hpub : t'.peerEd25519Public = t.peerEd25519Public) :
    Wraps C id t' raw n plaintext p where
  parses := h.parses
  ptype := h.ptype
  senderId := h.senderId
  sequence := h.sequence
  verifies := by
    have hv := h.verifies
    unfold Device.Verifies at hv ⊢
    rw [hmac, hpub]
    exact hv
  decrypts := by
    rw [hkey]
    exact h.decrypts

/-- The sender can be read off the bytes. -/
theorem Wraps.wireSender_eq {id raw plaintext : Bytes} {t : Session} {n : Nat} {p : Packet}
    (h : Wraps C id t raw n plaintext p) : wireSender raw = id := by
  rcases Packet.fromBytes_wire 0 raw p (h.parses 0) with ⟨hsender, _⟩
  rw [wireSender, ← hsender, h.senderId]

/-- The application gets a DATA packet exactly when the replay check admits
    it. -/
theorem receiveData_wraps (e : Endpoint C) (env : Env) (id raw plaintext : Bytes) (t : Session)
    (n : Nat) (p : Packet) (hest : e.proto.state = .established)
    (hw : Wraps C id t raw n plaintext p) (hdata : p.ptype = .data)
    (hget : e.device.sessions.get? id = some t) :
    (t.Admits env.receiveMs n (wireTimestamp raw) ∧
      (Endpoint.receiveData env raw).run e = .ok plaintext (e.noted id t n)) ∨
    (¬ t.Admits env.receiveMs n (wireTimestamp raw) ∧
      ∃ x, (Endpoint.receiveData env raw).run e = .error x e) := by
  rcases Endpoint.requireEstablished_cases e with ⟨_, hreq⟩ | ⟨hno, _⟩
  · have hdelivered := hw.delivered e.device env hget
    rw [hw.timestampMs_eq] at hdelivered
    rcases hdelivered with ⟨hadmits, hrec, hdec⟩ | ⟨hadmits, x, hrec⟩
    · left
      refine ⟨hadmits, ?_⟩
      simp only [Endpoint.receiveData, EStateM.run_bind, hreq, Endpoint.run_onDevice, hrec, hdata,
        ne_eq, not_true_eq_false, if_false, hdec]
      rfl
    · right
      refine ⟨hadmits, x, ?_⟩
      simp only [Endpoint.receiveData, EStateM.run_bind, hreq, Endpoint.run_onDevice, hrec]
  · exact absurd hest hno

section Steps

variable {dev : Bool → Device C} {sessionKey macKey : Bytes} {x : Conversation C}
  {S : Bool → Session}

/-- One end has moved, and still keeps its session. -/
theorem keeps_update (h : ∀ side, (x.ends side).Keeps (dev !side) (S side)) (side : Bool)
    (e : Endpoint C) (s : Session) (he : e.Keeps (dev !side) s) (t : Bool) :
    (Function.update x.ends side e t).Keeps (dev !t) (Function.update S side s t) := by
  by_cases ht : t = side
  · subst ht
    rw [Function.update_self, Function.update_self]
    exact he
  · rw [Function.update_of_ne ht, Function.update_of_ne ht]
    exact h t

/-- A property of the sessions that a step leaves alone at the end that
    moved. -/
theorem session_update {α : Type} (f : Session → α) (side : Bool) (s : Session)
    (hs : f s = f (S side)) (t : Bool) : f (Function.update S side s t) = f (S t) := by
  by_cases ht : t = side
  · subst ht
    rw [Function.update_self, hs]
  · rw [Function.update_of_ne ht]

/-- A rotation leaves the tables and the protocol alone. -/
theorem joined_rotated (h : x.Joined dev sessionKey macKey S) (side : Bool) (nowMs : Nat)
    (k : Bytes) : (x.step (.rotateKey side nowMs k)).Joined dev sessionKey macKey S := by
  refine ⟨fun t => ?_, h.sessionKey_eq, h.macKey_eq, h.recent, h.flights, h.ascending, h.noted⟩
  have hsess : ((Device.rotateKey nowMs k).run (x.ends side).device).final.sessions
      = (x.ends side).device.sessions := by
    rcases Device.rotateKey_final nowMs k (x.ends side).device with hf | hf
    · rw [hf]
    · rw [hf]
      rfl
  have hk := h.keeps side
  have := keeps_update h.keeps side { x.ends side with
    device := ((Device.rotateKey nowMs k).run (x.ends side).device).final } (S side)
    ⟨hk.state, hk.peerId, by rw [hsess]; exact hk.session, hk.identity⟩ t
  rw [Function.update_eq_self] at this
  exact this

/-- One end has moved on with its session. The keys are the same, and whatever
    is new in the window is the number of a packet that was delivered. -/
theorem Conversation.Joined.moved (h : x.Joined dev sessionKey macKey S) (side : Bool)
    (e : Endpoint C) (s : Session) (delivered : Bool → List Nat)
    (hkeeps : e.Keeps (dev !side) s) (hkey : s.sessionKey = (S side).sessionKey)
    (hmac : s.macKey = (S side).macKey)
    (hpub : s.peerEd25519Public = (S side).peerEd25519Public)
    (hseq : (S side).localSequence ≤ s.localSequence)
    (hdelivered : ∀ t, ∀ j ∈ x.delivered t, j ∈ delivered t)
    (hwin : ∀ n ∈ s.peerSeqWindow, n ∈ (S side).peerSeqWindow ∨ n < (S !side).localSequence ∧
      ∀ j g, (x.flights !side)[j]? = some g → wireSequence g.1 = n → j ∈ delivered !side) :
    Conversation.Joined dev sessionKey macKey
      { x with ends := Function.update x.ends side e, delivered := delivered }
      (Function.update S side s) := by
  have hkeys := session_update (S := S) Session.sessionKey side s hkey
  have hmacs := session_update (S := S) Session.macKey side s hmac
  have hpubs := session_update (S := S) Session.peerEd25519Public side s hpub
  have hseqs : ∀ t, (S t).localSequence ≤ (Function.update S side s t).localSequence := by
    intro t
    by_cases ht : t = side
    · subst ht
      rw [Function.update_self]
      exact hseq
    · rw [Function.update_of_ne ht]
  -- A number in a window was there before, or it is new at the end that moved.
  have hwins : ∀ t n, n ∈ (Function.update S side s (!t)).peerSeqWindow →
      n ∈ (S !t).peerSeqWindow ∨ n < (S t).localSequence ∧
        ∀ j g, (x.flights t)[j]? = some g → wireSequence g.1 = n → j ∈ delivered t := by
    intro t n hn
    by_cases ht : (!t) = side
    · subst ht
      rw [Function.update_self] at hn
      rw [Bool.not_not] at hwin
      exact hwin n hn
    · rw [Function.update_of_ne ht] at hn
      exact Or.inl hn
  refine ⟨keeps_update h.keeps side e s hkeeps, fun t => ?_, fun t => ?_, fun t n hn => ?_,
    fun t f hf => ?_, h.ascending, fun t j g hg hn => ?_⟩
  · rw [hkeys]
    exact h.sessionKey_eq t
  · rw [hmacs]
    exact h.macKey_eq t
  · rcases hwins t n hn with hold | hnew
    · exact (h.recent t n hold).trans_le (hseqs t)
    · exact hnew.1.trans_le (hseqs t)
  · rcases h.flights t f hf with ⟨n, p, hn, hw, hdata⟩
    exact ⟨n, p, hn.trans_le (hseqs t), hw.of_keys (hkeys _) (hmacs _) (hpubs _), hdata⟩
  · rcases hwins t _ hn with hold | hnew
    · exact hdelivered t j (h.noted t j g hg hold)
    · exact hnew.2 j g hg rfl

/-- Drawing a number leaves everything that is under way in place. -/
theorem Conversation.Joined.advanced (h : x.Joined dev sessionKey macKey S) (side : Bool) :
    Conversation.Joined dev sessionKey macKey
      { x with
        ends := Function.update x.ends side
          ((x.ends side).advanced (dev !side).deviceId (S side)) }
      (Function.update S side
        { S side with localSequence := (S side).localSequence + 1 }) := by
  have hk := h.keeps side
  exact h.moved side _ _ x.delivered
    ⟨hk.state, hk.peerId, Dict.get?_set_self _ _ _, hk.identity⟩ rfl rfl rfl (Nat.le_succ _)
    (fun t j hj => hj) (fun n hn => Or.inl hn)

/-- A packet under a number that is newer than all others is under way. -/
theorem Conversation.Joined.flown (h : x.Joined dev sessionKey macKey S) (side : Bool)
    (wire plaintext : Bytes) (n : Nat) (p : Packet) (hn : n < (S side).localSequence)
    (hw : Wraps C (dev side).deviceId (S !side) wire n plaintext p) (hdata : p.ptype = .data)
    (hnewer : ∀ f ∈ x.flights side, wireSequence f.1 < n) (hunseen : n ∉ (S !side).peerSeqWindow) :
    Conversation.Joined dev sessionKey macKey
      { x with
        flights := Function.update x.flights side (x.flights side ++ [(wire, plaintext)]) } S := by
  -- Only this side's flights grow, and its new packet has the number behind all the others.
  refine ⟨h.keeps, h.sessionKey_eq, h.macKey_eq, h.recent, fun t f hf => ?_, fun t => ?_,
    fun t i f hf hmem => ?_⟩
  · by_cases ht : t = side
    · subst ht
      simp only [Function.update_self, List.mem_append, List.mem_singleton] at hf
      rcases hf with hf | rfl
      · exact h.flights t f hf
      · exact ⟨n, p, hn, hw, hdata⟩
    · simp only [Function.update_of_ne ht] at hf
      exact h.flights t f hf
  · by_cases ht : t = side
    · subst ht
      simp only [Function.update_self]
      refine List.pairwise_append.mpr ⟨h.ascending t, List.pairwise_singleton _ _, ?_⟩
      intro f hf g hg
      rw [List.mem_singleton.mp hg, hw.wireSequence_eq]
      exact hnewer f hf
    · simp only [Function.update_of_ne ht]
      exact h.ascending t
  · by_cases ht : t = side
    · subst ht
      simp only [Function.update_self] at hf
      rw [List.getElem?_append] at hf
      by_cases hi : i < (x.flights t).length
      · rw [if_pos hi] at hf
        exact h.noted t i f hf hmem
      · -- The new packet's number is not in the window yet, so nothing is noted about it.
        rw [if_neg hi] at hf
        rw [List.mem_singleton.mp (List.mem_of_getElem? hf), hw.wireSequence_eq] at hmem
        exact absurd hmem hunseen
    · simp only [Function.update_of_ne ht] at hf
      exact h.noted t i f hf hmem

/-- What a sender that is still itself builds fits the session of the other
    side. -/
theorem joined_sent (h : x.Joined dev sessionKey macKey S) (side : Bool) (env : Env)
    (useMac : Bool) (plaintext : Bytes)
    (hself : (x.ends side).device.identityPublicBytes = (dev side).identityPublicBytes) :
    ∃ S', (x.step (.send side env useMac plaintext)).Joined dev sessionKey macKey S' := by
  have hk := h.keeps side
  have hout := ChannelEnd.dataPacket_builds env useMac plaintext (x.ends side)
  simp only [Conversation.step]
  generalize (ChannelEnd.dataPacket env useMac plaintext).run (x.ends side) = r at hout ⊢
  -- The builder drew on the peer and the session that this end keeps.
  have hdrew : ∀ peerId s, (x.ends side).proto.peerId = some peerId →
      (x.ends side).device.sessions.get? peerId = some s →
      peerId = (dev !side).deviceId ∧ s = S side := by
    intro peerId s hpeer hget
    rw [hk.peerId, Option.some.injEq] at hpeer
    rw [← hpeer, hk.session, Option.some.injEq] at hget
    exact ⟨hpeer.symm, hget.symm⟩
  cases hout with
  | refused y =>
      simp only [Function.update_eq_self]
      exact ⟨S, h⟩
  | spoilt peerId s y hpeer hget =>
      rcases hdrew peerId s hpeer hget with ⟨rfl, rfl⟩
      -- The number is spent although nothing was sent.
      exact ⟨_, h.advanced side⟩
  | built peerId s p wire hpeer hget hseal hwire =>
      rcases hdrew peerId s hpeer hget with ⟨rfl, rfl⟩
      have hid : (x.ends side).device.deviceId = (dev side).deviceId := by
        rw [(x.ends side).device.deviceId_eq, hself, (dev side).deviceId_eq]
      have hpub := (h.keeps !side).identity
      rw [Bool.not_not] at hpub
      -- Both ends hold the same keys, so what this one seals the other one opens.
      have hw := dataSealed_wraps _ _ _ _ _ _ _ (S !side) _ hseal hwire
        ((h.sessionKey_eq side).trans (h.sessionKey_eq !side).symm)
        ((h.macKey_eq side).trans (h.macKey_eq !side).symm) (hpub.trans hself.symm)
      rw [hid] at hw
      have hother : Function.update S side
          { S side with localSequence := (S side).localSequence + 1 } (!side) = S !side :=
        Function.update_of_ne (Bool.not_ne_self side) _ _
      refine ⟨_, (h.advanced side).flown side wire plaintext (S side).localSequence p ?_ ?_ ?_ ?_
        ?_⟩
      · rw [Function.update_self]
        exact Nat.lt_succ_self _
      · rw [hother]
        exact hw
      · exact (Device.sealPacket_eq_ok _ _ _ _ _ _ _ _ _ _ hseal).1.ptype
      · -- All earlier packets carry a smaller number than the session's next one.
        intro f hf
        rcases h.flights side f hf with ⟨n, q, hn, hfw, _⟩
        rw [hfw.wireSequence_eq]
        exact hn
      · -- The window holds numbers below the next one only.
        rw [hother]
        intro hmem
        exact absurd (h.recent side _ hmem) (Nat.lt_irrefl _)

/-- No two packets of a side have the same number. -/
theorem Conversation.Joined.place_eq (h : x.Joined dev sessionKey macKey S) (side : Bool)
    (i j : Nat) (f g : Bytes × Bytes) (hf : (x.flights side)[i]? = some f)
    (hg : (x.flights side)[j]? = some g) (heq : wireSequence f.1 = wireSequence g.1) : i = j := by
  rcases List.getElem?_eq_some_iff.mp hf with ⟨hi, rfl⟩
  rcases List.getElem?_eq_some_iff.mp hg with ⟨hj, rfl⟩
  have hpair := List.pairwise_iff_getElem.mp (h.ascending side)
  rcases Nat.lt_trichotomy i j with hlt | hsame | hlt
  · have := hpair i j hi hj hlt
    omega
  · exact hsame
  · have := hpair j i hj hi hlt
    omega

/-- What was marked as delivered stays so. -/
theorem mem_marked (delivered : Bool → List Nat) (side t : Bool) (i j : Nat)
    (h : j ∈ delivered t) : j ∈ Function.update delivered side (i :: delivered side) t := by
  by_cases ht : t = side
  · subst ht
    rw [Function.update_self]
    exact List.mem_cons_of_mem _ h
  · rw [Function.update_of_ne ht]
    exact h

/-- Recording a packet that is under way keeps the rest in place. -/
theorem Conversation.Joined.received (h : x.Joined dev sessionKey macKey S) (side : Bool)
    (i n : Nat) (f : Bytes × Bytes) (hf : (x.flights side)[i]? = some f)
    (hn : n < (S side).localSequence) (hfn : wireSequence f.1 = n) :
    Conversation.Joined dev sessionKey macKey
      { x with
        ends := Function.update x.ends (!side)
          ((x.ends !side).noted (dev side).deviceId (S !side) n)
        delivered := Function.update x.delivered side (i :: x.delivered side) }
      (Function.update S (!side) ((S !side).recorded n)) := by
  have hk := h.keeps !side
  rw [Bool.not_not] at hk
  refine h.moved (!side) _ _ _ ?_ rfl rfl rfl (Nat.le_refl _)
    (fun t j hj => mem_marked x.delivered side t i j hj) (fun m hm => ?_)
  · rw [Bool.not_not]
    exact ⟨hk.state, hk.peerId, Dict.get?_set_self _ _ _, hk.identity⟩
  · -- The only new number in the window is the one of this packet.
    rw [Bool.not_not]
    rcases SeqWindow.mem_recent_record replayWindow _ _ _ hm with rfl | hm
    · refine Or.inr ⟨hn, fun j g hg hgn => ?_⟩
      rw [h.place_eq side j i g f hg hf (hgn.trans hfn.symm), Function.update_self]
      exact List.mem_cons_self
    · exact Or.inl hm

/-- A packet that the other side refuses is merely marked as delivered. -/
theorem Conversation.Joined.refused (h : x.Joined dev sessionKey macKey S) (side : Bool)
    (i : Nat) :
    Conversation.Joined dev sessionKey macKey
      { x with delivered := Function.update x.delivered side (i :: x.delivered side) } S := by
  exact ⟨h.keeps, h.sessionKey_eq, h.macKey_eq, h.recent, h.flights, h.ascending,
    fun t j g hg hmem => mem_marked x.delivered side t i j (h.noted t j g hg hmem)⟩

/-- A delivery keeps the invariant, in time or not. -/
theorem joined_delivered (h : x.Joined dev sessionKey macKey S) (side : Bool) (env : Env)
    (i : Nat) : ∃ S', (x.step (.deliver side env i)).Joined dev sessionKey macKey S' := by
  simp only [Conversation.step]
  cases hf : (x.flights side)[i]? with
  | none => exact ⟨S, h⟩
  | some f =>
      rcases h.flights side f (List.mem_of_getElem? hf) with ⟨n, p, hn, hw, hdata⟩
      have hk := h.keeps !side
      rw [Bool.not_not] at hk
      rcases receiveData_wraps (x.ends !side) env _ _ _ _ n p hk.state hw hdata hk.session with
        ⟨_, hrun⟩ | ⟨_, y, hrun⟩
      · simp only [hrun]
        exact ⟨_, h.received side i n f hf hn hw.wireSequence_eq⟩
      · simp only [hrun, EStateM.Result.final, Function.update_eq_self]
        exact ⟨S, h.refused side i⟩

end Steps

/-- Between two ends that are established with each other, under any sequence
    of rotations on either side and of DATA packets by signature or tag: if
    every sender has the identity it had at the start, then whatever is under
    way is handed up with its plaintext when it is delivered in time. -/
theorem rotation_keeps_sessions (ends : Bool → Endpoint C) (S : Bool → Session)
    (hest : ∀ side, (ends side).proto.state = .established)
    (hpaired : ∀ side, Paired (ends side) (ends !side) (S side) (S !side))
    (acts : List RotatingAct)
    (hself : Along Conversation.step
      (Conversation.SentAsItself (fun side => (ends side).device)) (.opened ends) acts)
    (side : Bool) (env : Env) (i : Nat) (wire plaintext : Bytes)
    (hflight : ((acts.foldl Conversation.step (.opened ends)).flights side)[i]?
      = some (wire, plaintext))
    (htime : (acts.foldl Conversation.step (.opened ends)).InTime side env i wire) :
    ∃ e, (Endpoint.receiveData env wire).run
      ((acts.foldl Conversation.step (.opened ends)).ends !side) = .ok plaintext e := by
  have hjoined : ∃ S', (acts.foldl Conversation.step (.opened ends)).Joined
      (fun side => (ends side).device) (S true).sessionKey (S true).macKey S' := by
    refine along_invariant (fun x => ∃ S', x.Joined (fun side => (ends side).device)
      (S true).sessionKey (S true).macKey S') (fun x a hx ha => ?_) _ acts ⟨S, ?_⟩ hself
    · rcases hx with ⟨S', hx⟩
      cases a with
      | rotateKey side nowMs k => exact ⟨S', joined_rotated hx side nowMs k⟩
      | send side env useMac plaintext => exact joined_sent hx side env useMac plaintext ha
      | deliver side env i => exact joined_delivered hx side env i
    · -- Nothing is under way yet.
      have hpub : ∀ side, (S side).peerEd25519Public
          = (ends !side).device.identityPublicBytes := by
        intro side
        have := (hpaired !side).identity
        rw [Bool.not_not] at this
        exact this
      refine ⟨fun side => ⟨hest side, (hpaired side).peerId, (hpaired side).sending, hpub side⟩,
        fun side => ?_, fun side => ?_, fun side => (hpaired side).recent, ?_, ?_, ?_⟩
      · cases side with
        | true => rfl
        | false => exact (hpaired false).sessionKey
      · cases side with
        | true => rfl
        | false => exact (hpaired false).macKey
      · intro side f hf
        exact absurd hf (List.not_mem_nil)
      · exact fun side => List.Pairwise.nil
      · intro side i f hf
        simp only [Conversation.opened, List.getElem?_nil, reduceCtorEq] at hf
  rcases hjoined with ⟨S', hx⟩
  generalize acts.foldl Conversation.step (.opened ends) = x at hflight htime hx ⊢
  rcases hx.flights side _ (List.mem_of_getElem? hflight) with ⟨n, p, _, hw, hdata⟩
  have hk := hx.keeps !side
  rw [Bool.not_not] at hk
  rcases receiveData_wraps (x.ends !side) env _ _ _ _ n p hk.state hw hdata hk.session with
    ⟨_, hrun⟩ | ⟨hno, _⟩
  · exact ⟨_, hrun⟩
  · -- In time means that the replay check has nothing against it.
    refine absurd ⟨htime.2.1, fun hmem => htime.1 ?_, not_le.mpr ?_⟩ hno
    · refine hx.noted side i _ hflight ?_
      rw [hw.wireSequence_eq]
      exact hmem
    · have hedge := htime.2.2 (S' !side) (by rw [hw.wireSender_eq]; exact hk.session)
      rw [hw.wireSequence_eq] at hedge
      exact hedge

/-- The two ends of a handshake under the toy primitives. -/
@[irreducible]
def toyTalk (side : Bool) : Endpoint toyPrimitives :=
  if side then (toyEnds {}).1.endpoint else (toyEnds {}).2.endpoint

theorem toyTalk_established (side : Bool) : (toyTalk side).proto.state = .established := by
  revert side
  decide +kernel

theorem toyTalk_paired : ∃ S : Bool → Session,
    ∀ side, Paired (toyTalk side) (toyTalk !side) (S side) (S !side) := by
  have hends : ∃ s ∈ (toyTalk true).device.sessions.get? (toyTalk false).device.deviceId,
      ∃ t ∈ (toyTalk false).device.sessions.get? (toyTalk true).device.deviceId,
        (s.sessionKey = t.sessionKey ∧ s.macKey = t.macKey) ∧
        (∀ side, (toyTalk side).proto.peerId = some (toyTalk !side).device.deviceId) ∧
        (t.peerEd25519Public = (toyTalk true).device.identityPublicBytes ∧
          t.peerMaxSeq ≤ s.localSequence ∧ ∀ n ∈ t.peerSeqWindow, n < s.localSequence) ∧
        s.peerEd25519Public = (toyTalk false).device.identityPublicBytes ∧
          s.peerMaxSeq ≤ t.localSequence ∧ ∀ n ∈ s.peerSeqWindow, n < t.localSequence := by
    decide +kernel
  rcases hends with ⟨s, hs, t, ht, ⟨hkey, hmac⟩, hpeer, ⟨hpub, hmax, hwin⟩, hpub', hmax', hwin'⟩
  refine ⟨fun side => if side then s else t, fun side => ?_⟩
  cases side with
  | true => exact ⟨hpeer true, hs, ht, hkey, hmac, hpub, hmax, hwin⟩
  | false => exact ⟨hpeer false, ht, hs, hkey.symm, hmac.symm, hpub', hmax', hwin'⟩

/-- One side rotates its key, and the first side sends a message. -/
@[irreducible]
def rotateThenSend (rotates useMac : Bool) : List RotatingAct :=
  [.rotateKey rotates 1000 [9], .send true toyEnv useMac [42]]

/-- The message is delivered in time. -/
theorem rotateThenSend_inTime (rotates useMac : Bool) :
    let x := (rotateThenSend rotates useMac).foldl Conversation.step (.opened toyTalk)
    ∃ wire, (x.flights true)[0]? = some (wire, [42]) ∧ x.InTime true toyEnv 0 wire := by
  intro x
  have hsent : ∃ f ∈ (x.flights true)[0]?, f.2 = [42] ∧ 0 ∉ x.delivered true ∧
      Session.Timely toyEnv.receiveMs (wireTimestamp f.1) ∧
      ∀ t ∈ (x.ends !true).device.sessions.get? (wireSender f.1),
        (t.peerMaxSeq : Int) - replayWindow < wireSequence f.1 := by
    revert rotates useMac
    decide +kernel
  rcases hsent with ⟨⟨wire, plaintext⟩, hf, rfl, hintime⟩
  exact ⟨wire, hf, hintime⟩

/-- The receiver rotates, and still gets the message. -/
theorem rotated_receiver_gets_data :
    let x := (rotateThenSend false false).foldl Conversation.step (.opened toyTalk)
    ∃ wire, (x.flights true)[0]? = some (wire, [42]) ∧
      ∃ e, (Endpoint.receiveData toyEnv wire).run (x.ends false) = .ok [42] e := by
  rcases toyTalk_paired with ⟨S, hpaired⟩
  rcases rotateThenSend_inTime false false with ⟨wire, hf, htime⟩
  have hkeeps := rotation_keeps_sessions toyTalk S toyTalk_established hpaired
    (rotateThenSend false false) (by decide +kernel)
  generalize (rotateThenSend false false).foldl Conversation.step (.opened toyTalk) = x
    at hf htime hkeeps ⊢
  exact ⟨wire, hf, hkeeps true toyEnv 0 wire [42] hf htime⟩

/-- The sender rotates, and what it builds is refused under its new name, by
    signature or tag. -/
theorem rotated_sender_refused :
    (∀ side, (toyTalk side).proto.state = .established) ∧
    (∃ S : Bool → Session, ∀ side, Paired (toyTalk side) (toyTalk !side) (S side) (S !side)) ∧
    ∀ useMac, ∃ wire,
      (((rotateThenSend true useMac).foldl Conversation.step (.opened toyTalk)).flights true)[0]?
        = some (wire, [42]) ∧
      ((rotateThenSend true useMac).foldl Conversation.step (.opened toyTalk)).InTime true toyEnv 0
        wire ∧
      ((Endpoint.receiveData toyEnv wire).run
        (((rotateThenSend true useMac).foldl Conversation.step (.opened toyTalk)).ends
          false)).returned = none := by
  have hrefused : ∀ useMac, ∀ f ∈ (((rotateThenSend true useMac).foldl Conversation.step
      (.opened toyTalk)).flights true)[0]?, ((Endpoint.receiveData toyEnv f.1).run
        (((rotateThenSend true useMac).foldl Conversation.step (.opened toyTalk)).ends
          false)).returned = none := by
    decide +kernel
  refine ⟨toyTalk_established, toyTalk_paired, fun useMac => ?_⟩
  rcases rotateThenSend_inTime true useMac with ⟨wire, hf, htime⟩
  exact ⟨wire, hf, htime, hrefused useMac (wire, [42]) (Option.mem_def.mpr hf)⟩

end Ztlnp
