import Ztlnp.Theory.Host

/-!
# Identities and Keys

When the identifier a session is filed under is the hash of the key the
session trusts.

A key enters a device in one place only, the payload of a HELLO, and is then
copied: into the peer fields of a protocol, into the table of pending keys,
and into the session. Every copy keeps the identifier and the key together,
so the binding holds of every session as soon as it holds of every HELLO a
handler acts on. Nothing in the code checks the latter: reception verifies a
HELLO under the key it carries, and the sender field is taken as it is. A
HELLO that signs for itself under somebody else's identifier therefore files
the sender's own key under that identifier.

## Main definitions

* `SessionsBound`: The tables of a device file keys under their hashes.
* `Host.Bound`: The same for a host, with the fields of its responders.
* `Host.HelloBound`: The HELLO of an act names the key it carries.
* `selfSignedHello`: A HELLO under an arbitrary identifier.

## Theorems

* `exchanged_bound`: A completed exchange files the key it was given.
* `received_bound`, `hello_bound`, `keyExchange_bound`: Reception and the two
  handlers that touch the tables.
* `step_bound`: A permitted step keeps the binding.
* `sessions_bound_to_identity`: Every run of permitted steps keeps it, and
  accepted packets were authenticated under the bound key.
* `self_signed_hello_unbinds`: A HELLO under another identifier breaks it.
-/

namespace Ztlnp

variable {C : Primitives}

/-- Sessions and pending keys are filed under the hash of their key. -/
structure SessionsBound (d : Device C) : Prop where
  sessions : ∀ id s, d.sessions.get? id = some s →
    s.peerId = id ∧ id = C.sha256 s.peerEd25519Public
  pending : ∀ id key, d.pendingPeerKeys.get? id = some key → id = C.sha256 key

/-- The tables are bound, and so are the fields that a responder will make
    its session from. -/
structure Host.Bound (h : Host C) : Prop where
  device : SessionsBound h.device
  responders : ∀ i, (h.protocols i).state = .helloReceived → ∀ id key,
    (h.protocols i).peerId = some id → (h.protocols i).peerEd25519Pub = some key →
      id = C.sha256 key

/-- A HELLO delivered to a protocol that has no session yet names its sender
    by the hash of the key it carries. HELLOs that reception or the length
    check refuses are not restricted. -/
def Host.HelloBound (h : Host C) : Act → Prop
  | .processIncoming i env raw =>
    ∀ p, Packet.fromBytes env.parseMs raw = .ok p →
      p.ptype = .hello ∧ CryptoEngine.verifyPacket C (p.payload.take 32) p = .ok true ∧
        64 ≤ p.payload.length ∧ ((h.protocols i).state = .idle ∨
          (h.protocols i).state = .helloSent ∨ (h.protocols i).state = .helloReceived) →
      p.senderId = C.sha256 (p.payload.take 32)
  | _ => True

instance (h : Host C) : ∀ a, Decidable (h.HelloBound a)
  | .processIncoming .. => decidableForallOk _ _
  | .initiate .. | .sendData .. | .receiveData .. | .receivePacket .. | .build ..
  | .removeSession .. => .isTrue trivial

/-- Entries that were there before, or that are bound, are bound. -/
theorem SessionsBound.of_entries (d d' : Device C) (hd : SessionsBound d)
    (hs : ∀ id s, d'.sessions.get? id = some s → d.sessions.get? id = some s ∨
      (s.peerId = id ∧ id = C.sha256 s.peerEd25519Public))
    (hp : ∀ id key, d'.pendingPeerKeys.get? id = some key →
      d.pendingPeerKeys.get? id = some key ∨ id = C.sha256 key) : SessionsBound d' where
  sessions id s h := (hs id s h).elim (hd.sessions id s) (fun hb => hb)
  pending id key h := (hp id key h).elim (hd.pending id key) (fun hb => hb)

/-- Writing a bound session keeps the tables bound. -/
theorem SessionsBound.set (d d' : Device C) (id : Bytes) (s : Session) (hd : SessionsBound d)
    (hsess : d'.sessions = d.sessions.set id s)
    (hpend : ∀ id' key, d'.pendingPeerKeys.get? id' = some key →
      d.pendingPeerKeys.get? id' = some key)
    (hs : s.peerId = id ∧ id = C.sha256 s.peerEd25519Public) : SessionsBound d' := by
  refine SessionsBound.of_entries d d' hd (fun id' t h => ?_)
    (fun id' key h => Or.inl (hpend _ _ h))
  rw [hsess, Dict.get?_set] at h
  -- The entry that was written, or any other.
  by_cases heq : id' = id
  · rw [if_pos heq, Option.some.injEq] at h
    subst heq
    subst h
    exact Or.inr hs
  · rw [if_neg heq] at h
    exact Or.inl h

theorem advanced_bound (d : Device C) (id : Bytes) (s : Session) (hd : SessionsBound d)
    (hs : s.peerId = id ∧ id = C.sha256 s.peerEd25519Public) :
    SessionsBound (d.advanced id s) :=
  SessionsBound.set d _ id _ hd rfl (fun _ _ h => h) hs

theorem withEphemeral_bound (d : Device C) (env : Env) (id : Bytes) (hd : SessionsBound d) :
    SessionsBound (d.withEphemeral env id) := by
  unfold Device.withEphemeral
  by_cases h : d.ephemeralPrivate.get? id = none
  · rw [if_pos h]
    exact ⟨hd.sessions, hd.pending⟩
  · rw [if_neg h]
    exact hd

theorem withPending_bound (d : Device C) (id key : Bytes) (hd : SessionsBound d)
    (hkey : id = C.sha256 key) : SessionsBound (d.withPending id key) := by
  refine SessionsBound.of_entries d _ hd (fun _ _ h => Or.inl h) (fun id' key' h => ?_)
  simp only [Device.withPending, Dict.get?_set] at h
  by_cases heq : id' = id
  · rw [if_pos heq, Option.some.injEq] at h
    rw [heq, ← h]
    exact Or.inr hkey
  · rw [if_neg heq] at h
    exact Or.inl h

theorem installed_bound (d : Device C) (id : Bytes) (s : Session) (hd : SessionsBound d)
    (hs : s.peerId = id ∧ id = C.sha256 s.peerEd25519Public) :
    SessionsBound (d.installed id s) := by
  refine SessionsBound.set d _ id s hd rfl (fun id' key h => ?_) hs
  -- The pending key of the peer is dropped, the others stay.
  simp only [Device.installed, Dict.get?_pop] at h
  by_cases heq : id' = id
  · rw [if_pos heq] at h
    simp only [reduceCtorEq] at h
  · rw [if_neg heq] at h
    exact h

theorem popped_bound (d : Device C) (id : Bytes) (hd : SessionsBound d) :
    SessionsBound { d with sessions := d.sessions.pop id } := by
  refine SessionsBound.of_entries d _ hd (fun id' s h => ?_) (fun _ _ h => Or.inl h)
  simp only [Dict.get?_pop] at h
  by_cases heq : id' = id
  · rw [if_pos heq] at h
    simp only [reduceCtorEq] at h
  · rw [if_neg heq] at h
    exact Or.inl h

/-- A completed exchange files the key it was given under the identifier it
    was given. -/
theorem exchanged_bound (d : Device C) (id key x : Bytes) (b : Bool) (s : Session)
    (h : d.exchangedSession id key x b = .ok s) (hkey : id = C.sha256 key) :
    s.peerId = id ∧ id = C.sha256 s.peerEd25519Public := by
  rcases Device.exchangedSession_eq_ok d id key x b s h with ⟨hid, hed, _⟩
  rw [hid, hed]
  exact ⟨rfl, hkey⟩

/-- Reception only writes replay windows. -/
theorem received_bound (d d' : Device C) (env : Env) (raw : Bytes) (p : Packet)
    (hd : SessionsBound d) (hrec : Device.Received d env raw p d') : SessionsBound d' := by
  cases hrec with
  | hello => exact hd
  | pending => exact hd
  | session s _ _ hget =>
      refine SessionsBound.set d _ p.senderId _ hd rfl (fun _ _ h => h) ?_
      -- Recording a number changes neither the peer nor its key.
      exact hd.sessions _ s hget

/-- An endpoint of a bound host. -/
structure Endpoint.Bound (e : Endpoint C) : Prop where
  device : SessionsBound e.device
  responder : e.proto.state = .helloReceived → ∀ id key, e.proto.peerId = some id →
    e.proto.peerEd25519Pub = some key → id = C.sha256 key

/-- The fields a bound HELLO sets are bound. -/
theorem metHello_bound (pr : Protocol) (p : Packet)
    (hp : p.senderId = C.sha256 (p.payload.take 32)) (id key : Bytes)
    (hid : (pr.metHello p).peerId = some id)
    (hkey : (pr.metHello p).peerEd25519Pub = some key) : id = C.sha256 key := by
  simp only [Protocol.metHello, Option.some.injEq] at hid hkey
  rw [← hid, ← hkey]
  exact hp

/-- A HELLO keeps an endpoint bound when it is bound itself, as far as the
    state of the machine makes that matter. -/
theorem hello_bound (env : Env) (p : Packet) (e : Endpoint C)
    (r : EStateM.Result Exn (Endpoint C) (Option Bytes)) (he : e.Bound)
    (hp : 64 ≤ p.payload.length ∧ (e.proto.state = .idle ∨ e.proto.state = .helloSent ∨
      e.proto.state = .helloReceived) → p.senderId = C.sha256 (p.payload.take 32))
    (hout : Endpoint.HelloOutcome env p e r) : r.final.Bound := by
  cases hout with
  | short => exact he
  | answered b hlen hstate =>
      -- The fields of the responder are set by this HELLO.
      have hkey := hp ⟨hlen, Or.inl hstate⟩
      refine ⟨?_, fun _ id key hid hk => metHello_bound e.proto p hkey id key hid hk⟩
      exact withPending_bound _ _ _ (withEphemeral_bound _ _ _ he.device) hkey
  | unanswered x d hlen hstate hdev =>
      have hkey := hp ⟨hlen, Or.inl hstate⟩
      refine ⟨?_, fun _ id key hid hk => metHello_bound e.proto p hkey id key hid hk⟩
      have heph := withEphemeral_bound e.device env p.senderId he.device
      rcases hdev with rfl | rfl
      · exact heph
      · exact withPending_bound _ _ _ heph hkey
  | refused x hlen hstate =>
      have hkey := hp ⟨hlen, Or.inr (Or.inl hstate)⟩
      exact ⟨he.device, fun _ id key hid hk => metHello_bound e.proto p hkey id key hid hk⟩
  | halfway s x hlen hstate hex =>
      have hkey := hp ⟨hlen, Or.inr (Or.inl hstate)⟩
      refine ⟨?_, fun _ id key hid hk => metHello_bound e.proto p hkey id key hid hk⟩
      exact SessionsBound.set e.device _ _ s he.device rfl (fun _ _ h => h)
        (exchanged_bound _ _ _ _ _ s hex hkey)
  | exchanged s b hlen hstate hex =>
      have hkey := hp ⟨hlen, Or.inr (Or.inl hstate)⟩
      refine ⟨?_, fun _ id key hid hk => metHello_bound e.proto p hkey id key hid hk⟩
      -- The session is made from the HELLO alone, whoever was dialled.
      have hs := exchanged_bound _ _ _ _ _ s hex hkey
      exact advanced_bound _ _ s (installed_bound _ _ s he.device hs) hs
  | unconfirmed s x hlen hstate hex =>
      have hkey := hp ⟨hlen, Or.inr (Or.inl hstate)⟩
      refine ⟨?_, fun _ id key hid hk => metHello_bound e.proto p hkey id key hid hk⟩
      have hs := exchanged_bound _ _ _ _ _ s hex hkey
      exact advanced_bound _ _ s (installed_bound _ _ s he.device hs) hs
  | unexpected x hlen hidle hsent =>
      -- Rejected, but the fields are written; they matter if a session is still to come.
      refine ⟨he.device, fun hstate id key hid hk => ?_⟩
      exact metHello_bound e.proto p (hp ⟨hlen, Or.inr (Or.inr hstate)⟩) id key hid hk

/-- The session a bound responder completes is bound. -/
theorem completes_bound (e : Endpoint C) (id : Bytes) (s : Session) (he : e.Bound)
    (hstate : e.proto.state = .helloReceived) (hcomp : e.Completes id s) :
    s.peerId = id ∧ id = C.sha256 s.peerEd25519Public := by
  rcases hcomp with ⟨ed, x, hid, hed, _, hex⟩
  exact exchanged_bound _ _ _ _ _ s hex (he.responder hstate id ed hid hed)

/-- A KEY_EXCHANGE keeps an endpoint bound. -/
theorem keyExchange_bound (env : Env) (p : Packet) (e : Endpoint C)
    (r : EStateM.Result Exn (Endpoint C) (Option Bytes)) (he : e.Bound)
    (hout : Endpoint.KeyExchangeOutcome env p e r) : r.final.Bound := by
  cases hout with
  | refused => exact he
  | unanswered => exact he
  | unexpected => exact he
  | answered => exact ⟨he.device, fun h => by simp only [EStateM.Result.final, reduceCtorEq] at h⟩
  | halfway id s x hstate hcomp =>
      -- Each way of going wrong leaves the session in the table all the same.
      exact ⟨SessionsBound.set e.device _ _ s he.device rfl (fun _ _ h => h)
        (completes_bound e id s he hstate hcomp), he.responder⟩
  | stale id s x hstate hcomp =>
      exact ⟨installed_bound _ _ s he.device (completes_bound e id s he hstate hcomp),
        he.responder⟩
  | unconfirmed id s x hstate hcomp =>
      exact ⟨installed_bound _ _ (s.recorded p.sequence) he.device
        (completes_bound e id s he hstate hcomp), he.responder⟩
  | established id s _ hstate hcomp hpub hadmits hplain hfinal =>
      rw [hfinal]
      -- Established: the session, one number recorded and one drawn.
      have hs := completes_bound e id s he hstate hcomp
      refine ⟨?_, fun h => by simp only [reduceCtorEq] at h⟩
      exact advanced_bound _ _ (s.recorded p.sequence)
        (installed_bound _ _ (s.recorded p.sequence) he.device hs) hs

/-- Every packet type keeps an endpoint bound. -/
theorem outcome_bound (env : Env) (p : Packet) (e : Endpoint C)
    (r : EStateM.Result Exn (Endpoint C) (Option Bytes)) (he : e.Bound)
    (hp : p.ptype = .hello → 64 ≤ p.payload.length ∧ (e.proto.state = .idle ∨
      e.proto.state = .helloSent ∨ e.proto.state = .helloReceived) →
        p.senderId = C.sha256 (p.payload.take 32))
    (hout : Endpoint.Outcome env p e r) : r.final.Bound := by
  cases hout with
  | hello _ htype hout => exact hello_bound env p e r he (hp htype) hout
  | keyExchange _ htype hout => exact keyExchange_bound env p e r he hout
  | accepted => exact he
  | rejected => exact he
  | error => exact ⟨he.device, fun h => by simp only [EStateM.Result.final, reduceCtorEq] at h⟩
  | bye =>
      simp only [EStateM.Result.final, Endpoint.afterBye]
      by_cases hest : e.proto.state = .established
      · rw [if_pos hest]
        refine ⟨?_, fun h => by simp only [reduceCtorEq] at h⟩
        -- A BYE only removes.
        cases e.proto.peerId with
        | none => exact he.device
        | some id => exact popped_bound _ id he.device
      · rw [if_neg hest]
        exact he

/-- A protocol that moved to a bound endpoint keeps its host bound. -/
theorem put_bound (h : Host C) (i : Nat) (e : Endpoint C) (hh : h.Bound) (he : e.Bound) :
    (h.put i e).Bound := by
  refine ⟨he.device, fun j => ?_⟩
  by_cases hj : j = i
  · subst hj
    rw [Host.put_protocols_self]
    exact he.responder
  · rw [Host.put_protocols_ne h e hj]
    exact hh.responders j

/-- A step whose HELLO is bound keeps the host bound. -/
theorem step_bound (h : Host C) (a : Act) (hh : h.Bound) (ha : h.HelloBound a) :
    (h.step a).Bound := by
  have hmove := step_moved h a
  generalize h.step a = h' at hmove
  cases hmove with
  | stayed => exact hh
  | drew _ id s hget => exact ⟨advanced_bound _ _ s hh.device (hh.device.sessions id s hget),
      hh.responders⟩
  | keyed _ env id => exact ⟨withEphemeral_bound _ env id hh.device, hh.responders⟩
  | initiated i env id st hidle hst =>
      refine put_bound h i _ hh ⟨withEphemeral_bound _ env id hh.device, fun hstate => ?_⟩
      -- An initiator is not a responder.
      rcases hst with rfl | rfl <;> simp only [reduceCtorEq] at hstate
  | observed _ env raw p d hrec =>
      exact ⟨received_bound _ d env raw p hh.device hrec, hh.responders⟩
  | removed id => exact ⟨popped_bound _ id hh.device, hh.responders⟩
  | handled i env raw p d r hopen hrec hrun hout =>
      refine put_bound h i _ hh (outcome_bound env p _ _ ⟨received_bound _ d env raw p hh.device
        hrec, hh.responders i⟩ (fun htype hlen => ?_) hout)
      -- The condition is about HELLOs that were received, and only a HELLO is received as one.
      cases hrec with
      | hello hparse _ hverify => exact ha p hparse ⟨htype, hverify, hlen⟩
      | session s hparse hne => exact absurd htype hne
      | pending key hparse hne => exact absurd htype hne

theorem create_bound (C : Primitives) (priv : Bytes) : (Host.create C priv).Bound := by
  refine ⟨⟨fun id s h => ?_, fun id key h => ?_⟩, fun i h => ?_⟩
  · simp only [Host.create, Device.create, Dict.get?_empty, reduceCtorEq] at h
  · simp only [Host.create, Device.create, Dict.get?_empty, reduceCtorEq] at h
  · simp only [Host.create, reduceCtorEq] at h

/-- A bound device accepts a packet only on the authority of the key that the
    sender field is the hash of: by its signature, or by the MAC key of the
    session that was made with it. -/
theorem received_authority (d d' : Device C) (env : Env) (raw : Bytes) (p : Packet)
    (hd : SessionsBound d) (htype : p.ptype ≠ .hello) (hrec : Device.Received d env raw p d') :
    ∃ key, p.senderId = C.sha256 key ∧ (CryptoEngine.verifyPacket C key p = .ok true ∨
      ∃ s, d.sessions.get? p.senderId = some s ∧ s.peerEd25519Public = key ∧
        CryptoEngine.verifyPacketMac C s.macKey p = .ok true) := by
  cases hrec with
  | hello hparse h => exact absurd h htype
  | pending key _ _ _ hkey hverify => exact ⟨key, hd.pending _ key hkey, Or.inl hverify⟩
  | session s _ _ hget hverify =>
      refine ⟨s.peerEd25519Public, (hd.sessions _ s hget).2, ?_⟩
      -- The flag of the packet chooses between the two proofs of origin.
      unfold Device.Verifies at hverify
      by_cases hmac : p.macAuth = true
      · rw [if_pos hmac] at hverify
        exact Or.inr ⟨s, hget, rfl, hverify⟩
      · rw [if_neg hmac] at hverify
        exact Or.inl hverify

/-- In every run whose HELLOs name the key they carry, every session is filed
    under the hash of the key it trusts, and every accepted packet was
    authenticated under the key its sender field is the hash of. -/
theorem sessions_bound_to_identity (C : Primitives) (priv : Bytes) (acts : List Act)
    (hrun : Along Host.step Host.HelloBound (Host.create C priv) acts) :
    (∀ id s, (acts.foldl Host.step (Host.create C priv)).device.sessions.get? id = some s →
      s.peerId = id ∧ id = C.sha256 s.peerEd25519Public) ∧
    (∀ env raw p d', (Device.receivePacket env raw).run
        (acts.foldl Host.step (Host.create C priv)).device = .ok p d' → p.ptype ≠ .hello →
      ∃ key, p.senderId = C.sha256 key ∧ (CryptoEngine.verifyPacket C key p = .ok true ∨
        ∃ s, (acts.foldl Host.step (Host.create C priv)).device.sessions.get? p.senderId
            = some s ∧ s.peerEd25519Public = key ∧
          CryptoEngine.verifyPacketMac C s.macKey p = .ok true)) := by
  have hbound := along_invariant Host.Bound step_bound _ acts (create_bound C priv) hrun
  refine ⟨hbound.device.sessions, fun env raw p d' hrec htype => ?_⟩
  rw [Device.receivePacket_eq_ok] at hrec
  exact received_authority _ d' env raw p hbound.device htype hrec

/-- A HELLO under any identifier, signed by the key it carries. -/
def selfSignedHello (C : Primitives) (env : Env) (priv senderId x25519Pub : Bytes) :
    Except Exn Bytes := do
  let packet ← PacketFields.postInit env.buildMs
    { ptype := .hello
      senderId := senderId
      payload := C.ed25519Public priv ++ x25519Pub
      recipientId := broadcastId }
  let signature ← CryptoEngine.signPacket C priv packet
  Packet.toBytes { packet with signature := signature }

/-- An initiator that dials the owner of key `[1]` and is answered by a HELLO
    under that identifier, signed with another key. -/
def answeredBy (priv : Bytes) : List Act :=
  let peerId := toyPrimitives.sha256 (toyPrimitives.ed25519Public [1])
  -- The identifier is the one that was dialled, the key is whatever was given.
  match selfSignedHello toyPrimitives toyEnv priv peerId (toyPrimitives.x25519Public [3]) with
  | .ok raw => [.initiate 0 toyEnv peerId, .processIncoming 0 toyEnv raw]
  | .error _ => []

/-- The owner of the key answers: the run is permitted and its session is
    bound. -/
theorem sessions_bound_when_owner_answers :
    ((answeredBy [1]).foldl Host.step (Host.create toyPrimitives [7])).device.sessions.size = 1 ∧
    ∀ id s, ((answeredBy [1]).foldl Host.step
        (Host.create toyPrimitives [7])).device.sessions.get? id = some s →
      s.peerId = id ∧ id = toyPrimitives.sha256 s.peerEd25519Public :=
  ⟨by decide +kernel,
    (sessions_bound_to_identity toyPrimitives [7] (answeredBy [1]) (by decide +kernel)).1⟩

/-- Anybody else answers: the session filed under the owner's identifier
    trusts the other key. -/
theorem self_signed_hello_unbinds :
    ¬ ∀ id s, ((answeredBy [2]).foldl Host.step
        (Host.create toyPrimitives [7])).device.sessions.get? id = some s →
      s.peerId = id ∧ id = toyPrimitives.sha256 s.peerEd25519Public := by
  intro h
  -- The session under the owner's identifier holds the other key.
  have hkey : (((answeredBy [2]).foldl Host.step
      (Host.create toyPrimitives [7])).device.sessions.get?
        (toyPrimitives.sha256 (toyPrimitives.ed25519Public [1]))).map
          Session.peerEd25519Public = some (toyPrimitives.ed25519Public [2]) := by
    decide +kernel
  rcases Option.map_eq_some_iff.mp hkey with ⟨s, hs, hed⟩
  have hhash := (h _ s hs).2
  rw [hed] at hhash
  exact absurd hhash (by decide +kernel)

end Ztlnp
