import Ztlnp.Theory.Identity

/-!
# The Peer of a Protocol

When a protocol keeps the peer it met.

The handler of a HELLO writes the three peer fields before it looks at the
state of the machine. In the states before a peer is settled that is what the
handshake needs; in the later ones the HELLO is rejected, but the fields have
been written, and the next message goes to whoever sent it. So a call that
raises leaves the fields alone exactly when the bytes are not such a HELLO,
or when they repeat the fields already there.

A protocol that keeps its peer still needs a session to send under, and the
sessions belong to the device. A BYE removes the session of the peer of the
protocol it reaches, and with it that of any other protocol with the same
peer. A handshake on one protocol replaces the session filed under the
identifier of its peer, and nothing ties an identifier to a key, so what
another protocol sends to that identifier may from then on be sealed for
somebody else.

## Main definitions

* `Protocol.Settled`: The states in which the peer is chosen.
* `Protocol.peer`: The three peer fields.
* `Protocol.Exchanged`: The states in which there is a session for the peer.
* `Host.KeepsPeer`: The bytes do not overwrite the peer fields.
* `Endpoint.Installs`: The session that a packet makes a handler store.
* `Host.PeerKept`: A step overwrites no settled peer, removes no session that
  another established protocol uses, and replaces none by one of another key.
* `Host.Served`: Established protocols have a session for their peer.
* `Host.Keyed`: The session for a peer trusts the key the protocol remembers.

## Theorems

* `incoming_keeps_peer`: A raising call keeps the fields exactly when the
  bytes do not overwrite them.
* `sendData_eq_ok`: What a message is sealed under.
* `outcome_rekeys`: A handler stores no key but that of the session it
  installs.
* `step_served`, `step_keyed`, `step_settled`: A permitted step serves every
  established protocol, under the key of its peer, and keeps every settled
  peer.
* `peer_stable`: The same for whole runs.
* `late_hello_replaces_peer`: A HELLO in an established state redirects the
  messages that follow.
* `second_dial_rekeys`: So does a handshake on another protocol.
-/

namespace Ztlnp

variable {C : Primitives}

/-- The peer is chosen and the machine is not done. -/
def Protocol.Settled (pr : Protocol) : Prop :=
  pr.state = .helloReceived ∨ pr.state = .keyExchangeSent ∨ pr.state = .established

instance (pr : Protocol) : Decidable pr.Settled :=
  inferInstanceAs (Decidable (_ ∨ _ ∨ _))

/-- Keys have been exchanged with the peer. -/
def Protocol.Exchanged (pr : Protocol) : Prop :=
  pr.state = .keyExchangeSent ∨ pr.state = .established

instance (pr : Protocol) : Decidable pr.Exchanged :=
  inferInstanceAs (Decidable (_ ∨ _))

theorem Protocol.Exchanged.settled {pr : Protocol} (h : pr.Exchanged) : pr.Settled := Or.inr h

/-- The peer fields. -/
def Protocol.peer (pr : Protocol) : Option Bytes × Option Bytes × Option Bytes :=
  (pr.peerId, pr.peerEd25519Pub, pr.peerX25519Pub)

/-- Handling the packet stores this session for the peer with this identifier:
    the initiator's exchange with the sender of a HELLO, or the responder's
    with the peer it remembers. -/
def Endpoint.Installs (e : Endpoint C) (p : Packet) (id : Bytes) (s : Session) : Prop :=
  (p.ptype = .hello ∧ e.proto.state = .helloSent ∧ 64 ≤ p.payload.length ∧ id = p.senderId ∧
    e.device.exchangedSession p.senderId (p.payload.take 32) (field p.payload 32 32) true = .ok s) ∨
  (p.ptype = .keyExchange ∧ e.proto.state = .helloReceived ∧ e.Completes id s)

namespace Host

/-- The bytes are no HELLO that reception and the length check let through,
    or one that repeats the peer fields. -/
def KeepsPeer (h : Host C) (i : Nat) (env : Env) (raw : Bytes) : Prop :=
  ∀ p, Packet.fromBytes env.parseMs raw = .ok p →
    p.ptype = .hello ∧ CryptoEngine.verifyPacket C (p.payload.take 32) p = .ok true ∧
      64 ≤ p.payload.length →
    ((h.protocols i).metHello p).peer = (h.protocols i).peer

instance (h : Host C) (i : Nat) (env : Env) (raw : Bytes) : Decidable (h.KeepsPeer i env raw) :=
  decidableForallOk _ _

/-- No settled peer is overwritten, no session is removed that another
    established protocol uses, and none is stored for the peer of another
    protocol under a key that is not that peer's. -/
def PeerKept (h : Host C) : Act → Prop
  | .processIncoming i env raw =>
    ((h.protocols i).Settled → h.KeepsPeer i env raw) ∧
      ∀ p d, Device.Received h.device env raw p d → ∀ j, j ≠ i →
        (p.ptype = .bye → (h.protocols i).state = .established →
          (h.protocols j).state = .established →
            (h.protocols j).peerId ≠ (h.protocols i).peerId) ∧
        ∀ id s, Endpoint.Installs ⟨h.protocols i, d⟩ p id s →
          (h.protocols j).Exchanged → (h.protocols j).peerId = some id →
            (h.protocols j).peerEd25519Pub = some s.peerEd25519Public
  | .removeSession peerId =>
    ∀ j, (h.protocols j).state = .established → (h.protocols j).peerId ≠ some peerId
  | _ => True

/-- Every established protocol has a peer and the device a session for it. -/
def Served (h : Host C) : Prop :=
  ∀ i, (h.protocols i).state = .established →
    ∃ id s, (h.protocols i).peerId = some id ∧ h.device.sessions.get? id = some s

/-- What is stored for the peer of a protocol that has exchanged keys trusts
    the key which the protocol remembers. -/
def Keyed (h : Host C) : Prop :=
  ∀ i, (h.protocols i).Exchanged → ∀ id s, (h.protocols i).peerId = some id →
    h.device.sessions.get? id = some s →
      (h.protocols i).peerEd25519Pub = some s.peerEd25519Public

end Host

/-- Only a HELLO writes the peer fields. -/
theorem outcome_peer (env : Env) (p : Packet) (e : Endpoint C)
    (r : EStateM.Result Exn (Endpoint C) (Option Bytes)) (htype : p.ptype ≠ .hello)
    (hout : Endpoint.Outcome env p e r) : r.final.proto.peer = e.proto.peer := by
  -- After HELLO no handler writes the peer's fields; BYE and the keys move the state alone.
  cases hout with
  | hello _ h => exact absurd h htype
  | accepted => rfl
  | rejected => rfl
  | error => rfl
  | bye =>
      simp only [EStateM.Result.final, Endpoint.afterBye]
      by_cases hest : e.proto.state = .established
      · rw [if_pos hest]
        rfl
      · rw [if_neg hest]
  | keyExchange _ _ hout =>
      cases hout with
      | established id s _ _ _ _ _ _ hfinal =>
          rw [hfinal]
          rfl
      | refused => rfl
      | halfway => rfl
      | stale => rfl
      | unconfirmed => rfl
      | unanswered => rfl
      | answered => rfl
      | unexpected => rfl

/-- A HELLO in a settled state raises; unless it is too short, the fields are
    the HELLO's. -/
theorem hello_settled (env : Env) (p : Packet) (e : Endpoint C)
    (r : EStateM.Result Exn (Endpoint C) (Option Bytes)) (hset : e.proto.Settled)
    (hout : Endpoint.HelloOutcome env p e r) :
    (p.payload.length < 64 ∧ ∃ x, r = .error x e) ∨
      (64 ≤ p.payload.length ∧ ∃ x, r = .error x { e with proto := e.proto.metHello p }) := by
  -- A settled machine is past both states that expect a HELLO.
  have hidle : e.proto.state ≠ .idle := by
    rcases hset with h | h | h <;> simp only [h, ne_eq, reduceCtorEq, not_false_eq_true]
  have hsent : e.proto.state ≠ .helloSent := by
    rcases hset with h | h | h <;> simp only [h, ne_eq, reduceCtorEq, not_false_eq_true]
  cases hout with
  | short x hlen => exact Or.inl ⟨hlen, x, rfl⟩
  | unexpected x hlen => exact Or.inr ⟨hlen, x, rfl⟩
  | answered _ _ h => exact absurd h hidle
  | unanswered _ _ _ h => exact absurd h hidle
  | refused _ _ h => exact absurd h hsent
  | halfway _ _ _ h => exact absurd h hsent
  | exchanged _ _ _ h => exact absurd h hsent
  | unconfirmed _ _ _ h => exact absurd h hsent

/-- A received HELLO satisfies the condition on overwriting. -/
theorem keepsPeer_received (h : Host C) (i : Nat) (env : Env) (raw : Bytes) (p : Packet)
    (d : Device C) (hrec : Device.Received h.device env raw p d) (hkeep : h.KeepsPeer i env raw)
    (htype : p.ptype = .hello) (hlen : 64 ≤ p.payload.length) :
    ((h.protocols i).metHello p).peer = (h.protocols i).peer := by
  cases hrec with
  | hello hparse _ hverify => exact hkeep p hparse ⟨htype, hverify, hlen⟩
  | session s _ hne => exact absurd htype hne
  | pending key _ hne => exact absurd htype hne

/-- In a settled state, a call that raises keeps the peer fields exactly when
    the bytes do not overwrite them. -/
theorem incoming_keeps_peer (h : Host C) (i : Nat) (env : Env) (raw : Bytes)
    (hset : (h.protocols i).Settled) :
    (∀ x e', h.incoming i env raw = .error x e' → e'.proto.peer = (h.protocols i).peer) ↔
      h.KeepsPeer i env raw := by
  have hopen : (h.protocols i).state ≠ .closed ∧ (h.protocols i).state ≠ .error := by
    rcases hset with hs | hs | hs <;>
      simp only [hs, ne_eq, reduceCtorEq, not_false_eq_true, and_self]
  constructor
  · rintro hkeep p hparse ⟨htype, hverify, hlen⟩
    -- Such a HELLO is received, and its handler raises with the fields written.
    have hrec : Device.Received h.device env raw p h.device := .hello p hparse htype hverify
    have hrun := Endpoint.processIncoming_of_received env raw (h.endpoint i) p h.device hopen hrec
    have hout := Endpoint.handleHello_outcome env p (h.endpoint i)
    rcases hello_settled env p (h.endpoint i) _ hset hout with ⟨hshort, _⟩ | ⟨_, x, hx⟩
    · omega
    · have hraise : h.incoming i env raw
          = .error x { h.endpoint i with proto := (h.protocols i).metHello p } := by
        rw [Host.incoming, hrun, Endpoint.dispatch, htype]
        exact hx
      exact hkeep x _ hraise
  · -- Conversely, whatever raised was not such a HELLO.
    intro hkeep x e' hx
    rcases Endpoint.processIncoming_cases env raw (h.endpoint i) with
      ⟨y, hy⟩ | ⟨_, p, d, hrec, hrun⟩
    · rw [Host.incoming, hy, EStateM.Result.error.injEq] at hx
      rw [← hx.2]
      rfl
    · have hout := Endpoint.dispatch_outcome env p { h.endpoint i with device := d }
      rw [← hrun, ← Host.incoming, hx] at hout
      -- Only a HELLO could have written the fields.
      by_cases htype : p.ptype = .hello
      · cases hout with
        | hello _ _ hout =>
            rcases hello_settled env p _ _ hset hout with ⟨_, y, hy⟩ | ⟨hlen, y, hy⟩
            · rw [EStateM.Result.error.injEq] at hy
              rw [hy.2]
              rfl
            · rw [EStateM.Result.error.injEq] at hy
              rw [hy.2]
              exact keepsPeer_received h i env raw p d hrec hkeep htype hlen
        | keyExchange _ h => simp only [htype, reduceCtorEq] at h
        | rejected _ h => exact absurd htype h.1
      · exact outcome_peer env p _ _ htype hout

/-- What a message that was sent is sealed under: the session of the peer. -/
theorem sendData_eq_ok (env : Env) (plaintext b : Bytes) (e e' : Endpoint C)
    (h : (Endpoint.sendData env plaintext).run e = .ok b e') :
    ∃ id s p, e.proto.peerId = some id ∧ e.device.sessions.get? id = some s ∧
      Device.Sealed e.device env .data flagEncrypted id plaintext s s.localSequence p ∧
      p.toBytes = .ok b := by
  simp only [Endpoint.sendData, run_bind_eq_ok] at h
  rcases h with ⟨_, e₁, hreq, id, e₂, hpeer, p, e₃, hbuild, hbytes⟩
  -- It returned, so it passed both guards.
  rcases Endpoint.requireEstablished_cases e with ⟨_, hreq'⟩ | ⟨_, x, hreq'⟩
  · rw [hreq', EStateM.Result.ok.injEq] at hreq
    rw [← hreq.2] at hpeer
    rcases Endpoint.requirePeer_cases e with ⟨id', hid, hpeer'⟩ | ⟨_, x, hpeer'⟩
    · rw [hpeer', EStateM.Result.ok.injEq] at hpeer
      rcases hpeer with ⟨rfl, rfl⟩
      rw [Endpoint.onDevice, run_zoom_eq_ok] at hbuild
      rcases hbuild with ⟨d, hbuild, _⟩
      -- What is left is the builder, under the session of the peer.
      rcases Device.buildSealed_eq_ok _ _ _ _ _ _ _ _ _ hbuild with ⟨s, hget, _, hs⟩
      rcases Device.sealPacket_eq_ok _ _ _ _ _ _ _ _ _ _ hs with ⟨hseal, _⟩
      refine ⟨id', s, p, hid, hget, ?_, ((run_ofExcept_eq_ok _ _ _ _).mp hbytes).1⟩
      exact ⟨hseal.ptype, hseal.flags, hseal.senderId, hseal.recipientId, hseal.sequence,
        hseal.nonce, hseal.timestampMs, hseal.payload⟩
    · rw [hpeer'] at hpeer
      simp only [reduceCtorEq] at hpeer
  · rw [hreq'] at hreq
    simp only [reduceCtorEq] at hreq

/-- The device holds at least the sessions it held. -/
def KeepsSessions (d d' : Device C) : Prop :=
  ∀ id, d.sessions.get? id ≠ none → d'.sessions.get? id ≠ none

/-- Writing one session removes none. -/
theorem keepsSessions_set (d d' : Device C) (id : Bytes) (s : Session)
    (h : d'.sessions = d.sessions.set id s) : KeepsSessions d d' := by
  intro id' hid
  rw [h, Dict.get?_set]
  by_cases heq : id' = id
  · rw [if_pos heq]
    simp only [ne_eq, reduceCtorEq, not_false_eq_true]
  · rw [if_neg heq]
    exact hid

theorem received_keepsSessions (d d' : Device C) (env : Env) (raw : Bytes) (p : Packet)
    (hrec : Device.Received d env raw p d') : KeepsSessions d d' := by
  cases hrec with
  | hello => exact fun _ h => h
  | pending => exact fun _ h => h
  | session s => exact keepsSessions_set d _ _ _ rfl

/-- A session that was installed is written over when a number is drawn. -/
theorem installed_advanced_sessions (d : Device C) (id : Bytes) (s t : Session) :
    ((d.installed id s).advanced id t).sessions
      = d.sessions.set id { t with localSequence := t.localSequence + 1 } :=
  Dict.set_set _ _ _ _

/-- Installing a session and drawing from it removes none. -/
theorem keepsSessions_installed_advanced (d : Device C) (id : Bytes) (s t : Session) :
    KeepsSessions d ((d.installed id s).advanced id t) :=
  keepsSessions_set _ _ id _ (installed_advanced_sessions d id s t)

/-- Only a BYE removes a session. -/
theorem outcome_keepsSessions (env : Env) (p : Packet) (e : Endpoint C)
    (r : EStateM.Result Exn (Endpoint C) (Option Bytes)) (htype : p.ptype ≠ .bye)
    (hout : Endpoint.Outcome env p e r) : KeepsSessions e.device r.final.device := by
  cases hout with
  | bye h => exact absurd h htype
  | accepted => exact fun _ h => h
  | rejected => exact fun _ h => h
  | error => exact fun _ h => h
  | hello _ _ hout =>
      cases hout with
      | short => exact fun _ h => h
      | refused => exact fun _ h => h
      | unexpected => exact fun _ h => h
      | answered =>
          intro id h
          simp only [EStateM.Result.final, Device.withPending, Device.withEphemeral_sessions]
          exact h
      | unanswered x d _ _ hdev =>
          intro id h
          rcases hdev with rfl | rfl <;>
            simp only [EStateM.Result.final, Device.withPending, Device.withEphemeral_sessions] <;>
            exact h
      -- A session is written; an older one of the same peer is replaced, not removed.
      | halfway s => exact keepsSessions_set _ _ _ s rfl
      | exchanged s => exact keepsSessions_installed_advanced _ _ s s
      | unconfirmed s => exact keepsSessions_installed_advanced _ _ s s
  | keyExchange _ _ hout =>
      cases hout with
      | refused => exact fun _ h => h
      | unanswered => exact fun _ h => h
      | answered => exact fun _ h => h
      | unexpected => exact fun _ h => h
      | halfway id s => exact keepsSessions_set _ _ id s rfl
      | stale id s => exact keepsSessions_set _ _ id s rfl
      | unconfirmed id s => exact keepsSessions_set _ _ id (s.recorded p.sequence) rfl
      | established id s _ _ _ _ _ _ hfinal =>
          rw [hfinal]
          exact keepsSessions_installed_advanced _ id _ _

/-- An established protocol has a peer and the device a session for it. -/
def Endpoint.Served (e : Endpoint C) : Prop :=
  e.proto.state = .established →
    ∃ id s, e.proto.peerId = some id ∧ e.device.sessions.get? id = some s

/-- A handler serves the protocol it runs for, given that it does not
    overwrite a settled peer. -/
theorem outcome_served (env : Env) (p : Packet) (e : Endpoint C)
    (r : EStateM.Result Exn (Endpoint C) (Option Bytes)) (he : e.Served)
    (hkeep : e.proto.Settled → p.ptype = .hello → 64 ≤ p.payload.length →
      (e.proto.metHello p).peer = e.proto.peer)
    (hout : Endpoint.Outcome env p e r) : r.final.Served := by
  cases hout with
  | accepted => exact he
  | rejected => exact he
  | error => exact fun h => by simp only [EStateM.Result.final, reduceCtorEq] at h
  | bye =>
      simp only [EStateM.Result.final, Endpoint.afterBye]
      by_cases hest : e.proto.state = .established
      · rw [if_pos hest]
        exact fun h => by simp only [reduceCtorEq] at h
      · rw [if_neg hest]
        exact he
  | hello _ htype hout =>
      intro hest
      cases hout with
      | short => exact he hest
      | answered => simp only [EStateM.Result.final, reduceCtorEq] at hest
      | exchanged => simp only [EStateM.Result.final, reduceCtorEq] at hest
      | unanswered _ _ _ h =>
          simp only [EStateM.Result.final, Protocol.metHello, h, reduceCtorEq] at hest
      | refused _ _ h =>
          simp only [EStateM.Result.final, Protocol.metHello, h, reduceCtorEq] at hest
      | halfway _ _ _ h =>
          simp only [EStateM.Result.final, Protocol.metHello, h, reduceCtorEq] at hest
      | unconfirmed _ _ _ h =>
          simp only [EStateM.Result.final, Protocol.metHello, h, reduceCtorEq] at hest
      | unexpected _ hlen =>
          -- Rejected in an established state: here the condition is needed.
          have hstate : e.proto.state = .established := hest
          have hpeer := hkeep (Or.inr (Or.inr hstate)) htype hlen
          rcases he hstate with ⟨id, s, hid, hs⟩
          have hsame : (e.proto.metHello p).peerId = e.proto.peerId := congrArg Prod.fst hpeer
          exact ⟨id, s, hsame.trans hid, hs⟩
  | keyExchange _ _ hout =>
      intro hest
      cases hout with
      | refused => exact he hest
      | unanswered => exact he hest
      | unexpected => exact he hest
      | halfway _ _ _ h => simp only [EStateM.Result.final, h, reduceCtorEq] at hest
      | stale _ _ _ h => simp only [EStateM.Result.final, h, reduceCtorEq] at hest
      | unconfirmed _ _ _ h => simp only [EStateM.Result.final, h, reduceCtorEq] at hest
      | answered _ hconf =>
          -- The initiator looked the session up before it went on.
          rcases hconf.1 with ⟨id, s, hid, hs⟩
          exact ⟨id, s, hid, hs⟩
      | established id s _ _ hcomp _ _ _ hfinal =>
          -- The responder has just written it.
          rcases hcomp with ⟨_, _, hid, _⟩
          rw [hfinal]
          exact ⟨id, _, hid, Dict.get?_set_self _ _ _⟩

/-- Another established protocol keeps its session, unless a BYE removed it. -/
theorem outcome_serves_others (env : Env) (p : Packet) (e : Endpoint C)
    (r : EStateM.Result Exn (Endpoint C) (Option Bytes)) (id : Bytes)
    (hid : e.device.sessions.get? id ≠ none)
    (hbye : p.ptype = .bye → e.proto.state = .established → some id ≠ e.proto.peerId)
    (hout : Endpoint.Outcome env p e r) : r.final.device.sessions.get? id ≠ none := by
  by_cases htype : p.ptype = .bye
  · cases hout with
    | bye =>
        simp only [EStateM.Result.final, Endpoint.afterBye]
        by_cases hest : e.proto.state = .established
        · rw [if_pos hest]
          -- The session that goes belongs to another peer.
          have hne := hbye htype hest
          cases hpeer : e.proto.peerId with
          | none => exact hid
          | some id' =>
              rw [hpeer] at hne
              have hne' : id ≠ id' := fun h => hne (congrArg some h)
              simp only [Dict.get?_pop_ne _ hne']
              exact hid
        · rw [if_neg hest]
          exact hid
    | hello _ h => simp only [htype, reduceCtorEq] at h
    | keyExchange _ h => simp only [htype, reduceCtorEq] at h
    | accepted h => simp only [htype, reduceCtorEq, or_self] at h
    | rejected _ h => exact absurd htype h.2.2.1
    | error h => simp only [htype, reduceCtorEq] at h
  · exact outcome_keepsSessions env p e r htype hout id hid

theorem served_of_keepsSessions (h : Host C) (d : Device C) (hh : h.Served)
    (hkeep : KeepsSessions h.device d) : Host.Served { h with device := d } := by
  intro i hest
  rcases hh i hest with ⟨id, s, hid, hs⟩
  have hsome : d.sessions.get? id ≠ none := hkeep id (by simp only [hs, ne_eq, reduceCtorEq,
    not_false_eq_true])
  rcases Option.ne_none_iff_exists'.mp hsome with ⟨t, ht⟩
  exact ⟨id, t, hid, ht⟩

/-- A permitted step serves every established protocol. -/
theorem step_served (h : Host C) (a : Act) (hh : h.Served) (ha : h.PeerKept a) :
    (h.step a).Served := by
  have hmove := step_moved h a
  generalize h.step a = h' at hmove
  cases hmove with
  | stayed => exact hh
  | drew _ id s => exact served_of_keepsSessions h _ hh (keepsSessions_set _ _ id _ rfl)
  | keyed _ env id =>
      refine served_of_keepsSessions h _ hh (fun _ hid => ?_)
      rw [Device.withEphemeral_sessions]
      exact hid
  | observed _ env raw p d hrec =>
      exact served_of_keepsSessions h d hh (received_keepsSessions _ _ _ _ _ hrec)
  | removed id =>
      intro i hest
      rcases hh i hest with ⟨id', s, hid, hs⟩
      -- The session that is removed is not the one in use.
      have hne : id' ≠ id := fun heq => ha i hest (hid.trans (congrArg some heq))
      exact ⟨id', s, hid, (Dict.get?_pop_ne _ hne).trans hs⟩
  | initiated i env id st hidle hst =>
      intro j hest
      by_cases hj : j = i
      · subst hj
        rw [Host.put_protocols_self] at hest
        rcases hst with rfl | rfl <;> simp only [reduceCtorEq] at hest
      · rw [Host.put_protocols_ne _ _ hj] at hest ⊢
        simp only [Host.put_device, Device.withEphemeral_sessions]
        exact hh j hest
  | handled i env raw p d r hopen hrec hrun hout =>
      -- Reception removes nothing, so the handler starts from a served protocol.
      have hserved : Endpoint.Served ⟨h.protocols i, d⟩ :=
        served_of_keepsSessions h d hh (received_keepsSessions _ _ _ _ _ hrec) i
      intro j hest
      by_cases hj : j = i
      · subst hj
        rw [Host.put_protocols_self] at hest ⊢
        refine outcome_served env p _ r hserved (fun hset htype hlen => ?_) hout hest
        exact keepsPeer_received h j env raw p d hrec (ha.1 hset) htype hlen
      · rw [Host.put_protocols_ne _ _ hj] at hest ⊢
        rcases hh j hest with ⟨id, s, hid, hs⟩
        have hsome : d.sessions.get? id ≠ none :=
          received_keepsSessions _ _ _ _ _ hrec id (by simp only [hs, ne_eq, reduceCtorEq,
            not_false_eq_true])
        -- Another protocol of the host: only a BYE could take its session.
        have hafter := outcome_serves_others env p _ r id hsome (fun htype hest' => by
          rw [← hid]
          exact (ha.2 p d hrec j hj).1 htype hest' hest) hout
        rcases Option.ne_none_iff_exists'.mp hafter with ⟨t, ht⟩
        exact ⟨id, t, hid, ht⟩

/-- Every key that a session of the second device trusts was trusted under
    the same identifier in the first. -/
def SameKeys (d d' : Device C) : Prop :=
  ∀ id s', d'.sessions.get? id = some s' →
    ∃ s, d.sessions.get? id = some s ∧ s'.peerEd25519Public = s.peerEd25519Public

theorem SameKeys.of_sessions {d d' : Device C} (h : d'.sessions = d.sessions) : SameKeys d d' :=
  fun id s hs => ⟨s, by rw [← h]; exact hs, rfl⟩

/-- Writing a session over one of the same key. -/
theorem SameKeys.set {d d' : Device C} (id : Bytes) (s t : Session)
    (hget : d.sessions.get? id = some s) (h : d'.sessions = d.sessions.set id t)
    (hkey : t.peerEd25519Public = s.peerEd25519Public) : SameKeys d d' := by
  intro id' s' hs'
  rw [h, Dict.get?_set] at hs'
  by_cases heq : id' = id
  · rw [if_pos heq, Option.some.injEq] at hs'
    rw [heq, ← hs']
    exact ⟨s, hget, hkey⟩
  · rw [if_neg heq] at hs'
    exact ⟨s', hs', rfl⟩

/-- Removing a session. -/
theorem SameKeys.pop {d d' : Device C} (id : Bytes)
    (h : d'.sessions = d.sessions.pop id) : SameKeys d d' := by
  intro id' s' hs'
  rw [h] at hs'
  by_cases heq : id' = id
  · rw [heq, Dict.get?_pop_self] at hs'
    simp only [reduceCtorEq] at hs'
  · rw [Dict.get?_pop_ne _ heq] at hs'
    exact ⟨s', hs', rfl⟩

theorem received_sameKeys (d d' : Device C) (env : Env) (raw : Bytes) (p : Packet)
    (hrec : Device.Received d env raw p d') : SameKeys d d' := by
  cases hrec with
  | hello => exact .of_sessions rfl
  | pending => exact .of_sessions rfl
  | session s _ _ hget => exact .set p.senderId s (s.recorded p.sequence) hget rfl rfl

/-- The key that an exchange gives its session. -/
theorem exchanged_key (d : Device C) (id key x : Bytes) (b : Bool) (s : Session)
    (h : d.exchangedSession id key x b = .ok s) : s.peerEd25519Public = key :=
  (Device.exchangedSession_eq_ok d id key x b s h).2.1

/-- Writing the session that a packet installs, or one of the same key. -/
theorem installs_rekeys (p : Packet) (e : Endpoint C) (d : Device C) (id₀ : Bytes)
    (s t : Session) (hinst : e.Installs p id₀ s) (hd : d.sessions = e.device.sessions.set id₀ t)
    (hkey : t.peerEd25519Public = s.peerEd25519Public) (id : Bytes) (s' : Session)
    (hs : d.sessions.get? id = some s') :
    (∃ s, e.device.sessions.get? id = some s ∧ s'.peerEd25519Public = s.peerEd25519Public) ∨
      ∃ s, e.Installs p id s ∧ s'.peerEd25519Public = s.peerEd25519Public := by
  rw [hd, Dict.get?_set] at hs
  by_cases heq : id = id₀
  · rw [if_pos heq, Option.some.injEq] at hs
    rw [heq, ← hs]
    exact Or.inr ⟨s, hinst, hkey⟩
  · rw [if_neg heq] at hs
    exact Or.inl ⟨s', hs, rfl⟩

/-- A handler stores no key but that of the session it installs. -/
theorem outcome_rekeys (env : Env) (p : Packet) (e : Endpoint C)
    (r : EStateM.Result Exn (Endpoint C) (Option Bytes)) (hout : Endpoint.Outcome env p e r)
    (id : Bytes) (s' : Session) (hs : r.final.device.sessions.get? id = some s') :
    (∃ s, e.device.sessions.get? id = some s ∧ s'.peerEd25519Public = s.peerEd25519Public) ∨
      ∃ s, e.Installs p id s ∧ s'.peerEd25519Public = s.peerEd25519Public := by
  cases hout with
  | accepted => exact Or.inl ⟨s', hs, rfl⟩
  | rejected => exact Or.inl ⟨s', hs, rfl⟩
  | error => exact Or.inl ⟨s', hs, rfl⟩
  | bye =>
      left
      simp only [EStateM.Result.final, Endpoint.afterBye] at hs
      by_cases hest : e.proto.state = .established
      · rw [if_pos hest] at hs
        -- At most a session goes, so what is left was there before.
        cases hpeer : e.proto.peerId with
        | none =>
            simp only [hpeer] at hs
            exact ⟨s', hs, rfl⟩
        | some id' =>
            simp only [hpeer] at hs
            have hsame : SameKeys e.device { e.device with
                sessions := e.device.sessions.pop id' } :=
              SameKeys.pop id' rfl
            exact hsame id s' hs
      · rw [if_neg hest] at hs
        exact ⟨s', hs, rfl⟩
  | hello _ htype hout =>
      cases hout with
      | short => exact Or.inl ⟨s', hs, rfl⟩
      | refused => exact Or.inl ⟨s', hs, rfl⟩
      | unexpected => exact Or.inl ⟨s', hs, rfl⟩
      | answered =>
          simp only [EStateM.Result.final, Device.withPending, Device.withEphemeral_sessions] at hs
          exact Or.inl ⟨s', hs, rfl⟩
      | unanswered x d _ _ hdev =>
          have hsame : d.sessions = e.device.sessions := by
            rcases hdev with rfl | rfl <;>
              simp only [Device.withPending, Device.withEphemeral_sessions]
          exact Or.inl (SameKeys.of_sessions hsame id s' hs)
      -- The three paths on which the initiator has its session.
      | halfway s x hlen hstate hex =>
          exact installs_rekeys p e _ _ s s (Or.inl ⟨htype, hstate, hlen, rfl, hex⟩) rfl rfl id s'
            hs
      | exchanged s b hlen hstate hex =>
          exact installs_rekeys p e _ _ s { s with localSequence := s.localSequence + 1 }
            (Or.inl ⟨htype, hstate, hlen, rfl, hex⟩) (installed_advanced_sessions _ _ _ _) rfl
            id s' hs
      | unconfirmed s x hlen hstate hex =>
          exact installs_rekeys p e _ _ s { s with localSequence := s.localSequence + 1 }
            (Or.inl ⟨htype, hstate, hlen, rfl, hex⟩) (installed_advanced_sessions _ _ _ _) rfl
            id s' hs
  | keyExchange _ htype hout =>
      cases hout with
      | refused => exact Or.inl ⟨s', hs, rfl⟩
      | unanswered => exact Or.inl ⟨s', hs, rfl⟩
      | answered => exact Or.inl ⟨s', hs, rfl⟩
      | unexpected => exact Or.inl ⟨s', hs, rfl⟩
      -- The responder stores its session before it checks the packet.
      | halfway id₀ s x hstate hcomp =>
          exact installs_rekeys p e _ id₀ s s (Or.inr ⟨htype, hstate, hcomp⟩) rfl rfl id s' hs
      | stale id₀ s x hstate hcomp =>
          exact installs_rekeys p e _ id₀ s s (Or.inr ⟨htype, hstate, hcomp⟩) rfl rfl id s' hs
      | unconfirmed id₀ s x hstate hcomp =>
          exact installs_rekeys p e _ id₀ s (s.recorded p.sequence) (Or.inr ⟨htype, hstate, hcomp⟩)
            rfl rfl id s' hs
      | established id₀ s _ hstate hcomp _ _ _ hfinal =>
          rw [hfinal] at hs
          exact installs_rekeys p e _ id₀ s
            { s.recorded p.sequence with localSequence := s.localSequence + 1 }
            (Or.inr ⟨htype, hstate, hcomp⟩) (installed_advanced_sessions _ _ _ _) rfl id s' hs

/-- What is stored for the peer of an endpoint that has exchanged keys trusts
    the key which the protocol remembers. -/
def Endpoint.Keyed (e : Endpoint C) : Prop :=
  e.proto.Exchanged → ∀ id s, e.proto.peerId = some id → e.device.sessions.get? id = some s →
    e.proto.peerEd25519Pub = some s.peerEd25519Public

/-- On a device that trusts no new keys an endpoint stays keyed. -/
theorem Endpoint.Keyed.of_sameKeys {pr : Protocol} {d d' : Device C}
    (h : Endpoint.Keyed ⟨pr, d⟩) (hsame : SameKeys d d') : Endpoint.Keyed ⟨pr, d'⟩ := by
  intro hex id s' hid hs'
  rcases hsame id s' hs' with ⟨s, hs, hkey⟩
  rw [hkey]
  exact h hex id s hid hs

/-- A handler leaves the protocol it runs for keyed, given that it does not
    overwrite a settled peer. -/
theorem outcome_keyed (env : Env) (p : Packet) (e : Endpoint C)
    (r : EStateM.Result Exn (Endpoint C) (Option Bytes)) (he : e.Keyed)
    (hkeep : e.proto.Settled → p.ptype = .hello → 64 ≤ p.payload.length →
      (e.proto.metHello p).peer = e.proto.peer)
    (hout : Endpoint.Outcome env p e r) : r.final.Keyed := by
  cases hout with
  | accepted => exact he
  | rejected => exact he
  | error =>
      intro hex
      simp only [EStateM.Result.final, Protocol.Exchanged, reduceCtorEq, or_self] at hex
  | bye =>
      simp only [EStateM.Result.final, Endpoint.afterBye]
      by_cases hest : e.proto.state = .established
      · rw [if_pos hest]
        intro hex
        simp only [Protocol.Exchanged, reduceCtorEq, or_self] at hex
      · rw [if_neg hest]
        exact he
  | hello _ htype hout =>
      intro hex
      cases hout with
      | short => exact he hex
      | answered =>
          simp only [EStateM.Result.final, Protocol.Exchanged, reduceCtorEq, or_self] at hex
      | unanswered _ _ _ h =>
          simp only [EStateM.Result.final, Protocol.Exchanged, Protocol.metHello, h, reduceCtorEq,
            or_self] at hex
      | refused _ _ h =>
          simp only [EStateM.Result.final, Protocol.Exchanged, Protocol.metHello, h, reduceCtorEq,
            or_self] at hex
      | halfway _ _ _ h =>
          simp only [EStateM.Result.final, Protocol.Exchanged, Protocol.metHello, h, reduceCtorEq,
            or_self] at hex
      | unconfirmed _ _ _ h =>
          simp only [EStateM.Result.final, Protocol.Exchanged, Protocol.metHello, h, reduceCtorEq,
            or_self] at hex
      | exchanged s _ _ _ hsess =>
          -- The fields and the session were made from the same HELLO.
          intro id t hid ht
          have heq : p.senderId = id := Option.some.inj hid
          subst heq
          have hself : some { s with localSequence := s.localSequence + 1 } = some t :=
            (Dict.get?_set_self _ _ _).symm.trans ht
          rw [Option.some.injEq] at hself
          rw [← hself]
          exact congrArg some (exchanged_key _ _ _ _ _ s hsess).symm
      | unexpected _ hlen =>
          -- Rejected in a settled state: here the condition is needed.
          have hstate : e.proto.Exchanged := hex
          have hpeer := hkeep hstate.settled htype hlen
          intro id s hid hs
          have hid' : (e.proto.metHello p).peerId = e.proto.peerId := congrArg Prod.fst hpeer
          have hkey : (e.proto.metHello p).peerEd25519Pub = e.proto.peerEd25519Pub :=
            congrArg (fun t => t.2.1) hpeer
          exact hkey.trans (he hstate id s (hid'.symm.trans hid) hs)
  | keyExchange _ _ hout =>
      intro hex
      cases hout with
      | refused => exact he hex
      | unanswered => exact he hex
      | unexpected => exact he hex
      | answered hsent => exact he (Or.inl hsent)
      | halfway _ _ _ h =>
          simp only [EStateM.Result.final, Protocol.Exchanged, h, reduceCtorEq, or_self] at hex
      | stale _ _ _ h =>
          simp only [EStateM.Result.final, Protocol.Exchanged, h, reduceCtorEq, or_self] at hex
      | unconfirmed _ _ _ h =>
          simp only [EStateM.Result.final, Protocol.Exchanged, h, reduceCtorEq, or_self] at hex
      | established id₀ s _ _ hcomp _ _ _ hfinal =>
          -- The session was made from the fields.
          rcases hcomp with ⟨ed, x, hid₀, hed, _, hsess⟩
          rw [hfinal]
          intro id t hid ht
          have heq : id₀ = id := Option.some.inj (hid₀.symm.trans hid)
          subst heq
          have hself := (Dict.get?_set_self _ _ _).symm.trans ht
          rw [Option.some.injEq] at hself
          rw [← hself]
          exact hed.trans (congrArg some (exchanged_key _ _ _ _ _ s hsess).symm)

/-- On a device that trusts no new keys a host stays keyed. -/
theorem keyed_of_sameKeys (h : Host C) (d : Device C) (hh : h.Keyed)
    (hsame : SameKeys h.device d) : Host.Keyed { h with device := d } :=
  fun i => (show Endpoint.Keyed ⟨h.protocols i, h.device⟩ from hh i).of_sameKeys hsame

/-- A permitted step leaves every protocol keyed. -/
theorem step_keyed (h : Host C) (a : Act) (hh : h.Keyed) (ha : h.PeerKept a) :
    (h.step a).Keyed := by
  have hmove := step_moved h a
  generalize h.step a = h' at hmove
  cases hmove with
  | stayed => exact hh
  | drew _ id s hget => exact keyed_of_sameKeys h _ hh (.set id s _ hget rfl rfl)
  | keyed _ env id =>
      exact keyed_of_sameKeys h _ hh (.of_sessions (Device.withEphemeral_sessions _ _ _))
  | observed _ env raw p d hrec =>
      exact keyed_of_sameKeys h d hh (received_sameKeys _ _ _ _ _ hrec)
  | removed id => exact keyed_of_sameKeys h _ hh (.pop id rfl)
  | initiated i env id st hidle hst =>
      intro j hex
      by_cases hj : j = i
      · subst hj
        rw [Host.put_protocols_self] at hex
        rcases hst with rfl | rfl <;>
          simp only [Protocol.Exchanged, reduceCtorEq, or_self] at hex
      · rw [Host.put_protocols_ne _ _ hj] at hex ⊢
        simp only [Host.put_device, Device.withEphemeral_sessions]
        exact hh j hex
  | handled i env raw p d r hopen hrec hrun hout =>
      -- Reception brings no new key, so the handler starts from a keyed host.
      have hkeyed : ∀ j, Endpoint.Keyed ⟨h.protocols j, d⟩ :=
        fun j => Endpoint.Keyed.of_sameKeys (hh j) (received_sameKeys _ _ _ _ _ hrec)
      intro j hex id s' hid hs'
      by_cases hj : j = i
      · subst hj
        rw [Host.put_protocols_self] at hex hid ⊢
        refine outcome_keyed env p _ r (hkeyed j) (fun hset htype hlen => ?_) hout hex id s' hid hs'
        exact keepsPeer_received h j env raw p d hrec (ha.1 hset) htype hlen
      · rw [Host.put_protocols_ne _ _ hj] at hex hid ⊢
        -- Another protocol of the host: its peer's session is as it was, or
        -- was replaced by one that the condition lets through.
        rcases outcome_rekeys env p _ r hout id s' hs' with ⟨s, hs, hkey⟩ | ⟨s, hinst, hkey⟩
        · rw [hkey]
          exact hkeyed j hex id s hid hs
        · rw [hkey]
          exact (ha.2 p d hrec j hj).2 id s hinst hex hid

/-- The machine will not move again. -/
def Protocol.Terminal (pr : Protocol) : Prop := pr.state = .closed ∨ pr.state = .error

/-- A later point of the same protocol: a settled peer stays until the
    machine is done, and a machine that is done stays so. -/
def Protocol.Follows (pr pr' : Protocol) : Prop :=
  (pr.Terminal → pr'.Terminal) ∧
    (pr.Settled → (pr'.Settled ∧ pr'.peer = pr.peer) ∨ pr'.Terminal)

theorem follows_refl (pr : Protocol) : pr.Follows pr :=
  ⟨fun h => h, fun h => Or.inl ⟨h, rfl⟩⟩

theorem follows_trans (pr pr' pr'' : Protocol) (h : pr.Follows pr') (h' : pr'.Follows pr'') :
    pr.Follows pr'' := by
  refine ⟨fun ht => h'.1 (h.1 ht), fun hs => ?_⟩
  rcases h.2 hs with ⟨hs', hpeer⟩ | ht
  · rcases h'.2 hs' with ⟨hs'', hpeer'⟩ | ht'
    · exact Or.inl ⟨hs'', hpeer'.trans hpeer⟩
    · exact Or.inr ht'
  · exact Or.inr (h'.1 ht)

/-- A settled protocol cannot be done. -/
theorem settled_not_terminal (pr : Protocol) (h : pr.Settled) : ¬ pr.Terminal := by
  rcases h with h | h | h <;> simp only [Protocol.Terminal, h, reduceCtorEq, or_self,
    not_false_eq_true]

/-- A handler that keeps the peer fields and moves to a settled or terminal
    state, or does not move, is followed. -/
theorem follows_of_peer (pr pr' : Protocol) (hopen : ¬ pr.Terminal) (hpeer : pr'.peer = pr.peer)
    (hstate : pr'.state = pr.state ∨ pr'.Settled ∨ pr'.Terminal) : pr.Follows pr' := by
  refine ⟨fun ht => absurd ht hopen, fun hs => ?_⟩
  rcases hstate with hsame | hset | hterm
  · left
    refine ⟨?_, hpeer⟩
    -- The state did not change, so it is as settled as before.
    unfold Protocol.Settled at hs ⊢
    rw [hsame]
    exact hs
  · exact Or.inl ⟨hset, hpeer⟩
  · exact Or.inr hterm

/-- The states a packet other than a HELLO leads to. -/
theorem outcome_state (env : Env) (p : Packet) (e : Endpoint C)
    (r : EStateM.Result Exn (Endpoint C) (Option Bytes)) (htype : p.ptype ≠ .hello)
    (hout : Endpoint.Outcome env p e r) :
    r.final.proto.state = e.proto.state ∨ r.final.proto.Settled ∨ r.final.proto.Terminal := by
  -- Of the handlers BYE, ERROR and KEY_EXCHANGE write the state.
  cases hout with
  | hello _ h => exact absurd h htype
  | accepted => exact Or.inl rfl
  | rejected => exact Or.inl rfl
  | error => exact Or.inr (Or.inr (Or.inr rfl))
  | bye =>
      simp only [EStateM.Result.final, Endpoint.afterBye]
      by_cases hest : e.proto.state = .established
      · rw [if_pos hest]
        exact Or.inr (Or.inr (Or.inl rfl))
      · rw [if_neg hest]
        exact Or.inl rfl
  | keyExchange _ _ hout =>
      cases hout with
      | established id s _ _ _ _ _ _ hfinal =>
          rw [hfinal]
          exact Or.inr (Or.inl (Or.inr (Or.inr rfl)))
      | answered => exact Or.inr (Or.inl (Or.inr (Or.inr rfl)))
      | refused => exact Or.inl rfl
      | halfway => exact Or.inl rfl
      | stale => exact Or.inl rfl
      | unconfirmed => exact Or.inl rfl
      | unanswered => exact Or.inl rfl
      | unexpected => exact Or.inl rfl

/-- A permitted step is followed by every protocol of the host. -/
theorem step_settled (h : Host C) (a : Act) (i : Nat) (ha : h.PeerKept a) :
    (h.protocols i).Follows ((h.step a).protocols i) := by
  have hmove := step_moved h a
  generalize h.step a = h' at hmove
  cases hmove with
  | stayed => exact follows_refl _
  | drew => exact follows_refl _
  | keyed => exact follows_refl _
  | observed => exact follows_refl _
  | removed => exact follows_refl _
  | initiated j env id st hidle hst =>
      by_cases hj : i = j
      · subst hj
        -- Only an idle machine initiates, and an idle one has no peer to keep.
        refine ⟨fun ht => ?_, fun hs => ?_⟩
        · simp only [Protocol.Terminal, hidle, reduceCtorEq, or_self] at ht
        · simp only [Protocol.Settled, hidle, reduceCtorEq, or_self] at hs
      · rw [Host.put_protocols_ne _ _ hj]
        exact follows_refl _
  | handled j env raw p d r hopen hrec hrun hout =>
      by_cases hj : i = j
      · subst hj
        rw [Host.put_protocols_self]
        by_cases htype : p.ptype = .hello
        · -- A HELLO: the condition of the step says that it repeats the fields.
          refine ⟨fun ht => absurd ht (not_or.mpr hopen), fun hs => Or.inl ?_⟩
          cases hout with
          | hello _ _ hout =>
              rcases hello_settled env p _ _ hs hout with ⟨_, x, rfl⟩ | ⟨hlen, x, rfl⟩
              · exact ⟨hs, rfl⟩
              · exact ⟨hs, keepsPeer_received h i env raw p d hrec (ha.1 hs) htype hlen⟩
          | keyExchange _ h => simp only [htype, reduceCtorEq] at h
          | accepted h => simp only [htype, reduceCtorEq, or_self] at h
          | rejected _ h => exact absurd htype h.1
          | bye h => simp only [htype, reduceCtorEq] at h
          | error h => simp only [htype, reduceCtorEq] at h
        · exact follows_of_peer _ _ (not_or.mpr hopen) (outcome_peer env p _ r htype hout)
            (outcome_state env p _ r htype hout)
      · rw [Host.put_protocols_ne _ _ hj]
        exact follows_refl _

theorem create_keyed (C : Primitives) (priv : Bytes) : (Host.create C priv).Keyed := by
  intro i h
  simp only [Host.create, Protocol.Exchanged, reduceCtorEq, or_self] at h

theorem create_served (C : Primitives) (priv : Bytes) : (Host.create C priv).Served := by
  intro i h
  simp only [Host.create, reduceCtorEq] at h

/-- In every run whose steps overwrite no settled peer, remove no session that
    another established protocol uses and store none of another key for the
    peer of a protocol: a raising call keeps the peer fields exactly when its
    bytes do not overwrite them; a settled peer is the same at every later
    settled point; and an established protocol has a session for its peer,
    which trusts the key of that peer and under which its messages are
    sealed. -/
theorem peer_stable (C : Primitives) (priv : Bytes) (acts later : List Act) (i : Nat)
    (h h' : Host C) (hh : h = acts.foldl Host.step (Host.create C priv))
    (hh' : h' = later.foldl Host.step h)
    (hrun : Along Host.step Host.PeerKept (Host.create C priv) (acts ++ later)) :
    ((h.protocols i).Settled → ∀ env raw,
      (∀ x e', h.incoming i env raw = .error x e' → e'.proto.peer = (h.protocols i).peer) ↔
        h.KeepsPeer i env raw) ∧
    ((h.protocols i).Settled → (h'.protocols i).Settled →
      (h'.protocols i).peer = (h.protocols i).peer) ∧
    ((h.protocols i).state = .established →
      ∃ id s, (h.protocols i).peerId = some id ∧ h.device.sessions.get? id = some s ∧
        (h.protocols i).peerEd25519Pub = some s.peerEd25519Public ∧
        ∀ env plaintext b e', (Endpoint.sendData env plaintext).run (h.endpoint i) = .ok b e' →
          ∃ p : Packet, p.toBytes = .ok b ∧ p.ptype = .data ∧ p.recipientId = id ∧
            p.payload = C.aesGcmEncrypt s.sessionKey env.nonce plaintext) := by
  rw [along_append, ← hh] at hrun
  refine ⟨fun hset env raw => incoming_keeps_peer h i env raw hset, fun hset hset' => ?_,
    fun hest => ?_⟩
  · -- The peer fields: relate the two points of the run.
    have hfollows := along_related (fun _ => True)
      (fun g g' : Host C => (g.protocols i).Follows (g'.protocols i)) (fun _ => follows_refl _)
      (fun _ _ _ => follows_trans _ _ _)
      (fun g a _ ha => ⟨trivial, step_settled g a i ha⟩) h later trivial hrun.2
    rw [← hh'] at hfollows
    rcases hfollows.2 hset with ⟨_, hpeer⟩ | hterm
    · exact hpeer
    · exact absurd hterm (settled_not_terminal _ hset')
  · -- The session and its key: invariants of the run up to here.
    have hserved := along_invariant Host.Served step_served _ acts (create_served C priv) hrun.1
    have hkeyed := along_invariant Host.Keyed step_keyed _ acts (create_keyed C priv) hrun.1
    rw [← hh] at hserved hkeyed
    rcases hserved i hest with ⟨id, s, hid, hs⟩
    refine ⟨id, s, hid, hs, hkeyed i (Or.inr hest) id s hid hs,
      fun env plaintext b e' hsend => ?_⟩
    rcases sendData_eq_ok env plaintext b _ e' hsend with ⟨id', s', p, hid', hs', hseal, hb⟩
    -- The message was sealed under the session that was found.
    have heq : id' = id := Option.some.inj (hid'.symm.trans hid)
    subst heq
    have hss : s' = s := Option.some.inj (hs'.symm.trans hs)
    subst hss
    exact ⟨p, hb, hseal.ptype, hseal.recipientId, hseal.payload⟩

/-- Whatever session the packet makes the first protocol store, it is not for
    the peer of the second one or carries the key of that peer. -/
def Host.Tallies (h : Host C) (i j : Nat) (p : Packet) : Prop :=
  (h.protocols j).Exchanged →
    ((h.protocols i).state = .helloSent → (h.protocols j).peerId = some p.senderId →
      (h.protocols j).peerEd25519Pub = some (p.payload.take 32)) ∧
    ((h.protocols i).state = .helloReceived → (h.protocols j).peerId = (h.protocols i).peerId →
      (h.protocols j).peerEd25519Pub = (h.protocols i).peerEd25519Pub)

instance (h : Host C) (i j : Nat) (p : Packet) : Decidable (h.Tallies i j p) :=
  inferInstanceAs (Decidable (_ → (_ → _ → _) ∧ (_ → _ → _)))

/-- Only the first protocols are used, no BYE arrives, no session is removed,
    and what is stored tallies with the peers there are: a case of `PeerKept`
    that can be evaluated. -/
def Host.QuietlyKept (n : Nat) (h : Host C) : Act → Prop
  | .initiate i _ _ => i < n
  | .processIncoming i env raw =>
    i < n ∧ ((h.protocols i).Settled → h.KeepsPeer i env raw) ∧
      ∀ p, Packet.fromBytes env.parseMs raw = .ok p →
        p.ptype ≠ .bye ∧ ∀ j < n, j ≠ i → h.Tallies i j p
  | .removeSession _ => False
  | _ => True

instance (n : Nat) (h : Host C) : ∀ a, Decidable (h.QuietlyKept n a)
  | .initiate i _ _ => inferInstanceAs (Decidable (i < n))
  | .processIncoming i env raw =>
    have := decidableForallOk (Packet.fromBytes env.parseMs raw)
      (fun p => p.ptype ≠ .bye ∧ ∀ j < n, j ≠ i → h.Tallies i j p)
    inferInstanceAs (Decidable (i < n ∧ ((h.protocols i).Settled → h.KeepsPeer i env raw) ∧ _))
  | .removeSession _ => .isFalse id
  | .sendData .. | .receiveData .. | .receivePacket .. | .build .. => .isTrue trivial

/-- Beyond the first protocols none has exchanged keys. -/
def Host.IdleFrom (n : Nat) (h : Host C) : Prop := ∀ j, n ≤ j → ¬ (h.protocols j).Exchanged

/-- A quiet step is permitted, as long as the other protocols are idle. -/
theorem quietlyKept_peerKept (n : Nat) (h : Host C) (a : Act) (hidle : h.IdleFrom n)
    (ha : h.QuietlyKept n a) : h.PeerKept a := by
  cases a with
  | processIncoming i env raw =>
      refine ⟨ha.2.1, fun p d hrec j hj => ?_⟩
      rcases ha.2.2 p (Device.received_parse _ _ _ _ _ hrec) with ⟨hbye, htallies⟩
      refine ⟨fun h => absurd h hbye, fun id s hinst hex hid => ?_⟩
      -- Beyond the first protocols there is no peer to keep.
      have hjn : j < n := not_le.mp (fun hle => hidle j hle hex)
      rcases hinst with ⟨_, hstate, _, rfl, hsess⟩ | ⟨_, hstate, ed, x, hid', hed, _, hsess⟩
      · rw [exchanged_key _ _ _ _ _ s hsess]
        exact (htallies j hjn hj hex).1 hstate hid
      · rw [exchanged_key _ _ _ _ _ s hsess, ← hed]
        exact (htallies j hjn hj hex).2 hstate (hid.trans hid'.symm)
  | removeSession => exact ha.elim
  | initiate => trivial
  | sendData => trivial
  | receiveData => trivial
  | receivePacket => trivial
  | build => trivial

/-- A quiet step leaves the other protocols idle. -/
theorem step_idleFrom (n : Nat) (h : Host C) (a : Act) (hidle : h.IdleFrom n)
    (ha : h.QuietlyKept n a) : (h.step a).IdleFrom n := by
  intro j hj
  have hput : ∀ i (e : Endpoint C), i < n → ¬ ((h.put i e).protocols j).Exchanged := by
    intro i e hi
    rw [Host.put_protocols_ne _ _ (by omega)]
    exact hidle j hj
  cases a with
  | initiate i => exact hput i _ ha
  | processIncoming i => exact hput i _ ha.1
  | sendData i env plaintext =>
      -- Sending moves no protocol, whichever it is.
      rcases Endpoint.sendData_final env plaintext (h.endpoint i) with hf | ⟨id, s, _, hf⟩
      · rw [Host.step, hf, Host.put_self]
        exact hidle j hj
      · rw [Host.step, hf]
        exact Host.put_same h i _ ▸ hidle j hj
  | receiveData i env raw =>
      rcases Endpoint.receiveData_final env raw (h.endpoint i) with hf | ⟨p, d, _, hf⟩
      · rw [Host.step, hf, Host.put_self]
        exact hidle j hj
      · rw [Host.step, hf]
        exact Host.put_same h i _ ▸ hidle j hj
  | receivePacket => exact hidle j hj
  | build => exact hidle j hj
  | removeSession => exact ha.elim

/-- A quiet run of a new host is permitted. -/
theorem along_quietlyKept (n : Nat) (priv : Bytes) (acts : List Act)
    (hrun : Along Host.step (Host.QuietlyKept n) (Host.create C priv) acts) :
    Along Host.step Host.PeerKept (Host.create C priv) acts := by
  refine along_mono_of (Host.IdleFrom n) (step_idleFrom n) (quietlyKept_peerKept n) _ acts ?_ hrun
  intro j _ hex
  simp only [Host.create, Protocol.Exchanged, reduceCtorEq, or_self] at hex

/-- Two handshakes on one device and a message between them: the peer of the
    first protocol is the one that was dialled, at the end as well, and its
    session trusts that peer's key. -/
theorem peer_stable_over_message :
    let bob := Host.create toyPrimitives [7]
    let alice := Host.create toyPrimitives [1]
    let carol := Host.create toyPrimitives [2]
    ∃ h later h', h = (toyInitiation bob alice 0 0).foldl Host.step bob ∧
      later = Act.sendData 0 toyEnv [42] :: toyInitiation h carol 1 0 ∧
      h' = later.foldl Host.step h ∧
      (h.protocols 0).peer = (some alice.device.deviceId, some alice.device.identityPublicBytes,
        some (toyPrimitives.x25519Public [5])) ∧
      (h'.protocols 1).peerId = some carol.device.deviceId ∧
      (h'.protocols 0).peer = (h.protocols 0).peer ∧
      ∃ s, h'.device.sessions.get? alice.device.deviceId = some s ∧
        s.peerEd25519Public = alice.device.identityPublicBytes := by
  have hrun : let bob := Host.create toyPrimitives [7]
      let alice := Host.create toyPrimitives [1]
      let carol := Host.create toyPrimitives [2]
      ∃ h later h', h = (toyInitiation bob alice 0 0).foldl Host.step bob ∧
        later = Act.sendData 0 toyEnv [42] :: toyInitiation h carol 1 0 ∧
        h' = later.foldl Host.step h ∧
        (h.protocols 0).peer = (some alice.device.deviceId, some alice.device.identityPublicBytes,
          some (toyPrimitives.x25519Public [5])) ∧
        (h'.protocols 1).peerId = some carol.device.deviceId ∧
        Along Host.step (Host.QuietlyKept 2) bob (toyInitiation bob alice 0 0 ++ later) ∧
        (h.protocols 0).Settled ∧ (h'.protocols 0).state = .established :=
    ⟨_, _, _, rfl, rfl, rfl, by decide +kernel⟩
  -- From here on the hosts count only as ends of the two runs.
  rcases hrun with ⟨h, later, h', hh, hlater, hh', hpeer, hcarol, hkept, hset, hest⟩
  have hperm := along_quietlyKept 2 [7] _ hkept
  have hsame := (peer_stable toyPrimitives [7] _ later 0 h h' hh hh' hperm).2.1 hset
    (Or.inr (Or.inr hest))
  have hend := hh'
  rw [hh, ← List.foldl_append] at hend
  rw [← List.append_nil (_ ++ later)] at hperm
  rcases (peer_stable toyPrimitives [7] _ [] 0 h' h' hend rfl hperm).2.2 hest with
    ⟨id, s, hid, hs, hkey, _⟩
  -- The fields name Alice, so the session is hers.
  have hfields := hsame.trans hpeer
  simp only [Protocol.peer, hid, hkey, Prod.mk.injEq, Option.some.injEq] at hfields
  rw [hfields.1] at hs
  exact ⟨h, later, h', hh, hlater, hh', hpeer, hcarol, hsame, s, hs, hfields.2.1⟩

/-- A HELLO of a third party reaches an established protocol: the call
    raises, and the peer is now the third party. -/
theorem late_hello_replaces_peer :
    let bob := Host.create toyPrimitives [7]
    let alice := Host.create toyPrimitives [1]
    let mallory := Host.create toyPrimitives [2]
    let h := (toyInitiation bob alice 0 0).foldl Host.step bob
    (h.protocols 0).state = .established ∧
      ¬ ∀ x e', h.incoming 0 toyEnv (toyHello mallory bob.device.deviceId) = .error x e' →
        e'.proto.peer = (h.protocols 0).peer := by
  have hrun : let bob := Host.create toyPrimitives [7]
      let alice := Host.create toyPrimitives [1]
      let mallory := Host.create toyPrimitives [2]
      let h := (toyInitiation bob alice 0 0).foldl Host.step bob
      (h.protocols 0).state = .established ∧
        ¬ h.KeepsPeer 0 toyEnv (toyHello mallory bob.device.deviceId) := by
    decide +kernel
  rcases hrun with ⟨hest, hover⟩
  refine ⟨hest, fun hkeep => hover ?_⟩
  -- By the equivalence it is enough that the bytes overwrite the fields.
  exact (incoming_keeps_peer _ 0 toyEnv _ (Or.inr (Or.inr hest))).mp hkeep

/-- A second protocol dials the peer of an established one and is answered by
    a HELLO under that identifier which somebody else signed: the established
    protocol keeps its fields, and the session it sends under is the other's. -/
theorem second_dial_rekeys :
    let bob := Host.create toyPrimitives [7]
    let alice := Host.create toyPrimitives [1]
    let h := (toyInitiation bob alice 0 0).foldl Host.step bob
    ∃ raw, selfSignedHello toyPrimitives toyEnv [2] alice.device.deviceId
        (toyPrimitives.x25519Public [3]) = .ok raw ∧
      let h' := [Act.initiate 1 toyEnv alice.device.deviceId, .processIncoming 1 toyEnv raw].foldl
        Host.step h
      h'.protocols 0 = h.protocols 0 ∧ (h'.protocols 0).state = .established ∧
        (h'.protocols 0).peerEd25519Pub = some alice.device.identityPublicBytes ∧
        ∃ s, h'.device.sessions.get? alice.device.deviceId = some s ∧
          s.peerEd25519Public = toyPrimitives.ed25519Public [2] := by
  have hrun : let bob := Host.create toyPrimitives [7]
      let alice := Host.create toyPrimitives [1]
      let h := (toyInitiation bob alice 0 0).foldl Host.step bob
      ∃ raw ∈ (selfSignedHello toyPrimitives toyEnv [2] alice.device.deviceId
          (toyPrimitives.x25519Public [3])).toOption,
        let h' := [Act.initiate 1 toyEnv alice.device.deviceId, .processIncoming 1 toyEnv raw].foldl
          Host.step h
        h'.protocols 0 = h.protocols 0 ∧ (h'.protocols 0).state = .established ∧
          (h'.protocols 0).peerEd25519Pub = some alice.device.identityPublicBytes ∧
          ∃ s ∈ h'.device.sessions.get? alice.device.deviceId,
            s.peerEd25519Public = toyPrimitives.ed25519Public [2] := by
    decide +kernel
  rcases hrun with ⟨raw, hraw, hrest⟩
  cases hsign : selfSignedHello toyPrimitives toyEnv [2]
      (Host.create toyPrimitives [1]).device.deviceId (toyPrimitives.x25519Public [3]) with
  | error x =>
      rw [hsign] at hraw
      exact absurd hraw (Option.not_mem_none raw)
  | ok raw' =>
      rw [hsign] at hraw
      have heq : raw' = raw := Option.some.inj hraw
      exact ⟨raw, heq ▸ hsign, hrest⟩

end Ztlnp
