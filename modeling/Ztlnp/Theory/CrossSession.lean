import Ztlnp.Theory.Misdelivery

/-!
# Replay Across Sessions

When no packet is ever acted on twice, over the whole life of a device.

A session remembers the numbers it has accepted for as long as it lives. What
it remembers is lost in two ways: when a handshake puts a new session in its
place, and when the session is removed and the peer is known only by a
pending key, under which nothing is recorded at all. Packets stay valid
across both, because they are authenticated by keys that outlive the session
and because most handlers do not decrypt.

A host is therefore run together with two records that only the proof sees:
the packets that `process_incoming` has returned from normally, and the
clock. The conditions on a step are that the clock does not run back, that a
session is installed only once the packets of that peer that were acted on
have gone stale, and that nothing but a KEY_EXCHANGE is acted on under a
pending key.

## Main definitions

* `Env.earliest`: The earliest clock reading of a call.
* `Stale`: A packet is too old for the replay check.
* `Host.delivered`: The packet that an act was returned from normally.
* `Tracked`, `Tracked.step`: A host with its record.
* `Host.Installs`: The act stores a new session.
* `Host.Unrecorded`: The act is carried out under a pending key.
* `Tracked.Fresh`: The conditions on a step.
* `Tracked.Recorded`: Whatever was acted on is remembered or stale.

## Theorems

* `outcome_remembers`: A handler forgets nothing, except by a new session.
* `returned_admitted`: A packet is acted on only after a replay check.
* `returned_recorded`: A packet that was acted on is remembered.
* `replay_raises`: A packet that was acted on before is refused.
* `no_replay_across_sessions`: In a run of permitted steps every packet is
  acted on at most once.
* `bye_replayed_across_sessions`: Without the conditions, a BYE of one session
  closes the next.
-/

namespace Ztlnp

variable {C : Primitives}

/-- The earliest clock reading of a call. -/
def Env.earliest (env : Env) : Nat :=
  min (min env.parseMs env.receiveMs) (min env.confirmMs env.buildMs)

/-- The sender field of a packet on the wire. -/
def wireSender (raw : Bytes) : Bytes := field raw 8 32

/-- The sequence number of a packet on the wire. -/
def wireSequence (raw : Bytes) : Nat := beDecode (field raw 80 4)

/-- The type of a packet on the wire. -/
def wireType (raw : Bytes) : Except Exn PacketType := PacketType.ofCode (beDecode (field raw 5 1))

/-- The timestamp of a packet on the wire. -/
def wireTimestamp (raw : Bytes) : Nat := beDecode (field raw 72 8)

/-- The packet carries a time, and it is too old for the replay check. -/
def Stale (nowMs : Nat) (raw : Bytes) : Prop :=
  wireTimestamp raw ≠ 0 ∧ wireTimestamp raw + maxClockSkewMs < nowMs

namespace Host

/-- The packet, other than a HELLO, that an act was returned from normally. -/
def delivered (h : Host C) : Act → List Bytes
  | .processIncoming i env raw =>
    match Packet.fromBytes env.parseMs raw, (h.incoming i env raw).returned with
    | .ok p, some _ => if p.ptype = .hello then [] else [raw]
    | _, _ => []
  | _ => []

/-- The bytes make the protocol store a new session for a peer: a HELLO that
    answers an initiator, or a KEY_EXCHANGE that reaches a responder. -/
def Installs (h : Host C) (i : Nat) (env : Env) (raw id : Bytes) : Prop :=
  ∃ p d, Device.Received h.device env raw p d ∧
    ((p.ptype = .hello ∧ (h.protocols i).state = .helloSent ∧ 64 ≤ p.payload.length ∧
        p.senderId = id ∧ ∃ s, h.device.exchangedSession id (p.payload.take 32)
          (field p.payload 32 32) true = .ok s) ∨
      (p.ptype = .keyExchange ∧ (h.protocols i).state = .helloReceived ∧
        ∃ s, (h.endpoint i).Completes id s))

/-- The bytes are acted on under a pending key, by a handler that records
    nothing. -/
def Unrecorded (h : Host C) (i : Nat) (env : Env) (raw : Bytes) : Prop :=
  ∃ p d, Device.Received h.device env raw p d ∧ p.ptype ≠ .hello ∧
    h.device.sessions.get? p.senderId = none ∧ ¬ (h.protocols i).Terminal ∧
    (p.ptype = .bye ∨ p.ptype = .error ∨
      ((p.ptype = .data ∨ p.ptype = .ack) ∧ (h.protocols i).state = .established))

end Host

/-- A host with the packets that were acted on and the clock. -/
structure Tracked (C : Primitives) where
  host : Host C
  log : List Bytes
  clock : Nat

namespace Tracked

/-- A new host, with nothing recorded. -/
def create (C : Primitives) (priv : Bytes) : Tracked C := ⟨Host.create C priv, [], 0⟩

/-- One act, recorded. -/
def step (t : Tracked C) (a : Act) : Tracked C where
  host := t.host.step a
  log := t.host.delivered a ++ t.log
  clock := match a with
    | .processIncoming _ env _ => env.earliest
    | _ => t.clock

/-- The clock does not run back, a new session finds the peer's packets
    stale, and nothing is acted on without being recorded. -/
def Fresh (t : Tracked C) : Act → Prop
  | .processIncoming i env raw =>
    t.clock ≤ env.earliest ∧
      (∀ id, t.host.Installs i env raw id → ∀ old ∈ t.log, wireSender old = id →
        Stale env.earliest old) ∧
      ¬ t.host.Unrecorded i env raw
  | _ => True

/-- Whatever was acted on is remembered by the sender's session, if there is
    one, or stale. -/
def Recorded (t : Tracked C) : Prop :=
  ∀ raw ∈ t.log, ∀ s, t.host.device.sessions.get? (wireSender raw) = some s →
    s.window.Seen replayWindow (wireSequence raw) ∨ Stale t.clock raw

end Tracked

/-- Every session of the new device remembers what the old one under the same
    identifier did, except under the identifiers in `New`. -/
def Remembers (d d' : Device C) (New : Bytes → Prop) : Prop :=
  ∀ id s', d'.sessions.get? id = some s' → New id ∨
    ∃ s, d.sessions.get? id = some s ∧
      ∀ n, s.window.Seen replayWindow n → s'.window.Seen replayWindow n

theorem remembers_refl (d : Device C) (New : Bytes → Prop) : Remembers d d New :=
  fun _ s' h => Or.inr ⟨s', h, fun _ hn => hn⟩

theorem remembers_trans (d d' d'' : Device C) (New : Bytes → Prop)
    (h : Remembers d d' New) (h' : Remembers d' d'' New) : Remembers d d'' New := by
  intro id s'' hs''
  rcases h' id s'' hs'' with hnew | ⟨s', hs', hseen'⟩
  · exact Or.inl hnew
  · rcases h id s' hs' with hnew | ⟨s, hs, hseen⟩
    · exact Or.inl hnew
    · exact Or.inr ⟨s, hs, fun n hn => hseen' n (hseen n hn)⟩

/-- Writing one session remembers, if that session does. -/
theorem remembers_set (d d' : Device C) (id : Bytes) (s' : Session) (New : Bytes → Prop)
    (hsess : d'.sessions = d.sessions.set id s')
    (hs : New id ∨ ∃ s, d.sessions.get? id = some s ∧
      ∀ n, s.window.Seen replayWindow n → s'.window.Seen replayWindow n) :
    Remembers d d' New := by
  intro id' t ht
  rw [hsess, Dict.get?_set] at ht
  -- Under any other identifier the session is the old one.
  by_cases heq : id' = id
  · rw [if_pos heq, Option.some.injEq] at ht
    rw [heq, ← ht]
    exact hs
  · rw [if_neg heq] at ht
    exact Or.inr ⟨t, ht, fun _ hn => hn⟩

theorem remembers_pop (d d' : Device C) (id : Bytes) (New : Bytes → Prop)
    (hsess : d'.sessions = d.sessions.pop id) : Remembers d d' New := by
  intro id' t ht
  rw [hsess, Dict.get?_pop] at ht
  by_cases heq : id' = id
  · rw [if_pos heq] at ht
    simp only [reduceCtorEq] at ht
  · rw [if_neg heq] at ht
    exact Or.inr ⟨t, ht, fun _ hn => hn⟩

theorem received_remembers (d d' : Device C) (env : Env) (raw : Bytes) (p : Packet)
    (New : Bytes → Prop) (hrec : Device.Received d env raw p d') : Remembers d d' New := by
  cases hrec with
  | hello => exact remembers_refl d New
  | pending => exact remembers_refl d New
  | session s _ _ hget =>
      refine remembers_set d _ p.senderId _ New rfl (Or.inr ⟨s, hget, fun n hn => ?_⟩)
      rw [Session.recorded_window]
      exact SeqWindow.seen_record replayWindow p.sequence hn

/-- Drawing a number does not touch what a session remembers. -/
theorem advanced_remembers (d : Device C) (id : Bytes) (s : Session) (New : Bytes → Prop)
    (hs : New id ∨ d.sessions.get? id = some s) : Remembers d (d.advanced id s) New :=
  remembers_set d _ id _ New rfl (hs.imp (fun h => h) (fun h => ⟨s, h, fun _ hn => hn⟩))

theorem installed_remembers (d : Device C) (id : Bytes) (s : Session) (New : Bytes → Prop)
    (hnew : New id) : Remembers d (d.installed id s) New :=
  remembers_set d _ id s New rfl (Or.inl hnew)

/-- A handler forgets nothing, except by storing a new session. -/
theorem outcome_remembers (env : Env) (p : Packet) (e : Endpoint C)
    (r : EStateM.Result Exn (Endpoint C) (Option Bytes)) (New : Bytes → Prop)
    (hhello : p.ptype = .hello → e.proto.state = .helloSent → 64 ≤ p.payload.length →
      (∃ s, e.device.exchangedSession p.senderId (p.payload.take 32) (field p.payload 32 32) true
        = .ok s) → New p.senderId)
    (hkex : p.ptype = .keyExchange → e.proto.state = .helloReceived →
      ∀ id s, e.Completes id s → New id)
    (hout : Endpoint.Outcome env p e r) : Remembers e.device r.final.device New := by
  cases hout with
  | accepted => exact remembers_refl _ _
  | rejected => exact remembers_refl _ _
  | error => exact remembers_refl _ _
  -- A BYE removes a session, and a session that is gone has nothing to remember.
  | bye =>
      simp only [EStateM.Result.final, Endpoint.afterBye]
      by_cases hest : e.proto.state = .established
      · rw [if_pos hest]
        cases e.proto.peerId with
        | none => exact remembers_refl _ _
        | some id => exact remembers_pop _ _ id _ rfl
      · rw [if_neg hest]
        exact remembers_refl _ _
  | hello _ htype hout =>
      cases hout with
      | short => exact remembers_refl _ _
      | refused => exact remembers_refl _ _
      | unexpected => exact remembers_refl _ _
      | answered =>
          intro id s hs
          simp only [EStateM.Result.final, Device.withPending, Device.withEphemeral_sessions] at hs
          exact Or.inr ⟨s, hs, fun _ hn => hn⟩
      | unanswered x d _ _ hdev =>
          intro id s hs
          have hsess : d.sessions = e.device.sessions := by
            rcases hdev with rfl | rfl <;>
              simp only [Device.withPending, Device.withEphemeral_sessions]
          simp only [EStateM.Result.final, hsess] at hs
          exact Or.inr ⟨s, hs, fun _ hn => hn⟩
      | halfway s x hlen hstate hex =>
          exact remembers_set _ _ _ s _ rfl (Or.inl (hhello htype hstate hlen ⟨s, hex⟩))
      -- The new session is stored, and then a number is drawn from it.
      | exchanged s b hlen hstate hex =>
          have hnew := hhello htype hstate hlen ⟨s, hex⟩
          exact remembers_trans _ _ _ _ (installed_remembers _ _ s _ hnew)
            (advanced_remembers _ _ s _ (Or.inl hnew))
      | unconfirmed s x hlen hstate hex =>
          have hnew := hhello htype hstate hlen ⟨s, hex⟩
          exact remembers_trans _ _ _ _ (installed_remembers _ _ s _ hnew)
            (advanced_remembers _ _ s _ (Or.inl hnew))
  | keyExchange _ htype hout =>
      cases hout with
      | refused => exact remembers_refl _ _
      | unanswered => exact remembers_refl _ _
      | answered => exact remembers_refl _ _
      | unexpected => exact remembers_refl _ _
      | halfway id s x hstate hcomp =>
          exact remembers_set _ _ _ s _ rfl (Or.inl (hkex htype hstate id s hcomp))
      | stale id s x hstate hcomp =>
          exact installed_remembers _ id s _ (hkex htype hstate id s hcomp)
      | unconfirmed id s x hstate hcomp =>
          exact installed_remembers _ id _ _ (hkex htype hstate id s hcomp)
      | established id s _ hstate hcomp _ _ _ hfinal =>
          have hnew := hkex htype hstate id s hcomp
          rw [hfinal]
          exact remembers_trans _ _ _ _ (installed_remembers _ id _ _ hnew)
            (advanced_remembers _ id _ _ (Or.inl hnew))

/-- Who a KEY_EXCHANGE that establishes a responder can come from: its peer,
    or a sender that already had a session. -/
theorem established_sender (d : Device C) (id : Bytes) (s : Session) (p : Packet)
    (hplain : (d.installed id s).Decrypts p keyExchangeOk)
    (hnone : d.sessions.get? p.senderId = none) : p.senderId = id := by
  by_contra hne
  rcases hplain with ⟨t, ht, _⟩
  simp only [Device.installed, Dict.get?_set_ne _ _ hne, hnone, reduceCtorEq] at ht

/-- A packet is acted on only after a replay check: that of the sender's
    session, or that of the session it completes. -/
theorem returned_admitted (h : Host C) (i : Nat) (env : Env) (raw : Bytes) (p : Packet)
    (d : Device C) (r : EStateM.Result Exn (Endpoint C) (Option Bytes))
    (hopen : ¬ (h.protocols i).Terminal) (hrec : Device.Received h.device env raw p d)
    (hout : Endpoint.Outcome env p ⟨h.protocols i, d⟩ r) (hret : r.returned ≠ none)
    (htype : p.ptype ≠ .hello) (hpend : ¬ h.Unrecorded i env raw) :
    (∃ s, h.device.sessions.get? p.senderId = some s ∧
      s.Admits env.receiveMs p.sequence p.timestampMs) ∨
    (h.Installs i env raw p.senderId ∧ Session.Timely env.confirmMs p.timestampMs) := by
  have hrec' := hrec
  cases hrec with
  | hello _ ht => exact absurd ht htype
  | session s _ _ hget _ hadmits => exact Or.inl ⟨s, hget, hadmits⟩
  -- Under a pending key reception has checked nothing, so the handler must have: only the one
  -- that completes an exchange does.
  | pending key _ _ hget =>
      have hun : ¬ (p.ptype = .bye ∨ p.ptype = .error ∨
          ((p.ptype = .data ∨ p.ptype = .ack) ∧ (h.protocols i).state = .established)) :=
        fun hbad => hpend ⟨p, h.device, hrec', htype, hget, hopen, hbad⟩
      right
      cases hout with
      | hello _ ht => exact absurd ht htype
      | accepted ht hest => exact absurd (Or.inr (Or.inr ⟨ht, hest⟩)) hun
      | bye ht => exact absurd (Or.inl ht) hun
      | error ht => exact absurd (Or.inr (Or.inl ht)) hun
      | rejected => exact absurd rfl hret
      | keyExchange _ hk hout =>
          cases hout with
          | refused => exact absurd rfl hret
          | halfway => exact absurd rfl hret
          | stale => exact absurd rfl hret
          | unconfirmed => exact absurd rfl hret
          | unanswered => exact absurd rfl hret
          | unexpected => exact absurd rfl hret
          -- The initiator decrypts with a session of the sender, and there is none.
          | answered _ hconf =>
              rcases hconf.2 with ⟨s, hs, _⟩
              rw [hget] at hs
              simp only [reduceCtorEq] at hs
          | established id s _ hstate hcomp _ hadmits hplain =>
              have hid := established_sender h.device id _ p hplain hget
              rw [hid]
              exact ⟨⟨p, h.device, hrec', Or.inr ⟨hk, hstate, s, hcomp⟩⟩, hadmits.1⟩

/-- A packet that was acted on is remembered by the sender's session, if
    there is one afterwards. -/
theorem returned_recorded (h : Host C) (i : Nat) (env : Env) (raw : Bytes) (p : Packet)
    (d : Device C) (r : EStateM.Result Exn (Endpoint C) (Option Bytes))
    (hopen : ¬ (h.protocols i).Terminal) (hrec : Device.Received h.device env raw p d)
    (hout : Endpoint.Outcome env p ⟨h.protocols i, d⟩ r) (hret : r.returned ≠ none)
    (htype : p.ptype ≠ .hello) (hpend : ¬ h.Unrecorded i env raw) (s' : Session)
    (hs' : r.final.device.sessions.get? p.senderId = some s') :
    s'.window.Seen replayWindow p.sequence := by
  have hself : ∀ s : Session, (s.recorded p.sequence).window.Seen replayWindow p.sequence :=
    fun s => SeqWindow.seen_record_self replayWindow s.window p.sequence
  by_cases hnew : p.ptype = .keyExchange ∧ (h.protocols i).state = .helloReceived
  · -- The new session, or the sender's own, has recorded the number.
    cases hout with
    | keyExchange _ hk hout =>
        cases hout with
        | established id s _ hstate hcomp _ hadmits hplain hfinal =>
            rw [hfinal] at hs'
            by_cases hid : p.senderId = id
            · simp only [Device.advanced, hid, Dict.get?_set_self, Option.some.injEq] at hs'
              rw [← hs']
              exact hself s
            · simp only [Device.advanced, Device.installed, Dict.get?_set_ne _ _ hid] at hs'
              cases hrec with
              | hello _ ht => exact absurd ht htype
              | pending key _ _ hget =>
                  exact absurd (established_sender h.device id _ p hplain hget) hid
              | session t _ _ hget =>
                  simp only [Dict.get?_set_self, Option.some.injEq] at hs'
                  rw [← hs']
                  exact hself t
        | refused => exact absurd rfl hret
        | halfway => exact absurd rfl hret
        | stale => exact absurd rfl hret
        | unconfirmed => exact absurd rfl hret
        | unanswered => exact absurd rfl hret
        | unexpected => exact absurd rfl hret
        | answered hstate =>
            have hstate' : (h.protocols i).state = .keyExchangeSent := hstate
            rw [hnew.2] at hstate'
            simp only [reduceCtorEq] at hstate'
    | hello _ ht => exact absurd ht htype
    | accepted ht => simp only [hnew.1, reduceCtorEq, or_self] at ht
    | bye ht => simp only [hnew.1, reduceCtorEq] at ht
    | error ht => simp only [hnew.1, reduceCtorEq] at ht
    | rejected => exact absurd rfl hret
  · -- Reception has recorded the number, and the handler stores no session.
    rcases returned_admitted h i env raw p d r hopen hrec hout hret htype hpend with
      ⟨s, hget, _⟩ | ⟨⟨q, d', hq, hcase⟩, _⟩
    · have hkept := outcome_remembers env p _ r (fun _ => False) (fun ht => absurd ht htype)
        (fun hk hst => absurd ⟨hk, hst⟩ hnew) hout p.senderId s' hs'
      rcases hkept with hfalse | ⟨t, ht, hseen⟩
      · exact hfalse.elim
      · refine hseen _ ?_
        cases hrec with
        | hello _ hello => exact absurd hello htype
        | pending key _ _ hnone => simp only [hnone, reduceCtorEq] at hget
        | session u =>
            simp only [Dict.get?_set_self, Option.some.injEq] at ht
            rw [← ht]
            exact hself u
    · have heq : q = p := by
        have h1 := Device.received_parse _ _ _ _ _ hq
        have h2 := Device.received_parse _ _ _ _ _ hrec
        exact Except.ok.inj (h1.symm.trans h2)
      subst heq
      rcases hcase with ⟨ht, _⟩ | ⟨hk, hst, _⟩
      · exact absurd ht htype
      · exact absurd ⟨hk, hst⟩ hnew

/-- A stale packet fails the time test from then on. -/
theorem not_timely_of_stale (nowMs parseMs later : Nat) (raw : Bytes) (p : Packet)
    (hparse : Packet.fromBytes parseMs raw = .ok p) (hstale : Stale nowMs raw)
    (hle : nowMs ≤ later) : ¬ Session.Timely later p.timestampMs := by
  have htime := (Packet.fromBytes_wire parseMs raw p hparse).2.2.2
  rcases hstale with ⟨hne, hlt⟩
  unfold wireTimestamp at hne hlt
  -- A zero timestamp would have been replaced by the clock; this one is on the wire.
  rw [if_neg hne] at htime
  unfold Session.Timely
  rw [htime]
  omega

/-- A packet that was acted on before is refused. -/
theorem replay_raises (t : Tracked C) (i : Nat) (env : Env) (raw : Bytes) (ht : t.Recorded)
    (hfresh : t.Fresh (.processIncoming i env raw)) (hmem : raw ∈ t.log) (p : Packet)
    (hparse : Packet.fromBytes env.parseMs raw = .ok p) (htype : p.ptype ≠ .hello) :
    (t.host.incoming i env raw).returned = none := by
  by_contra hret
  rcases hfresh with ⟨hclock, hinst, hpend⟩
  rcases Endpoint.processIncoming_cases env raw (t.host.endpoint i) with
    ⟨x, hx⟩ | ⟨hopen, q, d, hrec, hrun⟩
  · rw [Host.incoming, hx] at hret
    exact hret rfl
  · have hout := Endpoint.dispatch_outcome env q { t.host.endpoint i with device := d }
    rw [← hrun] at hout
    have hq := Device.received_parse _ _ _ _ _ hrec
    have heq : q = p := Except.ok.inj (hq.symm.trans hparse)
    subst heq
    rcases Packet.fromBytes_wire env.parseMs raw q hparse with ⟨hsender, hseq, _, _⟩
    have hearly : env.earliest ≤ env.receiveMs ∧ env.earliest ≤ env.confirmMs := by
      unfold Env.earliest
      omega
    rcases returned_admitted t.host i env raw q d _ (not_or.mpr hopen) hrec hout hret htype hpend
      with ⟨s, hget, hadmits⟩ | ⟨hnew, htimely⟩
    · -- There is a session of the sender: it has seen the number, or the packet is too old.
      rw [hsender] at hget
      rcases ht raw hmem s hget with hseen | hstale
      · rw [wireSequence, ← hseq] at hseen
        exact SeqWindow.not_admits_of_seen replayWindow hseen hadmits.2
      · exact not_timely_of_stale _ _ _ raw q hparse hstale (hclock.trans hearly.1) hadmits.1
    · -- The session is new: the packets of the sender have gone stale before it was stored.
      have hstale := hinst q.senderId hnew raw hmem hsender.symm
      exact not_timely_of_stale _ _ _ raw q hparse hstale hearly.2 htimely

/-- What is recorded stays so while sessions remember and the clock advances. -/
theorem recorded_of_remembers (t : Tracked C) (h : Host C) (clock : Nat) (New : Bytes → Prop)
    (ht : t.Recorded) (hclock : t.clock ≤ clock)
    (hnew : ∀ id, New id → ∀ old ∈ t.log, wireSender old = id → Stale clock old)
    (hkeep : Remembers t.host.device h.device New) (old : Bytes) (hold : old ∈ t.log)
    (s : Session) (hs : h.device.sessions.get? (wireSender old) = some s) :
    s.window.Seen replayWindow (wireSequence old) ∨ Stale clock old := by
  -- Either the session is new, or it has seen whatever the old one had.
  rcases hkeep _ s hs with hn | ⟨s₀, hs₀, hseen⟩
  · exact Or.inr (hnew _ hn old hold rfl)
  · rcases ht old hold s₀ hs₀ with h | ⟨hne, hlt⟩
    · exact Or.inl (hseen _ h)
    · exact Or.inr ⟨hne, hlt.trans_le hclock⟩

/-- What an act adds to the record. -/
theorem mem_delivered (h : Host C) (i : Nat) (env : Env) (raw old : Bytes)
    (hmem : old ∈ h.delivered (.processIncoming i env raw)) :
    old = raw ∧ (h.incoming i env raw).returned ≠ none ∧
      ∃ p, Packet.fromBytes env.parseMs raw = .ok p ∧ p.ptype ≠ .hello := by
  simp only [Host.delivered] at hmem
  cases hparse : Packet.fromBytes env.parseMs raw with
  | error x =>
      rw [hparse] at hmem
      simp only [List.not_mem_nil] at hmem
  | ok p =>
      cases hret : (h.incoming i env raw).returned with
      | none =>
          rw [hparse, hret] at hmem
          simp only [List.not_mem_nil] at hmem
      | some b =>
          rw [hparse, hret] at hmem
          simp only at hmem
          -- A HELLO that is taken delivers nothing.
          by_cases htype : p.ptype = .hello
          · rw [if_pos htype] at hmem
            simp only [List.not_mem_nil] at hmem
          · rw [if_neg htype, List.mem_singleton] at hmem
            exact ⟨hmem, by simp only [ne_eq, reduceCtorEq, not_false_eq_true], p, rfl, htype⟩

/-- An act other than `process_incoming` adds nothing to the record. -/
theorem step_log_of_moved (t : Tracked C) (a : Act)
    (h : ∀ i env raw, a ≠ .processIncoming i env raw) :
    (t.step a).log = t.log ∧ (t.step a).clock = t.clock := by
  cases a with
  | processIncoming i env raw => exact absurd rfl (h i env raw)
  | initiate => exact ⟨rfl, rfl⟩
  | sendData => exact ⟨rfl, rfl⟩
  | receiveData => exact ⟨rfl, rfl⟩
  | receivePacket => exact ⟨rfl, rfl⟩
  | build => exact ⟨rfl, rfl⟩
  | removeSession => exact ⟨rfl, rfl⟩

/-- Apart from the handlers, no act forgets anything. -/
theorem moved_remembers (h h' : Host C) (a : Act) (hmove : Moved h a h') :
    (∃ i env raw, a = .processIncoming i env raw) ∨
      Remembers h.device h'.device (fun _ => False) := by
  cases hmove with
  | stayed => exact Or.inr (remembers_refl _ _)
  | drew _ id s hget => exact Or.inr (advanced_remembers _ id s _ (Or.inr hget))
  | keyed _ env id =>
      refine Or.inr fun id' s hs => Or.inr ⟨s, ?_, fun _ hn => hn⟩
      simpa only [Device.withEphemeral_sessions] using hs
  | initiated i env id st =>
      refine Or.inr fun id' s hs => Or.inr ⟨s, ?_, fun _ hn => hn⟩
      simpa only [Host.put_device, Device.withEphemeral_sessions] using hs
  | observed _ env raw p d hrec => exact Or.inr (received_remembers _ _ _ _ _ _ hrec)
  | removed id => exact Or.inr (remembers_pop _ _ id _ rfl)
  | handled i env raw => exact Or.inl ⟨i, env, raw, rfl⟩

/-- `process_incoming` keeps the record, if the step is permitted. -/
theorem incoming_recorded (t : Tracked C) (i : Nat) (env : Env) (raw : Bytes) (ht : t.Recorded)
    (hfresh : t.Fresh (.processIncoming i env raw)) :
    (t.step (.processIncoming i env raw)).Recorded := by
  rcases hfresh with ⟨hclock, hinst, hpend⟩
  have hdev : (t.step (.processIncoming i env raw)).host.device
      = (t.host.incoming i env raw).final.device := rfl
  rcases Endpoint.processIncoming_cases env raw (t.host.endpoint i) with
    ⟨x, hx⟩ | ⟨hopen, p, d, hrec, hrun⟩
  · -- The bytes were refused: nothing is stored and nothing is added.
    have hinc : t.host.incoming i env raw = .error x (t.host.endpoint i) := hx
    intro old hold s hs
    rw [hdev, hinc] at hs
    rcases List.mem_append.mp hold with hnew | hold
    · have := (mem_delivered t.host i env raw old hnew).2.1
      rw [hinc] at this
      exact absurd rfl this
    · exact recorded_of_remembers t t.host env.earliest (fun _ => False) ht hclock
        (fun _ h => h.elim) (remembers_refl _ _) old hold s hs
  · -- The bytes were received: the old entries are kept, and the new one is remembered.
    have hout := Endpoint.dispatch_outcome env p { t.host.endpoint i with device := d }
    rw [← hrun] at hout
    have hframe := received_frame t.host.device d env raw p hrec
    have hkeep : Remembers t.host.device (t.host.incoming i env raw).final.device
        (t.host.Installs i env raw) := by
      refine remembers_trans _ d _ _ (received_remembers _ _ _ _ _ _ hrec)
        (outcome_remembers env p _ _ _ (fun htype hst hlen hex => ?_)
          (fun htype hst id s hcomp => ?_) hout)
      · rcases hex with ⟨s, hex⟩
        refine ⟨p, d, hrec, Or.inl ⟨htype, hst, hlen, rfl, s, ?_⟩⟩
        rw [← hframe.2.2.1]
        exact hex
      · refine ⟨p, d, hrec, Or.inr ⟨htype, hst, s, ?_⟩⟩
        simp only [Endpoint.Completes, hframe.2.2.1] at hcomp
        exact hcomp
    intro old hold s hs
    rw [hdev] at hs
    rcases List.mem_append.mp hold with hnew | hold
    · rcases mem_delivered t.host i env raw old hnew with ⟨rfl, hret, q, hq, htype⟩
      have heq : p = q := Except.ok.inj ((Device.received_parse _ _ _ _ _ hrec).symm.trans hq)
      subst heq
      rcases Packet.fromBytes_wire env.parseMs old p hq with ⟨hsender, hseq, _, _⟩
      rw [wireSender, ← hsender] at hs
      left
      rw [wireSequence, ← hseq]
      exact returned_recorded t.host i env old p d _ (not_or.mpr hopen) hrec hout hret htype hpend
        s hs
    · exact recorded_of_remembers t ((t.step (.processIncoming i env raw)).host) env.earliest _ ht
        hclock hinst hkeep old hold s hs

/-- A permitted step keeps the record and delivers nothing twice. -/
theorem step_recorded (t : Tracked C) (a : Act) (ht : t.Recorded ∧ t.log.Nodup)
    (hfresh : t.Fresh a) : (t.step a).Recorded ∧ (t.step a).log.Nodup := by
  by_cases hproc : ∃ i env raw, a = .processIncoming i env raw
  · rcases hproc with ⟨i, env, raw, rfl⟩
    refine ⟨incoming_recorded t i env raw ht.1 hfresh, ?_⟩
    refine List.Nodup.append ?_ ht.2 (fun old hnew hold => ?_)
    · simp only [Host.delivered]
      split
      · split_ifs
        · exact List.nodup_nil
        · exact List.nodup_singleton raw
      · exact List.nodup_nil
    · -- An entry that is there already would have been refused.
      rcases mem_delivered t.host i env raw old hnew with ⟨rfl, hret, p, hparse, htype⟩
      exact hret (replay_raises t i env old ht.1 hfresh hold p hparse htype)
  · have hmove := step_moved t.host a
    -- Nothing else adds to the record or moves the clock.
    rcases moved_remembers t.host (t.host.step a) a hmove with h | hkeep
    · exact absurd h hproc
    · rcases step_log_of_moved t a (fun i env raw h => hproc ⟨i, env, raw, h⟩) with ⟨hlog, hclk⟩
      rw [hlog]
      refine ⟨fun old hold s hs => ?_, ht.2⟩
      rw [hlog] at hold
      rw [hclk]
      exact recorded_of_remembers t (t.host.step a) t.clock _ ht.1 le_rfl (fun _ h => h.elim) hkeep
        old hold s hs

/-- In every run whose steps are permitted, `process_incoming` returns
    normally at most once from each packet other than a HELLO; in particular
    it refuses a packet, a BYE for one, that was acted on before. -/
theorem no_replay_across_sessions (C : Primitives) (priv : Bytes) (acts : List Act)
    (hrun : Along Tracked.step Tracked.Fresh (Tracked.create C priv) acts) :
    (acts.foldl Tracked.step (Tracked.create C priv)).log.Nodup ∧
    ∀ i env raw, raw ∈ (acts.foldl Tracked.step (Tracked.create C priv)).log →
      (acts.foldl Tracked.step (Tracked.create C priv)).Fresh (.processIncoming i env raw) →
      ∀ p, Packet.fromBytes env.parseMs raw = .ok p → p.ptype ≠ .hello →
      ((acts.foldl Tracked.step (Tracked.create C priv)).host.incoming i env raw).returned
        = none := by
  have hstart : (Tracked.create C priv).Recorded ∧ (Tracked.create C priv).log.Nodup :=
    ⟨fun raw hraw => by simp only [Tracked.create, List.not_mem_nil] at hraw, List.nodup_nil⟩
  -- The invariant is that the record is kept and has no entry twice.
  have hend := along_invariant (fun t : Tracked C => t.Recorded ∧ t.log.Nodup)
    step_recorded _ acts hstart hrun
  exact ⟨hend.2, fun i env raw hmem hfresh p hparse htype =>
    replay_raises _ i env raw hend.1 hfresh hmem p hparse htype⟩

/-- Handshake packets come when all that was acted on is stale, and any other
    packet comes from a peer with a session: a case of `Fresh` that can be
    evaluated. -/
def Tracked.Spaced (t : Tracked C) : Act → Prop
  | .processIncoming _ env raw =>
    t.clock ≤ env.earliest ∧ ∀ p, Packet.fromBytes env.parseMs raw = .ok p →
      if p.ptype = .hello ∨ p.ptype = .keyExchange then ∀ old ∈ t.log, Stale env.earliest old
      else t.host.device.sessions.get? p.senderId ≠ none
  | _ => True

instance (nowMs : Nat) (raw : Bytes) : Decidable (Stale nowMs raw) :=
  inferInstanceAs (Decidable (_ ∧ _))

instance (t : Tracked C) : ∀ a, Decidable (t.Spaced a)
  | .processIncoming _ env raw =>
    have := decidableForallOk (Packet.fromBytes env.parseMs raw) (fun p =>
      if p.ptype = .hello ∨ p.ptype = .keyExchange then ∀ old ∈ t.log, Stale env.earliest old
      else t.host.device.sessions.get? p.senderId ≠ none)
    inferInstanceAs (Decidable (t.clock ≤ env.earliest ∧ _))
  | .initiate .. | .sendData .. | .receiveData .. | .receivePacket .. | .build ..
  | .removeSession .. => .isTrue trivial

theorem spaced_fresh (t : Tracked C) (a : Act) (ha : t.Spaced a) : t.Fresh a := by
  cases a with
  | processIncoming i env raw =>
      rcases ha with ⟨hclock, hspaced⟩
      refine ⟨hclock, fun id hinst old hold _ => ?_, ?_⟩
      · -- Only a packet of the handshake stores a session.
        rcases hinst with ⟨p, d, hrec, hkind⟩
        have hp := hspaced p (Device.received_parse _ _ _ _ _ hrec)
        rw [if_pos (hkind.imp (fun h => h.1) (fun h => h.1))] at hp
        exact hp old hold
      · rintro ⟨p, d, hrec, hne, hnone, _, hbad⟩
        have hp := hspaced p (Device.received_parse _ _ _ _ _ hrec)
        have hkind : ¬ (p.ptype = .hello ∨ p.ptype = .keyExchange) := by
          rintro (h | h)
          · exact hne h
          · simp only [h, reduceCtorEq, or_self, false_and] at hbad
        rw [if_neg hkind] at hp
        exact hp hnone
  | initiate => trivial
  | sendData => trivial
  | receiveData => trivial
  | receivePacket => trivial
  | build => trivial
  | removeSession => trivial

theorem along_spaced (t : Tracked C) (acts : List Act)
    (hrun : Along Tracked.step Tracked.Spaced t acts) : Along Tracked.step Tracked.Fresh t acts :=
  along_mono spaced_fresh t acts hrun

/-- Readings a minute after those of `toyEnv`. -/
def minuteLater : Env :=
  { toyEnv with
    parseMs := 61000
    receiveMs := 61000
    confirmMs := 61000
    buildMs := 61000
    x25519Private := [6]
    buildMs_ne := Nat.succ_ne_zero 60999 }

/-- Two sessions with one peer, a minute apart: the acts of the first with its
    BYE, and of the second with the same BYE again. The BYE is given as well. -/
def spacedSessions : List Act × Bytes :=
  let bob := Host.create toyPrimitives [7]
  let alice := Host.create toyPrimitives [1]
  let first := toyInitiation bob alice 0 0
  let alice := (toyHandshake bob alice 0 0).2.1
  let bye := builtBytes alice toyEnv bob.device.deviceId .bye
  let first := first ++ [.processIncoming 0 toyEnv bye]
  let bob := first.foldl Host.step bob
  let alice := alice.step (.removeSession bob.device.deviceId)
  match (Endpoint.initiate minuteLater alice.device.deviceId).run (bob.endpoint 1) with
  | .error _ _ => ([], [])
  | .ok hello e =>
    let (alice, helloBack) := alice.answer 1 minuteLater hello
    let (_, confirm) := (bob.put 1 e).answer 1 minuteLater helloBack
    let (_, confirmBack) := alice.answer 1 minuteLater confirm
    (first ++ .initiate 1 minuteLater alice.device.deviceId ::
      [helloBack, confirmBack, bye].map (.processIncoming 1 minuteLater), bye)

/-- Two confirmations and a BYE are acted on, each once. The BYE is refused by
    the second session, then and later. -/
theorem spaced_sessions_act_once :
    let t := spacedSessions.1.foldl Tracked.step (Tracked.create toyPrimitives [7])
    t.log.map wireType = [.ok .keyExchange, .ok .bye, .ok .keyExchange] ∧ t.log.Nodup ∧
      (t.host.protocols 0).state = .closed ∧ (t.host.protocols 1).state = .established ∧
      spacedSessions.2 ∈ t.log ∧
      (t.host.incoming 1 minuteLater spacedSessions.2).returned = none := by
  obtain ⟨run, heq, hspaced, hrun⟩ : ∃ run, spacedSessions = run ∧
      Along Tracked.step Tracked.Spaced (Tracked.create toyPrimitives [7]) run.1 ∧
      let t := run.1.foldl Tracked.step (Tracked.create toyPrimitives [7])
      t.log.map wireType = [.ok .keyExchange, .ok .bye, .ok .keyExchange] ∧
        (t.host.protocols 0).state = .closed ∧ (t.host.protocols 1).state = .established ∧
        run.2 ∈ t.log ∧ t.Spaced (.processIncoming 1 minuteLater run.2) ∧
        ∃ p ∈ (Packet.fromBytes minuteLater.parseMs run.2).toOption, p.ptype ≠ .hello :=
    ⟨spacedSessions, rfl, by decide +kernel⟩
  -- Nothing below looks at what the run is.
  rw [heq]
  have honce := no_replay_across_sessions toyPrimitives [7] run.1 (along_spaced _ _ hspaced)
  generalize run.1.foldl Tracked.step (Tracked.create toyPrimitives [7]) = t at hrun honce ⊢
  generalize run.2 = bye at hrun ⊢
  rcases hrun with ⟨htypes, hclosed, hest, hmem, hfresh, p, hp, htype⟩
  have hparse : Packet.fromBytes minuteLater.parseMs bye = .ok p := by
    cases hq : Packet.fromBytes minuteLater.parseMs bye with
    | error x =>
        rw [hq] at hp
        exact absurd hp (Option.not_mem_none p)
    | ok q =>
        rw [hq] at hp
        exact congrArg Except.ok (Option.some.inj hp)
  exact ⟨htypes, honce.1, hclosed, hest, hmem,
    honce.2 1 minuteLater _ hmem (spaced_fresh _ _ hfresh) p hparse htype⟩

/-- Two sessions with one peer, within a second: the acts of the first with
    its BYE, and of the second with the same BYE again. -/
def replayedBye : List Act :=
  let bob := Host.create toyPrimitives [7]
  let alice := Host.create toyPrimitives [1]
  let first := toyInitiation bob alice 0 0
  let alice := (toyHandshake bob alice 0 0).2.1
  let bye := builtBytes alice toyEnv bob.device.deviceId .bye
  let first := first ++ [.processIncoming 0 toyEnv bye]
  let bob := first.foldl Host.step bob
  let alice := alice.step (.removeSession bob.device.deviceId)
  first ++ toyInitiation bob alice 1 1 ++ [.processIncoming 1 toyEnv bye]

/-- The second session is closed by the BYE of the first, which has then been
    acted on twice. -/
theorem bye_replayed_across_sessions :
    ((replayedBye.foldl Tracked.step (Tracked.create toyPrimitives [7])).host.protocols 1).state
        = .closed ∧
      ¬ (replayedBye.foldl Tracked.step (Tracked.create toyPrimitives [7])).log.Nodup := by
  decide +kernel

end Ztlnp
