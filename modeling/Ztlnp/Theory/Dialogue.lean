import Ztlnp.Theory.Agreement
import Ztlnp.Theory.Refusal
import Ztlnp.Theory.Rotating

/-!
# Dialogues

Two fresh protocols from the first HELLO to the last message.

The network keeps everything that either side has sent and hands any of it to
the other, in any order, any number of times or never, and to either entry
point. A HELLO may arrive at an application that waits for data, and a message
at a protocol that waits for its handshake. Whoever has the message then does
not matter: it is recorded, its plaintext is gone, and the replay check refuses
it from then on.

The handshake and the messages meet in the session. A side that is past its
exchange holds one, and from there on it only ever records a number of the
other side or draws one of its own. `Turn` is that inventory. Whatever was
recorded was drawn by the other side, so two established ends are paired in
both directions, which is where the results about channels start
(`Theory.Link`, `Theory.Receipts`). A message is returned at most once, as it
was sent, and exactly when the replay check admits it.

## Main definitions

* `Dialogue`, `DialogueAct`, `Dialogue.step`: The machine.
* `Dialogue.Ready`: Packets with a tag are only asked of an established side.
* `Endpoint.Keeping`: The session that a side holds, if it holds one.
* `Turn`: What a step can do to that session.
* `Dialogue.Sound`: The invariant of a run.

## Theorems

* `hello_turn`, `confirmation_turn`, `message_turn`: What an incoming packet
  does to the session.
* `sound_turned`: A turn of one side keeps the invariant.
* `dialogue_step`: So does every step.
* `Dialogue.Sound.paired`: Two established ends are paired.
* `dialogue_delivers_once`: What a dialogue promises.
-/

namespace Ztlnp

variable {C : Primitives}

/-- Two ends, with what was said, put on the wire and heard on each side. -/
structure Dialogue (C : Primitives) where
  exchange : Exchange C
  said : Bool → List (Nat × Bytes)
  wires : Bool → List Bytes
  heard : Bool → List (Nat × Bytes)

/-- What can happen. A packet is named by its place among all that the other side
    has sent. -/
inductive DialogueAct
  | initiate (side : Bool) (env : Env)
  | process (side : Bool) (env : Env) (i : Nat)
  | say (side : Bool) (env : Env) (useMac : Bool) (plaintext : Bytes)
  | hear (side : Bool) (env : Env) (i : Nat)
deriving DecidableEq

/-- The readings and draws of an act. -/
def DialogueAct.env : DialogueAct → Env
  | initiate _ env => env
  | process _ env _ => env
  | say _ env _ _ => env
  | hear _ env _ => env

namespace Dialogue

/-- Fresh protocols on two devices. -/
def opened (dev : Bool → Device C) : Dialogue C where
  exchange := .opened dev
  said := fun _ => []
  wires := fun _ => []
  heard := fun _ => []

/-- All that a side has sent. -/
def network (x : Dialogue C) (side : Bool) : List Bytes := x.exchange.sent side ++ x.wires side

/-- One side has moved, and has nothing to report. -/
def turned (x : Dialogue C) (side : Bool) (e : Endpoint C) (raw : Option Bytes) : Dialogue C :=
  { x with exchange := x.exchange.put side e raw }

/-- A side has said something. -/
def saying (x : Dialogue C) (side : Bool) (n : Nat) (plaintext wire : Bytes) : Dialogue C :=
  { x with
    said := Function.update x.said side (x.said side ++ [(n, plaintext)])
    wires := Function.update x.wires side (x.wires side ++ [wire]) }

/-- A side has heard something. -/
def hearing (x : Dialogue C) (side : Bool) (n : Nat) (plaintext : Bytes) : Dialogue C :=
  { x with heard := Function.update x.heard side (x.heard side ++ [(n, plaintext)]) }

/-- One act. -/
def step (x : Dialogue C) : DialogueAct → Dialogue C
  | .initiate side env => { x with exchange := x.exchange.step (.initiate side env) }
  | .process side env i =>
    match (x.network !side)[i]? with
    | none => x
    | some raw =>
      let r := (Endpoint.processIncoming env raw).run (x.exchange.ends side)
      x.turned side r.final r.returned.join
  | .say side env useMac plaintext =>
    match (ChannelEnd.dataPacket env useMac plaintext).run (x.exchange.ends side) with
    | .ok wire e => (x.turned side e none).saying side (wireSequence wire) plaintext wire
    | .error _ e => x.turned side e none
  | .hear side env i =>
    match (x.network !side)[i]? with
    | none => x
    | some raw =>
      match (Endpoint.receiveData env raw).run (x.exchange.ends side) with
      | .ok plaintext e => (x.turned side e none).hearing side (wireSequence raw) plaintext
      | .error _ e => x.turned side e none

/-- A packet with a tag is built by the device, which does not look at the state of
    the protocol. It is asked for one only once the protocol is established. -/
def Ready (x : Dialogue C) : DialogueAct → Prop
  | .say side _ useMac _ => useMac = true → (x.exchange.ends side).proto.state = .established
  | _ => True

instance (x : Dialogue C) (a : DialogueAct) : Decidable (x.Ready a) :=
  match a with
  | .say _ _ _ _ => inferInstanceAs (Decidable (_ → _))
  | .initiate _ _ => .isTrue trivial
  | .process _ _ _ => .isTrue trivial
  | .hear _ _ _ => .isTrue trivial

end Dialogue

/-- The session that a side holds, if it holds one. -/
def Endpoint.Keeping (e : Endpoint C) (you : Device C) (s : Option Session) : Prop :=
  ∀ t, s = some t ↔ e.Holds you t

/-- How many numbers were drawn from it. -/
def drawn (s : Option Session) : Nat := (s.map Session.localSequence).getD 0

/-- What a step can do to the session of the side that moves, given the session of the
    other side. -/
inductive Turn (you : Device C) (o : Option Session) : Option Session → Option Session → Prop
  | same (s : Option Session) : Turn you o s s
  /-- The exchange is completed. The responder has recorded a confirmation by then. -/
  | opened (s : Session) (hpub : s.peerEd25519Public = you.identityPublicBytes)
      (hseq : 0 < s.localSequence) (hmax : s.peerMaxSeq = 0)
      (hwin : ∀ n ∈ s.peerSeqWindow, n < drawn o) : Turn you o none (some s)
  | recorded (s : Session) (n : Nat) (hn : n < drawn o) (hadmits : s.window.Admits replayWindow n) :
      Turn you o (some s) (some (s.recorded n))
  | drew (s : Session) :
      Turn you o (some s) (some { s with localSequence := s.localSequence + 1 })

namespace Turn

variable {you : Device C} {o a b : Option Session}

/-- Numbers are only ever drawn. -/
theorem drawn_le (h : Turn you o a b) : drawn a ≤ drawn b := by
  cases h with
  | same => exact le_rfl
  | opened s => exact Nat.zero_le _
  | recorded s n => exact le_rfl
  | drew s => exact Nat.le_succ _

/-- A session stays the other side's, and under its keys. -/
theorem keeps (h : Turn you o a b) (s : Session) (hs : a = some s) :
    ∃ s', b = some s' ∧ s'.sessionKey = s.sessionKey ∧ s'.macKey = s.macKey ∧
      s'.peerEd25519Public = s.peerEd25519Public ∧
      ∀ n, s.window.Seen replayWindow n → s'.window.Seen replayWindow n := by
  cases h with
  | same => exact ⟨s, hs, rfl, rfl, rfl, fun _ hn => hn⟩
  | opened => simp only [reduceCtorEq] at hs
  | recorded t n =>
      rw [Option.some.injEq] at hs
      subst hs
      exact ⟨t.recorded n, rfl, rfl, rfl, rfl, fun _ hk => SeqWindow.seen_record replayWindow n hk⟩
  | drew t =>
      rw [Option.some.injEq] at hs
      subst hs
      exact ⟨_, rfl, rfl, rfl, rfl, fun _ hk => hk⟩

end Turn

/-- What holds of a session that a side holds, given the session of the other side. -/
structure Fair (you : Device C) (o : Option Session) (s : Session) : Prop where
  identity : s.peerEd25519Public = you.identityPublicBytes
  begun : 0 < s.localSequence
  largest : s.peerMaxSeq ≤ drawn o
  recent : ∀ n ∈ s.peerSeqWindow, n < drawn o

/-- A turn keeps a session fair, -/
theorem Turn.fair {you : Device C} {o a b : Option Session} (h : Turn you o a b)
    (ha : ∀ s, a = some s → Fair you o s) (s : Session) (hs : b = some s) : Fair you o s := by
  cases h with
  | same => exact ha s hs
  | opened t hpub hseq hmax hwin =>
      rw [Option.some.injEq] at hs
      subst hs
      exact ⟨hpub, hseq, by omega, hwin⟩
  | recorded t n hn =>
      rw [Option.some.injEq] at hs
      subst hs
      have ht := ha t rfl
      refine ⟨ht.identity, ht.begun, ?_, fun k hk => ?_⟩
      · rw [Session.recorded_peerMaxSeq]
        exact max_le (Nat.le_of_lt hn) ht.largest
      · rcases SeqWindow.mem_recent_record replayWindow t.window n k hk with rfl | hk
        · exact hn
        · exact ht.recent k hk
  | drew t =>
      rw [Option.some.injEq] at hs
      subst hs
      have ht := ha t rfl
      exact ⟨ht.identity, Nat.succ_pos _, ht.largest, ht.recent⟩

/-- and so does a turn of the other side. -/
theorem Fair.mono {you : Device C} {o o' : Option Session} {s : Session} (h : Fair you o s)
    (hle : drawn o ≤ drawn o') : Fair you o' s :=
  ⟨h.identity, h.begun, h.largest.trans hle, fun n hn => (h.recent n hn).trans_le hle⟩

section Keeping

variable {e : Endpoint C} {you : Device C}

/-- A side that is not past its exchange holds nothing, -/
theorem keeping_none (st : ProtocolState) (hstate : e.proto.state = st)
    (hearly : st ≠ .keyExchangeSent ∧ st ≠ .established) : e.Keeping you none := by
  intro t
  constructor
  · intro ht
    simp only [reduceCtorEq] at ht
  · intro ht
    exact (ht.not_early hstate hearly).elim

/-- and one that is holds what is on file. -/
theorem keeping_some {s : Session}
    (hstate : e.proto.state = .keyExchangeSent ∨ e.proto.state = .established)
    (hget : e.device.sessions.get? you.deviceId = some s) : e.Keeping you (some s) := by
  intro t
  constructor
  · intro ht
    exact ⟨hstate, hget.trans ht⟩
  · intro ht
    exact hget.symm.trans ht.session

theorem Endpoint.Keeping.eq_none {s : Option Session} (h : e.Keeping you s) (st : ProtocolState)
    (hstate : e.proto.state = st) (hearly : st ≠ .keyExchangeSent ∧ st ≠ .established) :
    s = none := by
  cases s with
  | none => rfl
  | some t => exact (((h t).mp rfl).not_early hstate hearly).elim

/-- What is held does not change with the fields that a HELLO writes. -/
theorem Endpoint.Keeping.met {s : Option Session} (h : e.Keeping you s) (p : Packet) :
    ({ e with proto := e.proto.metHello p } : Endpoint C).Keeping you s := by
  intro t
  rw [h t]
  exact ⟨fun ht => ⟨ht.state, ht.session⟩, fun ht => ⟨ht.state, ht.session⟩⟩

end Keeping

section Incoming

variable {me you : Device C} {own other : Option Bytes} {o s : Option Session} {e : Endpoint C}
variable {env : Env} {raw : Bytes} {p : Packet}

/-- A side is past its exchange exactly when it holds something. -/
theorem stage_keeping (hstage : Stage me you own other e) (hkeep : e.Keeping you s) :
    (s = none ∧ ∃ st, e.proto.state = st ∧ st ≠ .keyExchangeSent ∧ st ≠ .established) ∨
      ∃ t, s = some t ∧ e.Holds you t := by
  cases hstage with
  | idle hs => exact Or.inl ⟨hkeep.eq_none _ hs (by decide), _, hs, by decide⟩
  | helloSent _ hs => exact Or.inl ⟨hkeep.eq_none _ hs (by decide), _, hs, by decide⟩
  | helloReceived _ _ hs => exact Or.inl ⟨hkeep.eq_none _ hs (by decide), _, hs, by decide⟩
  | keyed _ _ t hholds => exact Or.inr ⟨t, (hkeep t).mpr hholds, hholds⟩

/-- A packet that was received has been recorded where there is a session. -/
theorem received_turn {r : Device C} (hstage : Stage me you own other e)
    (hkeep : e.Keeping you s) (hrec : Device.Received e.device env raw p r)
    (htype : p.ptype ≠ .hello) (hsender : p.senderId = you.deviceId) (hn : p.sequence < drawn o) :
    ∃ s', ({ e with device := r } : Endpoint C).Keeping you s' ∧ Turn you o s s' := by
  rcases stage_keeping hstage hkeep with ⟨rfl, st, hst, hearly⟩ | ⟨t, rfl, hholds⟩
  · exact ⟨none, keeping_none st hst hearly, .same none⟩
  · have hget := hholds.session
    cases hrec with
    | hello _ hello => exact absurd hello htype
    | pending _ _ _ hnone =>
        rw [hsender, hget] at hnone
        simp only [reduceCtorEq] at hnone
    | session u _ _ hu _ hadmits =>
        rw [hsender, hget, Option.some.injEq] at hu
        subst hu
        refine ⟨_, keeping_some hholds.state ?_, .recorded t p.sequence hn hadmits.2⟩
        rw [hsender]
        exact Dict.get?_set_self _ _ _

/-- A HELLO completes the exchange of an initiator, or changes no session that is
    held. -/
theorem hello_turn {k' : Bytes} (halign : e.device.Aligned) (hp : HelloFor you k' raw p)
    (hstage : Stage me you own other e) (hkeep : e.Keeping you s) :
    ∃ s', ((Endpoint.processIncoming env raw).run e).final.Keeping you s' ∧ Turn you o s s' := by
  rw [hp.processIncoming_run env e _ rfl hstage.not_terminal]
  have hlen := hp.payload_length
  by_cases hidle : e.proto.state = .idle
  · rw [hkeep.eq_none .idle hidle (by decide)]
    refine ⟨none, ?_, .same none⟩
    rcases Endpoint.handleHello_idle_cases env p e halign hlen hidle with ⟨_, q, b, _, hrun⟩ |
      ⟨_, x, hrun⟩
    · rw [hrun]
      exact keeping_none .helloReceived rfl (by decide)
    · rw [hrun]
      exact keeping_none .idle hidle (by decide)
  · by_cases hsent : e.proto.state = .helloSent
    · rw [hkeep.eq_none .helloSent hsent (by decide)]
      have hcases := Endpoint.handleHello_helloSent_cases env p e halign hlen hsent
      simp only [hp.senderId, hp.take_payload, hp.field_payload] at hcases
      rcases hcases with ⟨x, _, hrun⟩ | ⟨t, hex, ⟨_, q, b, _, hrun⟩ | ⟨_, x, hrun⟩⟩
      · rw [hrun]
        exact ⟨none, keeping_none .helloSent hsent (by decide), .same none⟩
      · -- The session is new, and the confirmation has drawn its first number.
        have hfresh := e.device.exchangedSession_fresh you _ _ t hex
        rw [hrun]
        refine ⟨_, keeping_some (Or.inl rfl) (Dict.get?_set_self _ _ _),
          .opened _ hfresh.peerEd25519Public (Nat.succ_pos _) hfresh.peerMaxSeq (fun n hn => ?_)⟩
        simp only [hfresh.peerSeqWindow, Finset.notMem_empty] at hn
      · rw [hrun]
        exact ⟨none, keeping_none .helloSent hsent (by decide), .same none⟩
    · rcases Endpoint.handleHello_unexpected env p e hlen hidle hsent with ⟨x, hrun⟩
      rw [hrun]
      exact ⟨s, hkeep.met p, .same s⟩

/-- A confirmation completes the exchange of a responder. -/
theorem confirms_turn {k' : Bytes} (hstate : e.proto.state = .helloReceived)
    (hmet : e.proto.Met you k') (hzero : p.sequence = 0) (hn : 0 < drawn o) :
    ∃ s', ((Endpoint.handleKeyExchange env p).run e).final.Keeping you s' ∧
      Turn you o none s' := by
  have hout := Endpoint.handleKeyExchange_helloReceived env p e hstate
  generalize (Endpoint.handleKeyExchange env p).run e = r at hout
  cases hout with
  | established peerId t _ _ hcomp _ _ _ hfinal =>
      rcases hcomp with ⟨ed, x, hid, hed, hx, hex⟩
      rw [hmet.peerId, Option.some.injEq] at hid
      rw [hmet.peerEd25519Pub, Option.some.injEq] at hed
      subst hid
      subst hed
      have hfresh := e.device.exchangedSession_fresh you _ _ t hex
      rw [hfinal]
      refine ⟨_, keeping_some (Or.inr rfl) (Dict.get?_set_self _ _ _),
        .opened _ hfresh.peerEd25519Public (Nat.succ_pos _) ?_ (fun n hmem => ?_)⟩
      · -- All it has recorded is the confirmation, which bears the number zero.
        have hmax := t.recorded_peerMaxSeq p.sequence
        rw [hzero, hfresh.peerMaxSeq] at hmax
        rw [hzero]
        exact hmax
      · rcases SeqWindow.mem_recent_record replayWindow t.window p.sequence n hmem with rfl | hold
        · rw [hzero]
          exact hn
        · have hnil : t.window.recent = ∅ := hfresh.peerSeqWindow
          rw [hnil] at hold
          exact absurd hold (Finset.notMem_empty n)
  | refused | halfway | stale | unconfirmed =>
      exact ⟨none, keeping_none .helloReceived hstate (by decide), .same none⟩
  | unanswered _ hs | answered hs => simp only [hstate, reduceCtorEq] at hs
  | unexpected _ hs => exact absurd hstate hs

/-- A confirmation of the other side. -/
theorem confirmation_turn {env' : Env} {sessionKey : Bytes}
    (hp : ConfirmationFor you env' sessionKey raw p) (hn : 0 < drawn o)
    (hstage : Stage me you own other e) (hkeep : e.Keeping you s) :
    ∃ s', ((Endpoint.processIncoming env raw).run e).final.Keeping you s' ∧ Turn you o s s' := by
  rcases Endpoint.processIncoming_cases env raw e with ⟨x, hrun⟩ | ⟨_, q, r, hrec, _⟩
  · rw [hrun]
    exact ⟨s, hkeep, .same s⟩
  · rw [hp.received_eq hrec] at hrec
    rw [hp.processIncoming_run env e _ rfl hstage.not_terminal hrec]
    have htype : p.ptype ≠ .hello := by
      rw [hp.ptype]
      decide
    by_cases hreceived : e.proto.state = .helloReceived
    · -- The responder has nothing to record the confirmation in before its exchange.
      rw [hkeep.eq_none .helloReceived hreceived (by decide)]
      cases hstage with
      | helloReceived k k' _ _ _ _ hmet =>
          exact confirms_turn (e := { e with device := r }) hreceived hmet hp.sequence hn
      | idle hs | helloSent _ hs => simp only [hreceived, reduceCtorEq] at hs
      | keyed _ _ _ hholds => exact (hholds.not_early hreceived (by decide)).elim
    · rcases received_turn hstage hkeep hrec htype hp.senderId (by rw [hp.sequence]; exact hn) with
        ⟨s', hkeep', hturn⟩
      refine ⟨s', ?_, hturn⟩
      -- The handler of anyone else leaves the session alone.
      by_cases hsent : e.proto.state = .keyExchangeSent
      · have hout := Endpoint.handleKeyExchange_keyExchangeSent env p { e with device := r } hsent
        generalize (Endpoint.handleKeyExchange env p).run { e with device := r } = result at hout
        cases hout with
        | unanswered => exact hkeep'
        | answered =>
            intro t
            rw [hkeep' t]
            exact ⟨fun ht => ⟨Or.inr rfl, ht.session⟩, fun ht => ⟨Or.inl hsent, ht.session⟩⟩
        | unexpected _ _ hs => exact absurd hsent hs
        | refused _ hs | halfway _ _ _ hs | stale _ _ _ hs | unconfirmed _ _ _ hs
          | established _ _ _ hs => simp only [hsent, reduceCtorEq] at hs
      · rcases Endpoint.handleKeyExchange_unexpected env p { e with device := r } hreceived hsent
          with ⟨x, hrun⟩
        rw [hrun]
        exact hkeep'

/-- A message is recorded by whoever it is handed to, and its plaintext is not looked
    at. -/
theorem message_turn (env : Env) {t : Session} {n : Nat} {plaintext : Bytes}
    (hw : Wraps C you.deviceId t raw n plaintext p) (hdata : p.ptype = .data) (hn : n < drawn o)
    (hstage : Stage me you own other e) (hkeep : e.Keeping you s) :
    ∃ r : Device C, (r = e.device ∨ Device.Received e.device env raw p r) ∧
      ((Endpoint.processIncoming env raw).run e).final = { e with device := r } ∧
      ((Endpoint.processIncoming env raw).run e).returned.join = none ∧
      ∃ s', ({ e with device := r } : Endpoint C).Keeping you s' ∧ Turn you o s s' := by
  rcases Endpoint.processIncoming_cases env raw e with ⟨x, hrun⟩ | ⟨_, q, r, hrec, hrun⟩
  · rw [hrun]
    exact ⟨e.device, Or.inl rfl, rfl, rfl, s, hkeep, .same s⟩
  · have hparse := Device.received_parse env raw _ _ _ hrec
    rw [hw.parses, Except.ok.injEq] at hparse
    subst hparse
    have hturn := received_turn hstage hkeep hrec hw.ptype hw.senderId
      (by rw [hw.sequence]; exact hn)
    -- `handleData` reads the state and writes nothing, whichever way it ends.
    refine ⟨r, Or.inr hrec, ?_, ?_, hturn⟩ <;> rw [hrun] <;>
      simp only [Endpoint.dispatch, hdata, Endpoint.handleData, EStateM.run_bind]
    · rcases Endpoint.requireEstablished_cases { e with device := r } with ⟨_, hreq⟩ |
        ⟨_, x, hreq⟩
      · rw [hreq]
        rfl
      · rw [hreq]
        rfl
    · rcases Endpoint.requireEstablished_cases { e with device := r } with ⟨_, hreq⟩ |
        ⟨_, x, hreq⟩
      · rw [hreq]
        rfl
      · rw [hreq]
        rfl

/-- A packet of the handshake that is handed to an application which waits for data
    is at most recorded. -/
theorem strayed_turn (env' : Env) (hparse : ∀ nowMs, Packet.fromBytes nowMs raw = .ok p)
    (hdata : p.ptype ≠ .data) (hsender : p.senderId = you.deviceId)
    (hn : p.ptype ≠ .hello → p.sequence < drawn o)
    (hstage : Stage me you own other e) (hkeep : e.Keeping you s) :
    ∃ (x : Exn) (r : Device C), (r = e.device ∨ Device.Received e.device env' raw p r) ∧
      (Endpoint.receiveData env' raw).run e = .error x { e with device := r } ∧
      ∃ s', ({ e with device := r } : Endpoint C).Keeping you s' ∧ Turn you o s s' := by
  rcases Endpoint.receiveData_cases env' raw e with ⟨x, hrun⟩ | ⟨_, q, r, hrec, hfinal⟩
  · rw [hrun]
    exact ⟨x, e.device, Or.inl rfl, rfl, s, hkeep, .same s⟩
  · have hq := Device.received_parse env' raw _ _ _ hrec
    rw [hparse, Except.ok.injEq] at hq
    subst hq
    have hreturns := Endpoint.receiveData_returns env' raw e p r hrec
    -- Returned would mean that it was a DATA packet.
    cases hrun : (Endpoint.receiveData env' raw).run e with
    | ok plaintext e' => exact absurd (hreturns.mp ⟨plaintext, e', hrun⟩).2.1 hdata
    | error x e' =>
        -- Of the refusal only the reception stays.
        rw [hrun] at hfinal
        have he : e' = { e with device := r } := hfinal
        rw [he]
        refine ⟨x, r, Or.inr hrec, rfl, ?_⟩
        by_cases htype : p.ptype = .hello
        · rw [Device.received_hello _ _ _ _ _ hrec htype]
          exact ⟨s, hkeep, .same s⟩
        · exact received_turn hstage hkeep hrec htype hsender (hn htype)

end Incoming

section Sound

variable (dev : Bool → Device C) (keys nonces : List Bytes)

/-- What holds in every run: the handshake agrees, both sessions are fair, and what was
    heard was said and is seen by the replay window. -/
structure Dialogue.Sound (x : Dialogue C) (g : Bool → Option Bytes) (S : Bool → Option Session) :
    Prop where
  agrees : Agrees dev keys nonces x.exchange g
  keeping : ∀ side, (x.exchange.ends side).Keeping (dev !side) (S side)
  fair : ∀ side s, S side = some s → Fair (dev !side) (S !side) s
  ascending : ∀ side, Ascending (x.said side)
  numbered : ∀ side, ∀ m ∈ x.said side, m.1 < drawn (S side)
  wires : ∀ side, ∀ raw ∈ x.wires side, ∃ t n plaintext p, S (!side) = some t ∧
    (n, plaintext) ∈ x.said side ∧ p.ptype = .data ∧ Wraps C (dev side).deviceId t raw n plaintext p
  heard : ∀ side, ∀ m ∈ x.heard side, m ∈ x.said !side ∧
    ∃ s, S side = some s ∧ s.window.Seen replayWindow m.1
  once : ∀ side, ((x.heard side).map Prod.fst).Nodup

variable {dev keys nonces}
variable {x : Dialogue C} {g : Bool → Option Bytes} {S : Bool → Option Session} {side : Bool}

/-- A turn of one side keeps the invariant. -/
theorem sound_turned {own' : Option Bytes} {e' : Endpoint C} {raw : Option Bytes}
    {s' : Option Session} (h : x.Sound dev keys nonces g S)
    (hadv : Advances keys nonces (dev side) (dev !side) (g side) own' (g !side)
      (x.exchange.ends !side) (x.exchange.ends side) e' raw)
    (hkeep : e'.Keeping (dev !side) s') (hturn : Turn (dev !side) (S !side) (S side) s') :
    (x.turned side e' raw).Sound dev keys nonces (Function.update g side own')
      (Function.update S side s') := by
  have hself : Function.update S side s' side = s' := Function.update_self _ _ _
  have hother : Function.update S side s' (!side) = S !side :=
    Function.update_of_ne (Bool.not_ne_self side) _ _
  refine ⟨agrees_put h.agrees hadv, both_sides side ?_ ?_, both_sides side ?_ ?_, h.ascending,
    both_sides side ?_ ?_, both_sides side ?_ ?_, both_sides side ?_ ?_, h.once⟩
  · rw [hself, Dialogue.turned, Exchange.put_ends_self]
    exact hkeep
  · rw [hother, Dialogue.turned, Exchange.put_ends_other]
    exact h.keeping !side
  · rw [hself, hother]
    exact hturn.fair (h.fair side)
  · -- The other side may have recorded what was drawn, and more is drawn by now.
    intro s hs
    rw [hother] at hs
    have hfair := h.fair (!side) s hs
    rw [Bool.not_not] at hfair ⊢
    rw [hself]
    exact hfair.mono hturn.drawn_le
  · intro m hm
    rw [hself]
    exact (h.numbered side m hm).trans_le hturn.drawn_le
  · rw [hother]
    exact h.numbered !side
  · rw [hother]
    exact h.wires side
  · -- What is on its way to this side still fits its session.
    intro b hb
    rcases h.wires (!side) b hb with ⟨t, n, plaintext, p, ht, hmem, hdata, hw⟩
    rw [Bool.not_not] at ht ⊢
    rw [hself]
    rcases hturn.keeps t ht with ⟨t', ht', hkey, hmac, hpub, _⟩
    exact ⟨t', n, plaintext, p, ht', hmem, hdata, hw.of_keys hkey hmac hpub⟩
  · intro m hm
    rcases h.heard side m hm with ⟨hmem, s, hs, hseen⟩
    rcases hturn.keeps s hs with ⟨t, ht, _, _, _, hkeeps⟩
    rw [hself]
    exact ⟨hmem, t, ht, hkeeps m.1 hseen⟩
  · rw [hother]
    exact h.heard !side

/-- So does saying something under a number that was just drawn, -/
theorem sound_saying {n : Nat} {plaintext wire : Bytes} {p : Packet} {t : Session}
    (h : x.Sound dev keys nonces g S) (hlast : ∀ m ∈ x.said side, m.1 < n)
    (hn : n < drawn (S side)) (ht : S (!side) = some t) (hdata : p.ptype = .data)
    (hw : Wraps C (dev side).deviceId t wire n plaintext p) :
    (x.saying side n plaintext wire).Sound dev keys nonces g S := by
  have hself : (x.saying side n plaintext wire).said side = x.said side ++ [(n, plaintext)] :=
    Function.update_self _ _ _
  have hother : (x.saying side n plaintext wire).said (!side) = x.said !side :=
    Function.update_of_ne (Bool.not_ne_self side) _ _
  have hwself : (x.saying side n plaintext wire).wires side = x.wires side ++ [wire] :=
    Function.update_self _ _ _
  have hwother : (x.saying side n plaintext wire).wires (!side) = x.wires !side :=
    Function.update_of_ne (Bool.not_ne_self side) _ _
  -- Only what this side said grows, together with its wires.
  refine ⟨h.agrees, h.keeping, h.fair, both_sides side ?_ ?_, both_sides side ?_ ?_,
    both_sides side ?_ ?_, both_sides side ?_ ?_, h.once⟩
  · rw [hself]
    exact ascending_concat _ _ _ (h.ascending side) hlast
  · rw [hother]
    exact h.ascending !side
  · rw [hself]
    intro m hm
    rcases List.mem_append.mp hm with hm | hm
    · exact h.numbered side m hm
    · rw [List.mem_singleton.mp hm]
      exact hn
  · rw [hother]
    exact h.numbered !side
  · -- Older packets were made around what was said before, the new one around the last.
    rw [hself, hwself]
    intro b hb
    rcases List.mem_append.mp hb with hb | hb
    · rcases h.wires side b hb with ⟨u, k, y, q, hu, hmem, hrest⟩
      exact ⟨u, k, y, q, hu, List.mem_append_left _ hmem, hrest⟩
    · rw [List.mem_singleton.mp hb]
      exact ⟨t, n, plaintext, p, ht, List.mem_append_right _ (List.mem_singleton_self _), hdata, hw⟩
  · rw [hother, hwother]
    exact h.wires !side
  · rw [hother]
    exact h.heard side
  · intro m hm
    rcases h.heard (!side) m hm with ⟨hmem, hseen⟩
    rw [Bool.not_not] at hmem ⊢
    rw [hself]
    exact ⟨List.mem_append_left _ hmem, hseen⟩

/-- and hearing something that the replay window had not seen. -/
theorem sound_hearing {n : Nat} {plaintext : Bytes} {s : Session}
    (h : x.Sound dev keys nonces g S) (hmem : (n, plaintext) ∈ x.said !side)
    (hs : S side = some s) (hseen : s.window.Seen replayWindow n)
    (hnew : n ∉ (x.heard side).map Prod.fst) :
    (x.hearing side n plaintext).Sound dev keys nonces g S := by
  have hself : (x.hearing side n plaintext).heard side = x.heard side ++ [(n, plaintext)] :=
    Function.update_self _ _ _
  have hother : (x.hearing side n plaintext).heard (!side) = x.heard !side :=
    Function.update_of_ne (Bool.not_ne_self side) _ _
  -- Only what this side heard grows.
  refine ⟨h.agrees, h.keeping, h.fair, h.ascending, h.numbered, h.wires, both_sides side ?_ ?_,
    both_sides side ?_ ?_⟩
  · rw [hself]
    intro m hm
    rcases List.mem_append.mp hm with hm | hm
    · exact h.heard side m hm
    · rw [List.mem_singleton.mp hm]
      exact ⟨hmem, s, hs, hseen⟩
  · rw [hother]
    exact h.heard !side
  · rw [hself, List.map_append, List.map_singleton, ← List.concat_eq_append]
    exact (h.once side).concat hnew
  · rw [hother]
    exact h.once !side

/-- An established side and the other one hold sessions under the same keys. -/
theorem Dialogue.Sound.joined (h : x.Sound dev keys nonces g S)
    (hest : (x.exchange.ends side).proto.state = .established) :
    ∃ s t, S side = some s ∧ S (!side) = some t ∧ s.sessionKey = t.sessionKey ∧
      s.macKey = t.macKey ∧ (x.exchange.ends side).proto.peerId = some (dev !side).deviceId := by
  rcases h.agrees.keys_eq hest with ⟨s, t, hs, ht, hkey, hmac⟩
  refine ⟨s, t, (h.keeping side s).mpr ⟨Or.inr hest, hs⟩, ?_, hkey, hmac, ?_⟩
  · refine (h.keeping (!side) t).mpr ⟨(h.agrees.partner side hest).state, ?_⟩
    rw [Bool.not_not]
    exact ht
  · have hstage := h.agrees.stage side
    cases hstage with
    | idle hs | helloSent _ hs | helloReceived _ _ hs => simp only [hest, reduceCtorEq] at hs
    | keyed _ _ _ _ _ _ _ hpeer => exact hpeer

/-- The devices keep their identities. -/
theorem Dialogue.Sound.identified (h : x.Sound dev keys nonces g S) (side : Bool) :
    (x.exchange.ends side).device.identityPublicBytes = (dev side).identityPublicBytes ∧
      (x.exchange.ends side).device.deviceId = (dev side).deviceId :=
  Device.identity_eq _ _ (h.agrees.identity side)

end Sound

section Steps

variable {dev : Bool → Device C} {keys nonces : List Bytes}

section Side

variable {me you : Device C} {own other : Option Bytes} {o e : Endpoint C} {s : Option Session}
variable {env : Env}

/-- Initiating changes no session that is held. -/
theorem initiate_keeping (halign : e.device.Aligned) (hkeep : e.Keeping you s) :
    ((Endpoint.initiate env you.deviceId).run e).final.Keeping you s := by
  by_cases hidle : e.proto.state = .idle
  · rw [hkeep.eq_none .idle hidle (by decide)]
    rcases Endpoint.initiate_cases env you.deviceId e halign hidle with ⟨_, p, raw, _, hrun⟩ |
      ⟨_, x, hrun⟩
    · rw [hrun]
      exact keeping_none .helloSent rfl (by decide)
    · rw [hrun]
      exact keeping_none .idle hidle (by decide)
  · rcases Endpoint.initiate_busy env you.deviceId e hidle with ⟨x, hrun⟩
    rw [hrun]
    exact hkeep

/-- Receiving a packet, or nothing, is an advance. -/
theorem reception_advances {raw : Bytes} {p : Packet} {r : Device C} (halign : e.device.Aligned)
    (hdrawn : ∀ k, own = some k → k ∈ keys) (hstage : Stage me you own other e)
    (hrec : r = e.device ∨ Device.Received e.device env raw p r) :
    Advances keys nonces me you own own other o e { e with device := r } none := by
  rcases hrec with rfl | hrec
  · exact .refl halign hdrawn hstage
  · exact received_advances halign hdrawn hstage hrec

/-- Drawing a number is one as well. -/
theorem drew_advances {t : Session} (halign : e.device.Aligned)
    (hdrawn : ∀ k, own = some k → k ∈ keys) (hstage : Stage me you own other e)
    (hest : e.proto.state = .established)
    (hget : e.device.sessions.get? you.deviceId = some t) :
    Advances keys nonces me you own own other o e (e.advanced you.deviceId t) none where
  identity := rfl
  aligned := halign
  drawn := hdrawn
  grows := fun _ h => h
  -- The one stage with ESTABLISHED holds the session, and a number drawn keeps its keys.
  stage := by
    cases hstage with
    | idle hs | helloSent _ hs | helloReceived _ _ hs => simp only [hest, reduceCtorEq] at hs
    | keyed k k' s hholds hini hown hother hpeer hshares =>
        have hs := hholds.session
        rw [hget, Option.some.injEq] at hs
        subst hs
        rcases hshares with ⟨secret, hx, hk, hm⟩
        exact .keyed k k' { t with localSequence := t.localSequence + 1 }
          ⟨hholds.state, Dict.get?_set_self _ _ _⟩ hini hown hother hpeer ⟨secret, hx, hk, hm⟩
  keeps := by
    intro s hs
    have hsess := hs.session
    rw [hget, Option.some.injEq] at hsess
    subst hsess
    exact ⟨_, ⟨hs.state, Dict.get?_set_self _ _ _⟩, rfl, rfl⟩
  stays := id
  sends := fun _ h => absurd h (Option.not_mem_none _)
  enters := fun hno _ => absurd hest hno

end Side

variable {x : Dialogue C} {g : Bool → Option Bytes} {S : Bool → Option Session} {side : Bool}
variable {env : Env}

/-- A call that does nothing. -/
theorem sound_idle (h : x.Sound dev keys nonces g S) :
    ∃ g' S', (x.turned side (x.exchange.ends side) none).Sound dev keys nonces g' S' :=
  ⟨_, _, sound_turned h (.refl (h.agrees.aligned side) (h.agrees.drawn side)
    (h.agrees.stage side)) (h.keeping side) (.same _)⟩

/-- A packet is at most received. -/
theorem sound_received {raw : Bytes} {p : Packet} {r : Device C} {s' : Option Session}
    (h : x.Sound dev keys nonces g S)
    (hrec : r = (x.exchange.ends side).device ∨
      Device.Received (x.exchange.ends side).device env raw p r)
    (hkeep : ({ x.exchange.ends side with device := r } : Endpoint C).Keeping (dev !side) s')
    (hturn : Turn (dev !side) (S !side) (S side) s') :
    (x.turned side { x.exchange.ends side with device := r } none).Sound dev keys nonces
      (Function.update g side (g side)) (Function.update S side s') :=
  sound_turned h (reception_advances (h.agrees.aligned side) (h.agrees.drawn side)
    (h.agrees.stage side) hrec) hkeep hturn

/-- Whoever has sent a confirmation has drawn a number for it. -/
theorem Dialogue.Sound.drawn_pos (h : x.Sound dev keys nonces g S) {s : Session}
    (hholds : (x.exchange.ends side).Holds (dev !side) s) : 0 < drawn (S side) := by
  have hs := (h.keeping side s).mpr hholds
  rw [hs]
  exact (h.fair side s hs).begun

/-- What the other side has sent of the handshake, as it reads from here. -/
theorem Dialogue.Sound.message (h : x.Sound dev keys nonces g S) {raw : Bytes}
    (hraw : raw ∈ x.exchange.sent !side) :
    Message nonces (dev !side) (dev side) (g !side) (x.exchange.ends !side) raw := by
  have hmessage := h.agrees.messages (!side) raw hraw
  rw [Bool.not_not] at hmessage
  exact hmessage

/-- A packet of the handshake in the hands of the protocol. -/
theorem process_sent (hsep : ∀ side, Rejects keys nonces (dev side) (dev !side))
    (h : x.Sound dev keys nonces g S) (henv : env.x25519Private ∈ keys ∧ env.nonce ∈ nonces)
    {raw : Bytes} (hraw : raw ∈ x.exchange.sent !side) :
    let r := (Endpoint.processIncoming env raw).run (x.exchange.ends side)
    ∃ g' S', (x.turned side r.final r.returned.join).Sound dev keys nonces g' S' := by
  have hother := h.agrees.stage !side
  have hpartner := h.agrees.partner !side
  rw [Bool.not_not] at hother hpartner
  -- A handshake message moves the protocol, and with it the session that is kept.
  cases h.message hraw with
  | hello k p hk hp =>
      rcases hello_advances (h.agrees.identity side) (h.agrees.aligned side) (h.agrees.drawn side)
        henv.1 henv.2 hp hk (h.agrees.stage side) with ⟨own', hadv⟩
      rcases hello_turn (o := S !side) (h.agrees.aligned side) hp (h.agrees.stage side)
        (h.keeping side) with ⟨s', hkeep, hturn⟩
      exact ⟨_, _, sound_turned h hadv hkeep hturn⟩
  | confirmation s env' p hholds hnonce hp =>
      have hadv := confirmation_advances (hsep side) (h.agrees.identity side)
        (h.agrees.aligned side) (h.agrees.drawn side) (h.agrees.drawn !side) henv.2 hholds hother
        hpartner hnonce hp (h.agrees.stage side)
      have hpos : 0 < drawn (S !side) := h.drawn_pos (by rw [Bool.not_not]; exact hholds)
      rcases confirmation_turn hp hpos (h.agrees.stage side) (h.keeping side) with
        ⟨s', hkeep, hturn⟩
      exact ⟨_, _, sound_turned h hadv hkeep hturn⟩

/-- A message in the hands of the protocol. -/
theorem process_said (h : x.Sound dev keys nonces g S) {raw : Bytes}
    (hraw : raw ∈ x.wires !side) :
    let r := (Endpoint.processIncoming env raw).run (x.exchange.ends side)
    ∃ g' S', (x.turned side r.final r.returned.join).Sound dev keys nonces g' S' := by
  rcases h.wires (!side) raw hraw with ⟨t, n, plaintext, p, _, hmem, hdata, hw⟩
  rcases message_turn env hw hdata (h.numbered (!side) _ hmem) (h.agrees.stage side)
    (h.keeping side) with ⟨r, hrec, hfinal, hreturned, s', hkeep, hturn⟩
  simp only
  rw [hfinal, hreturned]
  exact ⟨_, _, sound_received h hrec hkeep hturn⟩

/-- A packet of the handshake in the hands of the application. -/
theorem hear_sent (env : Env) (h : x.Sound dev keys nonces g S) {raw : Bytes}
    (hraw : raw ∈ x.exchange.sent !side) :
    ∃ y e, (Endpoint.receiveData env raw).run (x.exchange.ends side) = .error y e ∧
      ∃ g' S', (x.turned side e none).Sound dev keys nonces g' S' := by
  cases h.message hraw with
  | hello k p hk hp =>
      rcases strayed_turn (o := S !side) env hp.parses (by rw [hp.ptype]; decide)
        hp.senderId (fun hno => absurd hp.ptype hno) (h.agrees.stage side) (h.keeping side) with
        ⟨y, r, hrec, hrun, s', hkeep, hturn⟩
      exact ⟨y, _, hrun, _, _, sound_received h hrec hkeep hturn⟩
  | confirmation s env' p hholds hnonce hp =>
      have hpos : 0 < drawn (S !side) := h.drawn_pos (by rw [Bool.not_not]; exact hholds)
      rcases strayed_turn (o := S !side) env hp.parses (by rw [hp.ptype]; decide)
        hp.senderId (fun _ => by rw [hp.sequence]; exact hpos) (h.agrees.stage side)
        (h.keeping side) with ⟨y, r, hrec, hrun, s', hkeep, hturn⟩
      exact ⟨y, _, hrun, _, _, sound_received h hrec hkeep hturn⟩

/-- A message in the hands of the application. -/
theorem hear_said (env : Env) (h : x.Sound dev keys nonces g S) {raw : Bytes}
    (hraw : raw ∈ x.wires !side) :
    (∃ y, (Endpoint.receiveData env raw).run (x.exchange.ends side)
      = .error y (x.exchange.ends side)) ∨
    ∃ plaintext e, (Endpoint.receiveData env raw).run (x.exchange.ends side) = .ok plaintext e ∧
      ∃ g' S', ((x.turned side e none).hearing side (wireSequence raw) plaintext).Sound dev keys
        nonces g' S' := by
  rcases h.wires (!side) raw hraw with ⟨t, n, plaintext, p, ht, hmem, hdata, hw⟩
  rw [Bool.not_not] at ht
  have hholds := (h.keeping side t).mp ht
  rcases Endpoint.requireEstablished_cases (x.exchange.ends side) with ⟨hest, _⟩ | ⟨_, y, hreq⟩
  · rcases receiveData_wraps _ env _ raw plaintext t n p hest hw hdata hholds.session with
      ⟨hadmits, hrun⟩ | ⟨_, y, hrun⟩
    · right
      refine ⟨plaintext, _, hrun, ?_⟩
      -- Reception has recorded the number, which was not seen before.
      have hrec : Device.Received (x.exchange.ends side).device env raw p
          ((x.exchange.ends side).device.noted (dev !side).deviceId t n) := by
        rw [← hw.senderId, ← hw.sequence]
        refine .session p t (hw.parses _) hw.ptype ?_ hw.verifies ?_
        · rw [hw.senderId]
          exact hholds.session
        · rw [hw.sequence, hw.timestampMs_eq]
          exact hadmits
      have hturn : Turn (dev !side) (S !side) (S side) (some (t.recorded n)) := by
        rw [ht]
        exact .recorded t n (h.numbered (!side) _ hmem) hadmits.2
      have hturned := sound_received h (Or.inr hrec)
        (keeping_some hholds.state (Dict.get?_set_self _ _ _)) hturn
      rw [hw.wireSequence_eq]
      refine ⟨_, _, sound_hearing hturned hmem (Function.update_self _ _ _)
        (SeqWindow.seen_record_self replayWindow t.window n) (fun hold => ?_)⟩
      rcases List.mem_map.mp hold with ⟨m, hm, rfl⟩
      rcases (h.heard side m hm).2 with ⟨u, hu, hseen⟩
      rw [ht, Option.some.injEq] at hu
      subst hu
      exact SeqWindow.not_admits_of_seen replayWindow hseen hadmits.2
    · exact Or.inl ⟨y, hrun⟩
  · left
    refine ⟨y, ?_⟩
    rw [Endpoint.receiveData, EStateM.run_bind, hreq]

/-- Saying something draws a number, and may put it on the wire. -/
theorem say_step {useMac : Bool} {plaintext : Bytes} (h : x.Sound dev keys nonces g S)
    (hready : x.Ready (.say side env useMac plaintext)) :
    ∃ g' S', (x.step (.say side env useMac plaintext)).Sound dev keys nonces g' S' := by
  simp only [Dialogue.step]
  by_cases hest : (x.exchange.ends side).proto.state = .established
  · rcases h.joined hest with ⟨s, t, hs, ht, hkey, hmac, hpeer⟩
    have hget := ((h.keeping side s).mp hs).session
    have hturn : Turn (dev !side) (S !side) (S side)
        (some { s with localSequence := s.localSequence + 1 }) := by
      rw [hs]
      exact .drew s
    have hdrew := sound_turned h
      (drew_advances (h.agrees.aligned side) (h.agrees.drawn side) (h.agrees.stage side) hest hget)
      (keeping_some (Or.inr hest) (Dict.get?_set_self _ _ _)) hturn
    -- The builder draws from the session that is held.
    have hsame : ∀ peerId u, (x.exchange.ends side).proto.peerId = some peerId →
        (x.exchange.ends side).device.sessions.get? peerId = some u →
          peerId = (dev !side).deviceId ∧ u = s := by
      intro peerId u hp hu
      rw [hpeer, Option.some.injEq] at hp
      rw [← hp, hget, Option.some.injEq] at hu
      exact ⟨hp.symm, hu.symm⟩
    have hbuild := ChannelEnd.dataPacket_builds env useMac plaintext (x.exchange.ends side)
    generalize (ChannelEnd.dataPacket env useMac plaintext).run (x.exchange.ends side) = r at hbuild
    cases hbuild with
    | refused y => exact sound_idle h
    | spoilt peerId u y hp hu =>
        rcases hsame peerId u hp hu with ⟨rfl, rfl⟩
        exact ⟨_, _, hdrew⟩
    | built peerId u p wire hp hu hseal hwire =>
        rcases hsame peerId u hp hu with ⟨rfl, rfl⟩
        have hfair := h.fair (!side) t ht
        rw [Bool.not_not] at hfair
        have hw := dataSealed_wraps _ env _ _ plaintext wire u t p hseal hwire hkey hmac
          (hfair.identity.trans (h.identified side).1.symm)
        rw [(h.identified side).2] at hw
        have hdata : p.ptype = .data :=
          (Device.sealPacket_eq_ok _ _ _ _ _ _ _ _ _ _ hseal).1.ptype
        simp only [hw.wireSequence_eq]
        refine ⟨_, _, sound_saying hdrew (fun m hm => ?_) ?_ ?_ hdata hw⟩
        · -- What was said before has drawn an earlier number.
          have hm' := h.numbered side m hm
          rw [hs] at hm'
          exact hm'
        · rw [Function.update_self]
          exact Nat.lt_succ_self _
        · rw [Function.update_of_ne (Bool.not_ne_self side)]
          exact ht
  · -- Only packets with a signature are asked for now, and they are refused.
    have hsigned : useMac = false := by
      cases useMac with
      | false => rfl
      | true => exact absurd (hready rfl) hest
    rw [hsigned, ChannelEnd.dataPacket, if_neg Bool.false_ne_true, Endpoint.sendData,
      EStateM.run_bind]
    rcases Endpoint.requireEstablished_cases (x.exchange.ends side) with ⟨hyes, _⟩ | ⟨_, y, hreq⟩
    · exact absurd hyes hest
    · rw [hreq]
      exact sound_idle h

/-- Every step keeps the invariant. -/
theorem dialogue_step (hsep : ∀ side, Rejects keys nonces (dev side) (dev !side))
    (h : x.Sound dev keys nonces g S) (a : DialogueAct)
    (ha : (a.env.x25519Private ∈ keys ∧ a.env.nonce ∈ nonces) ∧ x.Ready a) :
    ∃ g' S', (x.step a).Sound dev keys nonces g' S' := by
  cases a with
  | initiate side env =>
      have hid := (h.identified !side).2
      simp only [Dialogue.step, Exchange.step, hid]
      rcases initiate_advances (h.agrees.identity side) (h.agrees.aligned side)
        (h.agrees.drawn side) ha.1.1 (h.agrees.stage side) with ⟨own', hadv⟩
      exact ⟨_, _, sound_turned h hadv (initiate_keeping (h.agrees.aligned side) (h.keeping side))
        (.same _)⟩
  | process side env i =>
      simp only [Dialogue.step]
      cases hraw : (x.network !side)[i]? with
      | none => exact ⟨g, S, h⟩
      -- The network holds what the handshake sent and what was said.
      | some raw =>
          rcases List.mem_append.mp (List.mem_of_getElem? hraw) with hsent | hsaid
          · exact process_sent hsep h ha.1 hsent
          · exact process_said h hsaid
  | say side env useMac plaintext => exact say_step h ha.2
  | hear side env i =>
      simp only [Dialogue.step]
      cases hraw : (x.network !side)[i]? with
      | none => exact ⟨g, S, h⟩
      | some raw =>
          simp only
          rcases List.mem_append.mp (List.mem_of_getElem? hraw) with hsent | hsaid
          · rcases hear_sent env h hsent with ⟨y, e, hrun, hsound⟩
            rw [hrun]
            exact hsound
          · rcases hear_said env h hsaid with ⟨y, hrun⟩ | ⟨plaintext, e, hrun, hsound⟩
            · rw [hrun]
              exact sound_idle h
            · rw [hrun]
              exact hsound

end Steps

namespace Dialogue

/-- The ephemeral keys of a run: what the devices have left over for each other, and
    what the acts draw. -/
def ephemerals (dev : Bool → Device C) (acts : List DialogueAct) : List Bytes :=
  ephemeralsOf dev [] ++ acts.map (fun a => a.env.x25519Private)

/-- The nonces of a run. -/
def nonces (acts : List DialogueAct) : List Bytes := acts.map (fun a => a.env.nonce)

/-- The invariant holds before the first act. -/
theorem opened_sound (dev : Bool → Device C) (halign : ∀ side, (dev side).Aligned)
    (keys nonces : List Bytes)
    (hkeys : ∀ side k, (dev side).ephemeralPrivate.get? (dev !side).deviceId = some k → k ∈ keys) :
    (opened dev).Sound dev keys nonces
      (fun side => (dev side).ephemeralPrivate.get? (dev !side).deviceId) (fun _ => none) where
  agrees := agrees_opened dev halign keys nonces hkeys
  keeping := fun _ => keeping_none .idle rfl (by decide)
  fair := fun _ _ hs => absurd hs (Option.some_ne_none _).symm
  ascending := fun _ => List.Pairwise.nil
  numbered := fun _ _ hm => absurd hm List.not_mem_nil
  wires := fun _ _ hraw => absurd hraw List.not_mem_nil
  heard := fun _ _ hm => absurd hm List.not_mem_nil
  once := fun _ => List.nodup_nil

/-- Two established ends are paired, in both directions. -/
theorem Sound.paired {dev : Bool → Device C} {keys nonces : List Bytes} {x : Dialogue C}
    {g : Bool → Option Bytes} {S : Bool → Option Session} (h : x.Sound dev keys nonces g S)
    (hest : ∀ side, (x.exchange.ends side).proto.state = .established) :
    ∃ S : Bool → Session, ∀ side,
      Paired (x.exchange.ends side) (x.exchange.ends !side) (S side) (S !side) := by
  -- Both sides are established, so each of the two keeps a session.
  have hboth : ∀ side, ∃ s, S side = some s := by
    intro side
    rcases h.joined (hest side) with ⟨s, _, hs, _⟩
    exact ⟨s, hs⟩
  choose T hT using hboth
  refine ⟨T, fun side => ?_⟩
  rcases h.joined (hest side) with ⟨s, t, hs, ht, hkey, hmac, hpeer⟩
  rw [show T side = s from Option.some.inj ((hT side).symm.trans hs),
    show T (!side) = t from Option.some.inj ((hT !side).symm.trans ht)]
  have hfair := h.fair (!side) t ht
  have hback := ((h.keeping (!side) t).mp ht).session
  have hdrawn : drawn (S side) = s.localSequence := by
    rw [hs]
    rfl
  rw [Bool.not_not] at hfair hback
  -- Numbers drawn on one side bound the numbers recorded on the other.
  refine ⟨?_, ?_, ?_, hkey, hmac, ?_, ?_, fun n hn => ?_⟩
  · rw [(h.identified !side).2]
    exact hpeer
  · rw [(h.identified !side).2]
    exact ((h.keeping side s).mp hs).session
  · rw [(h.identified side).2]
    exact hback
  · rw [(h.identified side).1]
    exact hfair.identity
  · rw [← hdrawn]
    exact hfair.largest
  · rw [← hdrawn]
    exact hfair.recent n hn

end Dialogue

/-- In every run of two fresh protocols, from the first HELLO on and whatever the network
    does, in which packets with a tag are only asked of an established side (`Ready`) and
    no key of the one order of roles passes for one of the other (`Separates`): a message
    is heard at most once, and as it was said. A packet on the wire is returned to an
    established side exactly when the replay check of its session admits its number, and
    then as what was said under that number. And two established sides are paired in both
    directions. -/
theorem dialogue_delivers_once (C : Primitives) (priv : Bool → Bytes)
    (life : Bool → List LifeAct) (dev : Bool → Device C)
    (hdev : ∀ side, dev side = Device.after C (priv side) (life side))
    (hne : (dev false).deviceId ≠ (dev true).deviceId) (acts : List DialogueAct)
    (hsep : Separates dev (Dialogue.ephemerals dev acts) (Dialogue.nonces acts))
    (hready : Along Dialogue.step Dialogue.Ready (Dialogue.opened dev) acts) :
    let x := acts.foldl Dialogue.step (Dialogue.opened dev)
    (∀ side, ((x.heard side).map Prod.fst).Nodup ∧ ((x.said side).map Prod.fst).Nodup ∧
      ∀ m ∈ x.heard side, m ∈ x.said !side) ∧
    (∀ side, (x.exchange.ends side).proto.state = .established → ∀ raw ∈ x.wires !side,
      ∃ plaintext t, (wireSequence raw, plaintext) ∈ x.said !side ∧
        (x.exchange.ends side).device.sessions.get? (dev !side).deviceId = some t ∧
        ∀ env, ((Endpoint.receiveData env raw).run (x.exchange.ends side)).returned
          = if t.Admits env.receiveMs (wireSequence raw) (wireTimestamp raw) then some plaintext
            else none) ∧
    ((∀ side, (x.exchange.ends side).proto.state = .established) →
      ∃ S : Bool → Session, ∀ side,
        Paired (x.exchange.ends side) (x.exchange.ends !side) (S side) (S !side)) := by
  intro x
  have halign : ∀ t, (dev t).Aligned := by
    intro t
    rw [hdev t]
    exact Device.aligned_of_reachable C (priv t) (life t)
  have hleft : ∀ t k, (dev t).ephemeralPrivate.get? (dev !t).deviceId = some k →
      k ∈ Dialogue.ephemerals dev acts := by
    intro t k hk
    refine List.mem_append_left _ ?_
    cases t with
    | false => exact List.mem_append_left _ (Option.mem_toList.mpr hk)
    | true => exact List.mem_append_right _ (List.mem_append_left _ (Option.mem_toList.mpr hk))
  -- Every act draws from the keys and nonces that the acts name.
  have hdraws : Along Dialogue.step (fun _ a => a.env.x25519Private ∈ Dialogue.ephemerals dev acts ∧
      a.env.nonce ∈ Dialogue.nonces acts) (Dialogue.opened dev) acts :=
    along_of_forall _ acts (fun a ha =>
      ⟨List.mem_append_right _ (List.mem_map_of_mem ha), List.mem_map_of_mem ha⟩)
  -- The session that each side keeps is chosen along the run.
  have hrun := along_invariant
    (fun x => ∃ g S, Dialogue.Sound dev (Dialogue.ephemerals dev acts) (Dialogue.nonces acts) x g S)
    (fun x a hx ha => by
      rcases hx with ⟨g, S, h⟩
      exact dialogue_step (hsep.rejects hne) h a ha)
    (Dialogue.opened dev) acts ⟨_, _, Dialogue.opened_sound dev halign _ _ hleft⟩
    (along_and _ acts hdraws hready)
  rcases hrun with ⟨g, S, h⟩
  refine ⟨fun side => ⟨h.once side, (h.ascending side).nodup,
    fun m hm => (h.heard side m hm).1⟩, fun side hest raw hraw => ?_, h.paired⟩
  -- The packet was made around what was said under its number.
  rcases h.wires (!side) raw hraw with ⟨t, n, plaintext, p, ht, hmem, hdata, hw⟩
  rw [Bool.not_not] at ht
  have hget := ((h.keeping side t).mp ht).session
  rw [hw.wireSequence_eq]
  refine ⟨plaintext, t, hmem, hget, fun env => ?_⟩
  rcases receiveData_wraps _ env _ raw plaintext t n p hest hw hdata hget with
    ⟨hadmits, hres⟩ | ⟨hno, y, hres⟩
  · rw [hres, if_pos hadmits]
    rfl
  · rw [hres, if_neg hno]
    rfl

/-- The keys that the toy primitives derive for the two orders of roles are different
    ones. -/
theorem toyPair_separates (keys nonces : List Bytes)
    (hkeys : ∀ k ∈ keys, k = toyEnv.x25519Private) (hnonces : ∀ n ∈ nonces, n = toyEnv.nonce) :
    Separates toyPair keys nonces := by
  constructor
  · intro k hk k' hk'
    rw [hkeys k hk, hkeys k' hk']
    decide +kernel
  · intro k hk k' hk' secret hsecret nonce hnonce
    rw [hkeys k hk, hkeys k' hk'] at hsecret
    rw [hnonces nonce hnonce]
    revert secret
    decide +kernel

/-- A handshake, a message in either direction, the first of them handed over three
    times and the HELLO once more. Another message is on its way. -/
def greetThenTalk : List DialogueAct :=
  [.initiate false toyEnv, .process true toyEnv 0, .process false toyEnv 0, .process true toyEnv 1,
    .process false toyEnv 1, .say false toyEnv true [42], .say true toyEnv false [43],
    .hear true toyEnv 2, .hear true toyEnv 2, .process true toyEnv 2, .hear true toyEnv 0,
    .hear false toyEnv 2, .say false toyEnv false [44]]

/-- Either of the first messages is heard once, and the last one would be. -/
theorem greetThenTalk_delivers_once :
    let x := greetThenTalk.foldl Dialogue.step (Dialogue.opened toyPair)
    (x.heard true = [(1, [42])] ∧ x.heard false = [(1, [43])]) ∧
      (∀ side, ((x.heard side).map Prod.fst).Nodup ∧ ∀ m ∈ x.heard side, m ∈ x.said !side) ∧
      ∃ raw ∈ x.wires false,
        ((Endpoint.receiveData toyEnv raw).run (x.exchange.ends true)).returned = some [44] := by
  have hdev : ∀ side, toyPair side
      = Device.after toyPrimitives (if side then [1] else [7]) [] := by
    intro side
    simp only [toyPair, Device.after, List.foldl_nil, Host.create]
  have hdel := dialogue_delivers_once toyPrimitives (fun side => if side then [1] else [7])
    (fun _ => []) toyPair hdev (by decide +kernel) greetThenTalk
    (toyPair_separates _ _ (by decide +kernel) (by decide +kernel)) (by decide +kernel)
  have hrun : let x := greetThenTalk.foldl Dialogue.step (Dialogue.opened toyPair)
      (x.heard true = [(1, [42])] ∧ x.heard false = [(1, [43])]) ∧
        (x.exchange.ends true).proto.state = .established ∧
        x.said false = [(1, [42]), (2, [44])] ∧
        ∃ raw ∈ x.wires false, wireSequence raw = 2 ∧
          ∃ t ∈ (x.exchange.ends true).device.sessions.get? (toyPair false).deviceId,
            t.Admits toyEnv.receiveMs (wireSequence raw) (wireTimestamp raw) := by
    decide +kernel
  generalize greetThenTalk.foldl Dialogue.step (Dialogue.opened toyPair) = x at hdel hrun ⊢
  rcases hdel with ⟨honce, hreturned, _⟩
  rcases hrun with ⟨hheard, hest, hsaid, raw, hraw, hseq, t, ht, hadmits⟩
  refine ⟨hheard, fun side => ⟨(honce side).1, (honce side).2.2⟩, raw, hraw, ?_⟩
  rcases hreturned true hest raw hraw with ⟨plaintext, t', hmem, ht', hres⟩
  -- The session is the one that was evaluated, and the number tells the plaintext.
  have htt : t' = t := Option.some.inj (ht'.symm.trans ht)
  rw [hseq, Bool.not_true, hsaid] at hmem
  simp only [List.mem_cons, Prod.mk.injEq, Nat.reduceEqDiff, false_and, true_and, List.not_mem_nil,
    or_false, false_or] at hmem
  rw [hres toyEnv, htt, if_pos hadmits, hmem]

end Ztlnp
