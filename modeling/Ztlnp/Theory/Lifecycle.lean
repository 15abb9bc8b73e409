import Ztlnp.Theory.Handshake
import Ztlnp.Lib.Runs
import Mathlib.Data.List.Chain

/-!
# The Life of a Protocol

The diagram of the protocol machine, over everything that an application and the
network can do to a host.

The module documents a line of five states. There are two ways along it, one for
the initiator and one for the responder, and an ERROR packet leaves it anywhere.
No call ever goes back. So a protocol is in five states at most, whatever it
receives and whatever the other protocols of its device are doing.

What a protocol sends on its own is one HELLO and one KEY_EXCHANGE, in this
order, and no more: each belongs to one passage of the diagram. Two protocols
that hand each other their answers therefore stop after four packets. A
responder may be established without its confirmation, if that could not be
built.

A protocol that is closed or has failed stays so, and every packet handed to it
is refused before it is looked at.

## Main definitions

* `ProtocolState.Leads`: The diagram.
* `ParsesAs`: What kind of packet some bytes are.
* `Passage`: What a call does to the state, and what it sends.
* `Course`, `Course.step`: A host with the history of one of its protocols.
* `Course.Kept`: The invariant of a run.

## Theorems

* `initiate_passage`, `incoming_passage`: What the entry points do.
* `live_passage`: What any act does to one protocol.
* `course_step`: Every act keeps the invariant.
* `protocol_lifecycle`: The life of a protocol.
-/

namespace Ztlnp

variable {C : Primitives}

/-- The passages of the machine. -/
inductive ProtocolState.Leads : ProtocolState → ProtocolState → Prop
  | initiated : Leads .idle .helloSent
  | greeted : Leads .idle .helloReceived
  | exchanged : Leads .helloSent .keyExchangeSent
  | accepted : Leads .helloReceived .established
  | completed : Leads .keyExchangeSent .established
  | closed : Leads .established .closed
  | failed (s : ProtocolState) (hopen : s ≠ .closed ∧ s ≠ .error) : Leads s .error

/-- How far along the line a state is. -/
def ProtocolState.rank : ProtocolState → Nat
  | idle => 0
  | helloSent => 1
  | helloReceived => 1
  | keyExchangeSent => 2
  | established => 3
  | closed => 4
  | error => 4

/-- Every passage leads on. -/
theorem ProtocolState.Leads.rank_lt {s s' : ProtocolState} (h : s.Leads s') :
    s.rank < s'.rank := by
  cases h with
  | initiated | greeted | exchanged | accepted | completed | closed => decide
  | failed _ hopen =>
      cases s with
      | closed => exact absurd rfl hopen.1
      | error => exact absurd rfl hopen.2
      | idle | helloSent | helloReceived | keyExchangeSent | established => decide

/-- The bytes are a packet of a type, whenever they are parsed. -/
def ParsesAs (raw : Bytes) (t : PacketType) : Prop :=
  ∀ nowMs, ∃ p, Packet.fromBytes nowMs raw = .ok p ∧ p.ptype = t

/-- What a call does to the state of a protocol, and what it sends. -/
inductive Passage : ProtocolState → Option Bytes → ProtocolState → Prop
  | stays (s : ProtocolState) : Passage s none s
  | initiated (raw : Bytes) (hraw : ParsesAs raw .hello) : Passage .idle (some raw) .helloSent
  | greeted (raw : Bytes) (hraw : ParsesAs raw .hello) : Passage .idle (some raw) .helloReceived
  | exchanged (raw : Bytes) (hraw : ParsesAs raw .keyExchange) :
      Passage .helloSent (some raw) .keyExchangeSent
  | accepted (raw : Bytes) (hraw : ParsesAs raw .keyExchange) :
      Passage .helloReceived (some raw) .established
  /-- The confirmation of the responder could not be built. -/
  | unanswered : Passage .helloReceived none .established
  | completed : Passage .keyExchangeSent none .established
  | closed : Passage .established none .closed
  | failed (s : ProtocolState) (hopen : s ≠ .closed ∧ s ≠ .error) : Passage s none .error

/-- From a terminal state there is none, and nothing is sent there. -/
theorem Passage.of_terminal {s s' : ProtocolState} {raw : Option Bytes} (h : Passage s raw s')
    (hs : s = .closed ∨ s = .error) : s' = s ∧ raw = none := by
  cases h with
  | stays => exact ⟨rfl, rfl⟩
  | failed _ hopen => exact (not_or.mpr hopen hs).elim
  | initiated | greeted | exchanged | accepted | unanswered | completed | closed =>
      simp only [reduceCtorEq, or_self] at hs

theorem Passage.leads {s s' : ProtocolState} {raw : Option Bytes} (h : Passage s raw s')
    (hne : s' ≠ s) : s.Leads s' := by
  cases h with
  | stays => exact absurd rfl hne
  | initiated => exact .initiated
  | greeted => exact .greeted
  | exchanged => exact .exchanged
  | accepted | unanswered => exact .accepted
  | completed => exact .completed
  | closed => exact .closed
  | failed _ hopen => exact .failed s hopen

/-- What a protocol has sent, state by state. -/
def Told : ProtocolState → List PacketType → Prop
  | .idle, ts => ts = []
  | .helloSent, ts => ts = [.hello]
  | .helloReceived, ts => ts = [.hello]
  | .keyExchangeSent, ts => ts = [.hello, .keyExchange]
  | .established, ts => ts = [.hello] ∨ ts = [.hello, .keyExchange]
  | .closed, ts => ts = [.hello] ∨ ts = [.hello, .keyExchange]
  | .error, ts => ts <+: [.hello, .keyExchange]

/-- It is never more than the two packets of a handshake. -/
theorem Told.isPrefix {s : ProtocolState} {ts : List PacketType} (h : Told s ts) :
    ts <+: [.hello, .keyExchange] := by
  cases s with
  | idle =>
      rw [show ts = [] from h]
      exact List.nil_prefix
  | helloSent | helloReceived =>
      rw [show ts = [.hello] from h]
      decide
  | keyExchangeSent => rw [show ts = [.hello, .keyExchange] from h]
  | established | closed =>
      rcases (h : ts = [.hello] ∨ ts = [.hello, .keyExchange]) with rfl | rfl
      · decide
      · decide
  | error => exact h

/-- A passage sends what its state is still to send. -/
theorem Passage.told {s s' : ProtocolState} {raw : Option Bytes} {sent : List Bytes}
    {ts : List PacketType} (h : Passage s raw s') (ht : Told s ts)
    (hsent : List.Forall₂ ParsesAs sent ts) :
    ∃ ts', Told s' ts' ∧ List.Forall₂ ParsesAs (sent ++ raw.toList) ts' := by
  have hnone : List.Forall₂ ParsesAs (sent ++ (none : Option Bytes).toList) ts := by
    rw [Option.toList_none, List.append_nil]
    exact hsent
  -- One more packet at the end of those sent before.
  have hsome : ∀ b t, ParsesAs b t →
      List.Forall₂ ParsesAs (sent ++ (some b).toList) (ts ++ [t]) := by
    intro b t hb
    exact List.rel_append hsent (.cons hb .nil)
  cases h with
  | stays => exact ⟨ts, ht, hnone⟩
  | initiated b hb | greeted b hb =>
      refine ⟨_, ?_, hsome b _ hb⟩
      rw [show ts = [] from ht]
      rfl
  | exchanged b hb =>
      refine ⟨_, ?_, hsome b _ hb⟩
      rw [show ts = [.hello] from ht]
      rfl
  | accepted b hb =>
      refine ⟨_, ?_, hsome b _ hb⟩
      rw [show ts = [.hello] from ht]
      exact Or.inr rfl
  | unanswered => exact ⟨ts, Or.inl ht, hnone⟩
  | completed => exact ⟨ts, Or.inr ht, hnone⟩
  | closed => exact ⟨ts, ht, hnone⟩
  | failed => exact ⟨ts, ht.isPrefix, hnone⟩

section Endpoints

variable {d : Device C} {raw : Bytes} {p : Packet}

theorem HelloFor.parsesAs {k : Bytes} (h : HelloFor d k raw p) : ParsesAs raw .hello :=
  fun nowMs => ⟨p, h.parses nowMs, h.ptype⟩

theorem ConfirmationFor.parsesAs {env : Env} {sessionKey : Bytes}
    (h : ConfirmationFor d env sessionKey raw p) : ParsesAs raw .keyExchange :=
  fun nowMs => ⟨p, h.parses nowMs, h.ptype⟩

variable {e : Endpoint C} {env : Env}

/-- What a call that initiates does. -/
theorem initiate_passage (peerId : Bytes) (halign : e.device.Aligned) :
    let r := (Endpoint.initiate env peerId).run e
    Passage e.proto.state r.returned r.final.proto.state := by
  intro r
  by_cases hidle : e.proto.state = .idle
  · rcases Endpoint.initiate_cases env peerId e halign hidle with ⟨_, p, raw, hp, hrun⟩ |
      ⟨_, x, hrun⟩
    · rw [show r = _ from hrun, hidle]
      exact .initiated raw hp.parsesAs
    · rw [show r = _ from hrun]
      exact .stays _
  · rcases Endpoint.initiate_busy env peerId e hidle with ⟨x, hrun⟩
    rw [show r = _ from hrun]
    exact .stays _

/-- What a HELLO does. -/
theorem hello_passage (halign : e.device.Aligned) :
    let r := (Endpoint.handleHello env p).run e
    Passage e.proto.state r.returned.join r.final.proto.state := by
  intro r
  by_cases hlen : 64 ≤ p.payload.length
  · by_cases hidle : e.proto.state = .idle
    · rcases Endpoint.handleHello_idle_cases env p e halign hlen hidle with
        ⟨_, q, b, hq, hrun⟩ | ⟨_, x, hrun⟩
      · rw [show r = _ from hrun, hidle]
        exact .greeted b hq.parsesAs
      · rw [show r = _ from hrun]
        exact .stays _
    · by_cases hsent : e.proto.state = .helloSent
      · rcases Endpoint.handleHello_helloSent_cases env p e halign hlen hsent with
          ⟨x, _, hrun⟩ | ⟨s, _, ⟨_, q, b, hq, hrun⟩ | ⟨_, x, hrun⟩⟩
        · rw [show r = _ from hrun]
          exact .stays _
        · rw [show r = _ from hrun, hsent]
          exact .exchanged b hq.parsesAs
        · rw [show r = _ from hrun]
          exact .stays _
      · rcases Endpoint.handleHello_unexpected env p e hlen hidle hsent with ⟨x, hrun⟩
        rw [show r = _ from hrun]
        exact .stays _
  · -- A HELLO that is too short is refused before anything is written.
    have hrun : r = .error ⟨.handshakeError, "HELLO payload too short (expected 64 bytes)"⟩ e := by
      simp only [r, Endpoint.handleHello, if_pos (not_le.mp hlen)]
      rfl
    rw [hrun]
    exact .stays _

/-- What a KEY_EXCHANGE does. -/
theorem keyExchange_passage (halign : e.device.Aligned) :
    let r := (Endpoint.handleKeyExchange env p).run e
    Passage e.proto.state r.returned.join r.final.proto.state := by
  intro r
  have hr : (Endpoint.handleKeyExchange env p).run e = r := rfl
  have hout : Endpoint.KeyExchangeOutcome env p e r := Endpoint.handleKeyExchange_outcome env p e
  clear_value r
  cases hout with
  | refused | halfway | stale | unconfirmed | unanswered | unexpected => exact .stays _
  | answered hstate =>
      rw [hstate]
      exact .completed
  | established peerId s _ hstate hcomp _ hadmits hplain _ =>
      -- Established in any case, with or without a confirmation of its own.
      rcases Endpoint.handleKeyExchange_confirms env p e peerId s halign hstate hcomp hadmits
        hplain with ⟨_, q, b, hq, hrun⟩ | ⟨_, x, hrun⟩
      · rw [hr] at hrun
        rw [hrun, hstate]
        exact .accepted b hq.parsesAs
      · rw [hr] at hrun
        rw [hrun, hstate]
        exact .unanswered

/-- What an incoming packet does. -/
theorem incoming_passage (halign : e.device.Aligned) :
    let r := (Endpoint.processIncoming env raw).run e
    Passage e.proto.state r.returned.join r.final.proto.state := by
  intro r
  rcases Endpoint.processIncoming_cases env raw e with ⟨x, hrun⟩ | ⟨hopen, q, d', hrec, hrun⟩
  · rw [show r = _ from hrun]
    exact .stays _
  · have halign' := Device.received_aligned _ d' _ _ _ hrec halign
    have hout := Endpoint.dispatch_outcome env q { e with device := d' }
    rw [show r = _ from hrun]
    -- The two kinds of handshake packets have handlers of their own.
    by_cases hhello : q.ptype = .hello
    · simp only [Endpoint.dispatch, hhello]
      exact hello_passage (e := { e with device := d' }) halign'
    · by_cases hke : q.ptype = .keyExchange
      · simp only [Endpoint.dispatch, hke]
        exact keyExchange_passage (e := { e with device := d' }) halign'
      · generalize (Endpoint.dispatch env q).run { e with device := d' } = s at hout
        cases hout with
        | hello _ htype => exact absurd htype hhello
        | keyExchange _ htype => exact absurd htype hke
        | accepted | rejected => exact .stays _
        | error => exact .failed _ hopen
        | bye =>
            simp only [EStateM.Result.returned, Option.join_some, EStateM.Result.final,
              Endpoint.afterBye]
            by_cases hest : e.proto.state = .established
            · rw [if_pos hest, hest]
              exact .closed
            · rw [if_neg hest]
              exact .stays _

end Endpoints

/-- What an act makes a protocol send of the handshake. -/
def Host.replied (h : Host C) (i : Nat) : LifeAct → Option Bytes
  | .act (.initiate j env peerId) =>
    if j = i then ((Endpoint.initiate env peerId).run (h.endpoint j)).returned else none
  | .act (.processIncoming j env raw) =>
    if j = i then (h.incoming j env raw).returned.join else none
  | _ => none

/-- What any act does to one protocol. -/
theorem live_passage (h : Host C) (halign : h.device.Aligned) (i : Nat) (a : LifeAct) :
    Passage (h.protocols i).state (h.replied i a) ((h.live a).protocols i).state := by
  cases a with
  | rotateKey | generateEphemeralKeypair | registerPendingPeer | completeKeyExchange =>
      exact .stays _
  | act a =>
      cases a with
      | receivePacket | build | removeSession => exact .stays _
      | initiate j env peerId =>
          simp only [Host.live, Host.step, Host.replied]
          by_cases hj : j = i
          · subst hj
            rw [if_pos rfl, Host.put_protocols_self]
            exact initiate_passage (e := h.endpoint j) peerId halign
          · rw [if_neg hj, Host.put_protocols_ne _ _ (Ne.symm hj)]
            exact .stays _
      | processIncoming j env raw =>
          simp only [Host.live, Host.step, Host.replied]
          by_cases hj : j = i
          · subst hj
            rw [if_pos rfl, Host.put_protocols_self]
            exact incoming_passage (e := h.endpoint j) halign
          · rw [if_neg hj, Host.put_protocols_ne _ _ (Ne.symm hj)]
            exact .stays _
      -- Data is exchanged without a look at the state afterwards.
      | sendData j env plaintext =>
          have hstate : ((Endpoint.sendData env plaintext).run (h.endpoint j)).final.proto
              = h.protocols j := by
            rcases Endpoint.sendData_final env plaintext (h.endpoint j) with hf | ⟨_, _, _, hf⟩
            · rw [hf]
              rfl
            · rw [hf]
              rfl
          simp only [Host.live, Host.step, Host.replied]
          by_cases hj : j = i
          · subst hj
            rw [Host.put_protocols_self, hstate]
            exact .stays _
          · rw [Host.put_protocols_ne _ _ (Ne.symm hj)]
            exact .stays _
      | receiveData j env raw =>
          have hstate : ((Endpoint.receiveData env raw).run (h.endpoint j)).final.proto
              = h.protocols j := by
            rcases Endpoint.receiveData_final env raw (h.endpoint j) with hf | ⟨_, _, _, hf⟩
            · rw [hf]
              rfl
            · rw [hf]
              rfl
          simp only [Host.live, Host.step, Host.replied]
          by_cases hj : j = i
          · subst hj
            rw [Host.put_protocols_self, hstate]
            exact .stays _
          · rw [Host.put_protocols_ne _ _ (Ne.symm hj)]
            exact .stays _

/-- A host with the states that one of its protocols has been in, and what that
    protocol has sent of the handshake. -/
structure Course (C : Primitives) where
  host : Host C
  states : List ProtocolState
  sent : List Bytes

namespace Course

/-- A new host. -/
def opened (C : Primitives) (identityPrivate : Bytes) : Course C where
  host := Host.create C identityPrivate
  states := [.idle]
  sent := []

/-- One act. -/
def step (i : Nat) (c : Course C) (a : LifeAct) : Course C where
  host := c.host.live a
  states :=
    if ((c.host.live a).protocols i).state = (c.host.protocols i).state then c.states
    else c.states ++ [((c.host.live a).protocols i).state]
  sent := c.sent ++ (c.host.replied i a).toList

/-- The invariant: the states are a path of the diagram to where the protocol is, and
    the packets are those that belong to it. -/
structure Kept (i : Nat) (c : Course C) : Prop where
  aligned : c.host.device.Aligned
  path : c.states.IsChain ProtocolState.Leads
  head : c.states.head? = some .idle
  last : c.states.getLast? = some (c.host.protocols i).state
  short : c.states.length ≤ (c.host.protocols i).state.rank + 1
  told : ∃ ts, Told (c.host.protocols i).state ts ∧ List.Forall₂ ParsesAs c.sent ts

end Course

/-- Every act keeps the invariant. -/
theorem course_step (i : Nat) (c : Course C) (a : LifeAct) (h : c.Kept i) :
    (c.step i a).Kept i := by
  -- The invariant is kept by what one act does to the state, whichever act it is.
  have hpassage := live_passage c.host h.aligned i a
  rcases h.told with ⟨ts, htold, hsent⟩
  have haligned := c.host.aligned_live a h.aligned
  have htold' := hpassage.told htold hsent
  by_cases hsame : ((c.host.live a).protocols i).state = (c.host.protocols i).state
  · have hstates : (c.step i a).states = c.states := if_pos hsame
    refine ⟨haligned, ?_, ?_, ?_, ?_, htold'⟩
    · rw [hstates]
      exact h.path
    · rw [hstates]
      exact h.head
    · rw [hstates, h.last]
      exact congrArg some hsame.symm
    · rw [hstates]
      exact h.short.trans_eq (congrArg (fun s => ProtocolState.rank s + 1) hsame.symm)
  · have hstates : (c.step i a).states = c.states ++ [((c.host.live a).protocols i).state] :=
      if_neg hsame
    have hleads := hpassage.leads hsame
    refine ⟨haligned, ?_, ?_, ?_, ?_, htold'⟩
    · rw [hstates]
      refine h.path.append (List.isChain_singleton _) (fun s hs s' hs' => ?_)
      rw [h.last, Option.mem_some_iff] at hs
      rw [List.head?_cons, Option.mem_some_iff] at hs'
      rw [← hs, ← hs']
      exact hleads
    · rw [hstates, List.head?_append, h.head]
      rfl
    · rw [hstates]
      exact List.getLast?_concat
    · rw [hstates, List.length_append, List.length_singleton]
      -- Each change raises the rank, so the path is never longer than the rank allows.
      have hrank := hleads.rank_lt
      have hshort := h.short
      simp only [Course.step]
      omega

/-- The invariant holds of a new host. -/
theorem opened_kept (C : Primitives) (identityPrivate : Bytes) (i : Nat) :
    (Course.opened C identityPrivate).Kept i where
  aligned := Device.aligned_of_reachable C identityPrivate []
  path := List.isChain_singleton _
  head := rfl
  last := rfl
  short := le_rfl
  told := ⟨[], rfl, .nil⟩

/-- In every run of a host, whatever it receives and whatever is done with its device and
    its other protocols: the states of a protocol are a path of the diagram from IDLE, of
    five states at most. What it sends on its own is a HELLO and then a KEY_EXCHANGE at
    most. And once it is closed or has failed it refuses every packet before it looks at
    it, stays where it is and sends nothing. -/
theorem protocol_lifecycle (C : Primitives) (identityPrivate : Bytes) (i : Nat)
    (acts : List LifeAct) :
    let c := acts.foldl (Course.step i) (Course.opened C identityPrivate)
    let state := (c.host.protocols i).state
    (c.states.IsChain ProtocolState.Leads ∧ c.states.head? = some .idle ∧
      c.states.getLast? = some state ∧ c.states.length ≤ 5) ∧
    (∃ ts, ts <+: [.hello, .keyExchange] ∧ List.Forall₂ ParsesAs c.sent ts) ∧
    (state = .closed ∨ state = .error →
      (∀ env raw, ∃ x, c.host.incoming i env raw = .error x (c.host.endpoint i)) ∧
        ∀ more : List LifeAct, (more.foldl (Course.step i) c).states = c.states ∧
          (more.foldl (Course.step i) c).sent = c.sent) := by
  intro c state
  have hkept := along_invariant (Course.Kept (C := C) i) (fun c a h _ => course_step i c a h) _
    acts (opened_kept C identityPrivate i) (along_true _ acts)
  have hshort : c.states.length ≤ 5 := by
    have hrank : state.rank ≤ 4 := by
      cases state with
      | idle | helloSent | helloReceived | keyExchangeSent | established | closed | error => decide
    have hlength : c.states.length ≤ state.rank + 1 := hkept.short
    omega
  rcases hkept.told with ⟨ts, htold, hsent⟩
  refine ⟨⟨hkept.path, hkept.head, hkept.last, hshort⟩, ⟨ts, htold.isPrefix, hsent⟩,
    fun hterm => ⟨fun env raw =>
      Endpoint.processIncoming_terminal env raw (c.host.endpoint i) hterm, fun more => ?_⟩⟩
  -- No act leads out of a terminal state.
  have hrun := along_invariant
    (fun c' : Course C => c'.Kept i ∧ (c'.host.protocols i).state = state ∧
      c'.states = c.states ∧ c'.sent = c.sent)
    (fun c' a h _ => by
      rcases h with ⟨hk, hstate, hstates, hsent⟩
      have hpassage := live_passage c'.host hk.aligned i a
      rcases hpassage.of_terminal (by rw [hstate]; exact hterm) with ⟨hstays, hnone⟩
      refine ⟨course_step i c' a hk, hstays.trans hstate, (if_pos hstays).trans hstates, ?_⟩
      rw [← hsent]
      simp only [Course.step, hnone, Option.toList_none, List.append_nil])
    c more ⟨hkept, rfl, rfl, rfl⟩ (along_true _ more)
  exact ⟨hrun.2.2.1, hrun.2.2.2⟩

end Ztlnp
