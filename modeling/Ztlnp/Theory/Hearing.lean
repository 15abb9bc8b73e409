import Ztlnp.Theory.Routes
import Mathlib.Algebra.Order.Ring.Pow
import Mathlib.Tactic.NormNum

/-!
# What an Announcement Can Change

What a router lets an announcement do, whatever its bytes are.

An announcement arrives over a transport from an address, and every route it
makes is one over that pair, its port. So all it can change at a destination
is the route over this port: the routes over other ports stay as they are and
where they are, and destinations it does not name stay as they were. A
destination that it names several times is given the route of the last time.
What it names is said of its bytes: a payload is a row of slots of 34 bytes,
each an identifier of 32 bytes and a hop count of two.
None of this asks who the sender is, only that at each destination no port is
taken twice, which holds of any router whose table was built by calls
(`Router.run_ported`).

What a route says is bounded as well. The trust of the sender is capped before
it decays, and the hop count is one more than the count in the payload, so no
announcement makes a route without a score.

## Main definitions

* `RouterAct`, `Router.step`: A history of calls on a router and its table.
* `Router.Ported`: No port is taken twice.
* `Router.Capped`: A route that says no more than the cap allows.
* `Router.nameAt`, `Router.hopsAt`: What is in a slot of a payload.
* `Router.Hears`: What processing a payload does to a router.

## Theorems

* `Router.run_ported`: The invariant of a router.
* `Router.learnedRoute_capped`: What a learned route says.
* `Router.unpackEntries_slots`: The parser reads the slots in order.
* `Router.hears_processAnnouncePayload`: What a payload does.
* `announcement_confined`: The same after any history of calls.
-/

namespace Ztlnp

/-- A call that changes a router, or its table directly. -/
inductive RouterAct
  | add (entry : RouteEntry)
  | remove (deviceId : Bytes)
  | addDirectRoute (now : Rat) (deviceId : Bytes) (transport : Nat) (nextHopAddr : Bytes)
      (trustScore latencyMs : Rat)
  | processAnnounce (now : Bytes → Rat) (payload : Bytes) (viaTransport : Nat)
      (viaAddr : Bytes) (senderTrustScore : Rat)

namespace Router

/-- What one call does. -/
def step (r : Router) : RouterAct → Router
  | .add entry => { r with table := r.table.add entry }
  | .remove deviceId => { r with table := r.table.remove deviceId }
  | .addDirectRoute now deviceId transport nextHopAddr trustScore latencyMs =>
    ((addDirectRoute now deviceId transport nextHopAddr trustScore latencyMs).run r).final
  | .processAnnounce now payload viaTransport viaAddr senderTrustScore =>
    ((processAnnouncePayload now payload viaTransport viaAddr senderTrustScore).run r).final

/-- At each destination no port is taken twice. -/
def Ported (r : Router) : Prop :=
  ∀ d, ((r.table.allRoutes d).map RouteEntry.port).Nodup

/-- Adding many routes adds, at each destination, those for it. -/
theorem allRoutes_foldl_put (es : List RouteEntry) (t : RouteTable) (d : Bytes) :
    (es.foldl RouteTable.add t).allRoutes d
      = (es.filter (fun e => e.deviceId = d)).foldl
          (fun l e => Keyed.put RouteEntry.port e l) (t.allRoutes d) := by
  simp only [RouteTable.allRoutes_foldl_add, upsertRoute_eq]

theorem ported_foldl_add (r : Router) (es : List RouteEntry) (h : r.Ported) :
    Ported { r with table := es.foldl RouteTable.add r.table } := by
  intro d
  simp only [allRoutes_foldl_put]
  exact Keyed.nodup_foldl_put _ _ (h d)

theorem processAnnouncePayload_run (r : Router) (now : Bytes → Rat) (payload : Bytes) (t : Nat)
    (a : Bytes) (s : Rat) (hlen : payload.length % entrySize = 0) :
    (processAnnouncePayload now payload t a s).run r
      = .ok (r.learnedRoutes now payload t a s)
          { r with table := (r.learnedRoutes now payload t a s).foldl RouteTable.add r.table } := by
  simp only [processAnnouncePayload, hlen, ne_eq, not_true_eq_false, if_false]
  rfl

/-- A payload of any other length is refused, and nothing is learned. -/
theorem processAnnouncePayload_refused (r : Router) (now : Bytes → Rat) (payload : Bytes)
    (t : Nat) (a : Bytes) (s : Rat) (hlen : payload.length % entrySize ≠ 0) :
    ∃ message, (processAnnouncePayload now payload t a s).run r
      = .error ⟨.routingError, message⟩ r := by
  simp only [processAnnouncePayload, hlen, ne_eq, not_false_eq_true, if_true]
  exact ⟨_, rfl⟩

theorem step_ported (r : Router) (act : RouterAct) (h : r.Ported) : (r.step act).Ported := by
  cases act with
  | add entry => exact ported_foldl_add r [entry] h
  | remove deviceId =>
      intro d
      simp only [step, RouteTable.allRoutes_remove]
      by_cases hd : d = deviceId
      · rw [if_pos hd]
        exact List.nodup_nil
      · rw [if_neg hd]
        exact h d
  | addDirectRoute now deviceId transport nextHopAddr trustScore latencyMs =>
      exact ported_foldl_add r [_] h
  | processAnnounce now payload viaTransport viaAddr senderTrustScore =>
      rw [step]
      by_cases hlen : payload.length % entrySize = 0
      · rw [processAnnouncePayload_run r now payload viaTransport viaAddr senderTrustScore hlen]
        exact ported_foldl_add r _ h
      · rcases processAnnouncePayload_refused r now payload viaTransport viaAddr senderTrustScore
          hlen with ⟨message, hrun⟩
        rw [hrun]
        exact h

/-- Whatever is called on a router, no port is taken twice. -/
theorem run_ported (acts : List RouterAct) (r : Router) (h : r.Ported) :
    (acts.foldl step r).Ported :=
  along_invariant Ported (fun r act h _ => step_ported r act h) r acts h (along_true r acts)

/-- A route to a destination over a port, learned from an entry with a number
    of hops and with the trust the cap leaves of that of the sender. -/
structure Capped (cap senderTrustScore : Rat) (d : Bytes) (port : Nat × Bytes) (hops : Nat)
    (e : RouteEntry) : Prop where
  destination : e.deviceId = d
  via : e.port = port
  hopCount : e.hopCount = hops + 1
  trust : e.trustScore = min senderTrustScore cap * (9 / 10) ^ hops
  trust_nonneg : 0 ≤ e.trustScore
  trust_le : e.trustScore ≤ cap
  defined : (e.hopCount : Rat) * max e.latencyMs 1 ≠ 0
  score_le : e.score ≤ cap / e.hopCount

/-- What a learned route says. -/
theorem learnedRoute_capped (r : Router) (now : Bytes → Rat) (t : Nat) (a : Bytes) (s : Rat)
    (hs : 0 ≤ s) (d : Bytes) (hops : Nat) :
    Capped r.maxAdvertisedTrust s d (t, a) hops
      (learnedRoute now t a (min s r.maxAdvertisedTrust) (d, hops)) := by
  have hcapped : 0 ≤ min s r.maxAdvertisedTrust := le_min hs r.trust_nonneg
  have hdecay : (9 / 10 : Rat) ^ hops ≤ 1 := pow_le_one₀ (by norm_num) (by norm_num)
  have hle : min s r.maxAdvertisedTrust * (9 / 10) ^ hops ≤ r.maxAdvertisedTrust :=
    (mul_le_of_le_one_right hcapped hdecay).trans (min_le_right _ _)
  -- The cap is at most one, so the second clamp does nothing.
  have htrust : min (min s r.maxAdvertisedTrust * (9 / 10) ^ hops) 1
      = min s r.maxAdvertisedTrust * (9 / 10) ^ hops := min_eq_left (hle.trans r.trust_le_one)
  have hnonneg : 0 ≤ min s r.maxAdvertisedTrust * (9 / 10) ^ hops :=
    mul_nonneg hcapped (pow_nonneg (by norm_num) _)
  refine ⟨rfl, rfl, rfl, htrust, ?_, ?_, RouteEntry.score_defined _ (Nat.succ_pos hops), ?_⟩
  · exact hnonneg.trans_eq htrust.symm
  · exact htrust.trans_le hle
  · have hlatency : max (0 : Rat) 1 = 1 := max_eq_right zero_le_one
    simp only [RouteEntry.score, learnedRoute, htrust, hlatency, mul_one]
    exact div_le_div_of_nonneg_right hle (Nat.cast_nonneg _)

/-- The identifier in a slot of a payload. -/
def nameAt (payload : Bytes) (i : Nat) : Bytes := field payload (34 * i) 32

/-- The hop count in a slot of a payload, which follows the identifier. -/
def hopsAt (payload : Bytes) (i : Nat) : Nat := beDecode (field payload (34 * i + 32) 2)

/-- The parser reads the slots in order. -/
theorem unpackEntries_slots (payload : Bytes) :
    unpackEntries payload
      = (List.range (payload.length / 34)).map (fun i => (nameAt payload i, hopsAt payload i)) :=
  rfl

theorem mem_unpackEntries (payload : Bytes) (x : Bytes × Nat) :
    x ∈ unpackEntries payload ↔
      ∃ i < payload.length / 34, (nameAt payload i, hopsAt payload i) = x := by
  simp only [unpackEntries_slots, List.mem_map, List.mem_range]

/-- The entries in front of a slot, the slot itself, and the ones behind it. -/
theorem unpackEntries_split (payload : Bytes) (i : Nat) (hi : i < payload.length / 34) :
    ∃ before after, unpackEntries payload
        = before ++ (nameAt payload i, hopsAt payload i) :: after ∧
      ∀ x ∈ after, ∃ j, i < j ∧ j < payload.length / 34 ∧ x.1 = nameAt payload j := by
  have hlen : i < (unpackEntries payload).length := by
    rw [unpackEntries_slots, List.length_map, List.length_range]
    exact hi
  have hslot : (unpackEntries payload)[i] = (nameAt payload i, hopsAt payload i) := by
    simp only [unpackEntries_slots, List.getElem_map, List.getElem_range]
  refine ⟨(unpackEntries payload).take i, (unpackEntries payload).drop (i + 1), ?_, fun x hx => ?_⟩
  · rw [← hslot, ← List.drop_eq_getElem_cons hlen, List.take_append_drop]
  · -- What is dropped up to a slot leaves the slots further along.
    rcases List.mem_iff_getElem.mp hx with ⟨k, hk, rfl⟩
    rw [List.length_drop, unpackEntries_slots, List.length_map, List.length_range] at hk
    refine ⟨i + 1 + k, by omega, by omega, ?_⟩
    simp only [List.getElem_drop, unpackEntries_slots, List.getElem_map, List.getElem_range]

/-- What processing a payload does to a router. -/
structure Hears (r r' : Router) (payload : Bytes) (t : Nat) (a : Bytes) (s : Rat) : Prop where
  /-- Routes over other ports stay, in place. -/
  frame : ∀ d, (r'.table.allRoutes d).filter (fun e => e.port ≠ (t, a))
    = (r.table.allRoutes d).filter (fun e => e.port ≠ (t, a))
  /-- No route to the router itself is made. -/
  self : r'.table.allRoutes r.localId = r.table.allRoutes r.localId
  /-- What no slot names stays. -/
  unnamed : ∀ d, (∀ i < payload.length / 34, nameAt payload i ≠ d) →
    r'.table.allRoutes d = r.table.allRoutes d
  /-- What a slot names has one route over the port, that of its last slot. -/
  named : ∀ i < payload.length / 34, nameAt payload i ≠ r.localId →
    (∀ j < payload.length / 34, i < j → nameAt payload j ≠ nameAt payload i) →
    ∃ e, (r'.table.allRoutes (nameAt payload i)).filter (fun e => e.port = (t, a)) = [e] ∧
      Capped r.maxAdvertisedTrust s (nameAt payload i) (t, a) (hopsAt payload i) e

/-- The routes that are learned for one destination, in the order of their
    entries. -/
theorem filter_learnedRoutes (r : Router) (now : Bytes → Rat) (payload : Bytes) (t : Nat)
    (a : Bytes) (s : Rat) (d : Bytes) :
    (r.learnedRoutes now payload t a s).filter (fun e => e.deviceId = d)
      = ((unpackEntries payload).filter (fun x => x.1 = d ∧ d ≠ r.localId)).map
          (learnedRoute now t a (min s r.maxAdvertisedTrust)) := by
  rw [learnedRoutes, List.filter_map, List.filter_filter]
  congr 1
  refine List.filter_congr (fun x _ => ?_)
  rw [Function.comp_apply, ← Bool.decide_and, decide_eq_decide]
  exact and_congr_right (fun hx => by rw [← hx]; rfl)

/-- Processing a payload that can be read. -/
theorem hears_processAnnouncePayload (r : Router) (now : Bytes → Rat) (payload : Bytes) (t : Nat)
    (a : Bytes) (s : Rat) (hr : r.Ported) (hs : 0 ≤ s)
    (hlen : payload.length % entrySize = 0) :
    ∃ updated r', (processAnnouncePayload now payload t a s).run r = .ok updated r' ∧
      Hears r r' payload t a s := by
  refine ⟨_, _, processAnnouncePayload_run r now payload t a s hlen, fun d => ?_, ?_,
    fun d hd => ?_, fun i hi hlocal hlast => ?_⟩
  · simp only [allRoutes_foldl_put, filter_learnedRoutes]
    refine Keyed.filter_foldl_put_of_ne _ _ _ _ (fun e he => ?_)
    rcases List.mem_map.mp he with ⟨x, _, rfl⟩
    rfl
  · have hnone : (unpackEntries payload).filter
        (fun x => x.1 = r.localId ∧ r.localId ≠ r.localId) = [] :=
      List.filter_eq_nil_iff.mpr (fun x _ hx => (of_decide_eq_true hx).2 rfl)
    simp only [allRoutes_foldl_put, filter_learnedRoutes, hnone]
    rfl
  · have hnone : (unpackEntries payload).filter (fun x => x.1 = d ∧ d ≠ r.localId) = [] := by
      refine List.filter_eq_nil_iff.mpr (fun x hx hc => ?_)
      rcases (mem_unpackEntries payload x).mp hx with ⟨i, hi, rfl⟩
      exact hd i hi (of_decide_eq_true hc).1
    simp only [allRoutes_foldl_put, filter_learnedRoutes, hnone]
    rfl
  · refine ⟨_, ?_, learnedRoute_capped r now t a s hs (nameAt payload i) (hopsAt payload i)⟩
    rcases unpackEntries_split payload i hi with ⟨before, after, hsplit, hafter⟩
    generalize nameAt payload i = d at hlocal hlast hsplit ⊢
    generalize hopsAt payload i = hops at hsplit ⊢
    -- Behind its last slot nothing names the destination.
    have hrest : after.filter (fun y => y.1 = d ∧ d ≠ r.localId) = [] := by
      refine List.filter_eq_nil_iff.mpr (fun y hy hc => ?_)
      rcases hafter y hy with ⟨j, hij, hj, hyj⟩
      exact hlast j hj hij (hyj.symm.trans (of_decide_eq_true hc).1)
    have hnow : ((d, hops) :: after).filter (fun y => y.1 = d ∧ d ≠ r.localId)
        = [(d, hops)] := by
      have hkeep : decide (d = d ∧ d ≠ r.localId) = true := decide_eq_true ⟨rfl, hlocal⟩
      rw [List.filter_cons, if_pos hkeep, hrest]
    simp only [allRoutes_foldl_put, filter_learnedRoutes, hsplit, List.filter_append, hnow,
      List.map_append]
    exact Keyed.filter_foldl_put_concat RouteEntry.port _
      (learnedRoute now t a (min s r.maxAdvertisedTrust) (d, hops)) (hr d)

end Router

/-- After any history of calls, an announcement changes routes over its own
    port only, or nothing at all. -/
theorem announcement_confined (localId : Bytes) (staleAfter cap : Rat) (r₀ : Router)
    (hcreate : Router.create localId (some { staleAfter }) cap = .ok r₀) (acts : List RouterAct)
    (now : Bytes → Rat) (payload : Bytes) (t : Nat) (a : Bytes) (s : Rat) (hs : 0 ≤ s) :
    let r := acts.foldl Router.step r₀
    (payload.length % 34 ≠ 0 →
      ∃ message, (Router.processAnnouncePayload now payload t a s).run r
        = .error ⟨.routingError, message⟩ r) ∧
    (payload.length % 34 = 0 →
      ∃ updated r', (Router.processAnnouncePayload now payload t a s).run r = .ok updated r' ∧
        r.Hears r' payload t a s) := by
  intro r
  have hstart : r₀.Ported := by
    rw [Router.create] at hcreate
    split at hcreate
    · cases hcreate
      exact fun d => List.nodup_nil
    · cases hcreate
  exact ⟨Router.processAnnouncePayload_refused r now payload t a s,
    Router.hears_processAnnouncePayload r now payload t a s (Router.run_ported acts r₀ hstart) hs⟩

/-- A payload that names the device twice, and the router itself in between. -/
def namedTwice : Bytes :=
  List.replicate 32 1 ++ [0, 4] ++ (List.replicate 32 0 ++ [0, 0]) ++
    (List.replicate 32 1 ++ [0, 2])

/-- The last time counts: the device is three hops away over the port of the
    announcement, its direct route is as it was, and the router has no route to
    itself. Cut off by one byte, the payload is refused. -/
theorem announcement_confined_twice :
    ∃ r₀, Router.create (List.replicate 32 0) (some { staleAfter := 300 }) (95 / 100) = .ok r₀ ∧
      let r := [RouterAct.addDirectRoute 0 (List.replicate 32 1) 7 [] 1 0].foldl Router.step r₀
      (∃ updated r' direct heard,
        (Router.processAnnouncePayload (fun _ => 0) namedTwice 0 [] 1).run r = .ok updated r' ∧
          (r'.table.allRoutes (List.replicate 32 1)).filter (fun e => e.port ≠ (0, [])) = [direct] ∧
          direct.port = (7, []) ∧ direct.hopCount = 1 ∧ direct.trustScore = 1 ∧
          (r'.table.allRoutes (List.replicate 32 1)).filter (fun e => e.port = (0, [])) = [heard] ∧
          heard.hopCount = 3 ∧ heard.trustScore = 7695 / 10000 ∧ heard.score ≤ 95 / 300 ∧
          r'.table.allRoutes (List.replicate 32 0) = [] ∧
          r'.table.allRoutes (List.replicate 32 2) = []) ∧
      ∃ message, (Router.processAnnouncePayload (fun _ => 0) namedTwice.tail 0 [] 1).run r
        = .error ⟨.routingError, message⟩ r := by
  refine ⟨_, rfl, ?_⟩
  intro r
  have hconfined := fun payload => announcement_confined (List.replicate 32 0) 300 (95 / 100) _ rfl
    [RouterAct.addDirectRoute 0 (List.replicate 32 1) 7 [] 1 0] (fun _ => 0) payload 0 [] 1
    zero_le_one
  refine ⟨?_, (hconfined namedTwice.tail).1 (by decide)⟩
  rcases (hconfined namedTwice).2 (by decide) with ⟨updated, r', hrun, hears⟩
  have hdirect := hears.frame (List.replicate 32 1)
  rcases hears.named 2 (by decide) (by decide) (by decide) with ⟨heard, hheard, hcapped⟩
  have hscore := hcapped.score_le
  rw [hcapped.hopCount] at hscore
  refine ⟨updated, r', _, heard, hrun, hdirect.trans rfl, rfl, rfl, rfl, hheard, hcapped.hopCount,
    ?_, hscore.trans (by decide +kernel), hears.self.trans rfl,
    (hears.unnamed (List.replicate 32 2) (by decide)).trans rfl⟩
  rw [hcapped.trust]
  decide +kernel

end Ztlnp
