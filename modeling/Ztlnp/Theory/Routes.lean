import Ztlnp.Lib.Keyed
import Ztlnp.Lib.Runs
import Ztlnp.Core.Router

/-!
# The Route Table as a Map

What a route table holds after any history of additions and removals.

A route is kept at its destination under the pair of its transport and the
address on it, and the table finds it by going through a list. `RouteMap` is
what that amounts to: at each destination a partial map from such pairs to
routes, where adding a route is an update and removing a destination clears
it. `Refines` connects the two, and one step of either keeps it.

What the map holds is then read off the history, with `Since`: a route is
there exactly when it was added, and nothing came after that displaced it.
Only routes of at least one hop are added, so every score is a fraction with
a denominator that is not zero.

## Main definitions

* `RouteEntry.port`: The transport of a route and the address on it.
* `TableAct`, `RouteTable.step`: A history of calls.
* `RouteMap`, `RouteMap.step`: What the table stands for.
* `RouteTable.Refines`: The table holds what the map does.
* `TableAct.Displaces`, `Placed`: What a history leaves in place.

## Theorems

* `RouteTable.step_refines`, `RouteTable.run_refines`: The table is the map.
* `RouteMap.run_eq_some_iff`: What the map holds after a history.
* `RouteTable.best_eq_none_iff`, `RouteTable.best_max`: What the best route is.
* `Router.hasRoute_iff`: When a router says that it has a route.
* `routeTable_is_map`: What the table holds after a history.
-/

namespace Ztlnp

/-- The transport of a route and the address on it. -/
def RouteEntry.port (e : RouteEntry) : Nat × Bytes := (e.transport, e.nextHopAddr)

/-- Replacing or appending a route is adding it at its port. -/
theorem upsertRoute_eq (entry : RouteEntry) (es : List RouteEntry) :
    upsertRoute entry es = Keyed.put RouteEntry.port entry es := by
  induction es with
  | nil => rfl
  | cons e es ih =>
      have hport : (e.transport = entry.transport ∧ e.nextHopAddr = entry.nextHopAddr)
          ↔ e.port = entry.port := by
        rw [RouteEntry.port, RouteEntry.port, Prod.mk.injEq]
      rw [upsertRoute, Keyed.put, ih]
      by_cases h : e.port = entry.port
      · rw [if_pos h, if_pos (hport.mpr h)]
      · rw [if_neg h, if_neg (fun hc => h (hport.mp hc))]

/-- A call that changes a route table. A route that is added has at least one
    hop. -/
inductive TableAct
  | add (entry : RouteEntry) (hops : 1 ≤ entry.hopCount)
  | remove (deviceId : Bytes)

/-- What one call does. -/
def RouteTable.step (t : RouteTable) : TableAct → RouteTable
  | .add entry _ => t.add entry
  | .remove deviceId => t.remove deviceId

/-- At each destination, the route of each port. -/
abbrev RouteMap := Bytes → Nat × Bytes → Option RouteEntry

namespace RouteMap

/-- The map without routes. -/
def empty : RouteMap := fun _ _ => none

/-- What one call does to the map. -/
def step (m : RouteMap) : TableAct → RouteMap
  | .add entry _ => Function.update m entry.deviceId
      (Function.update (m entry.deviceId) entry.port (some entry))
  | .remove deviceId => Function.update m deviceId (fun _ => none)

end RouteMap

namespace RouteTable

/-- A table holds what a map does. The destinations are those with a route, and
    a route is kept at its own destination. -/
structure Refines (t : RouteTable) (m : RouteMap) : Prop where
  routes : ∀ d, Keyed.Represents RouteEntry.port (t.allRoutes d) (m d)
  known : ∀ d, d ∈ t.knownDestinations ↔ t.allRoutes d ≠ []
  own : ∀ d, ∀ e ∈ t.allRoutes d, e.deviceId = d ∧ 1 ≤ e.hopCount

theorem mem_knownDestinations (t : RouteTable) (d : Bytes) :
    d ∈ t.knownDestinations ↔ ∃ es, t.routes.get? d = some es := t.routes.mem_keys d

theorem allRoutes_remove (t : RouteTable) (d deviceId : Bytes) :
    (t.remove d).allRoutes deviceId = if deviceId = d then [] else t.allRoutes deviceId := by
  rw [allRoutes, remove, Dict.get?_pop]
  by_cases h : deviceId = d
  · rw [if_pos h, if_pos h, Option.getD_none]
  · rw [if_neg h, if_neg h, allRoutes]

theorem mem_knownDestinations_add (t : RouteTable) (entry : RouteEntry) (d : Bytes) :
    d ∈ (t.add entry).knownDestinations ↔ d = entry.deviceId ∨ d ∈ t.knownDestinations := by
  rw [mem_knownDestinations, mem_knownDestinations, add, Dict.get?_set]
  by_cases h : d = entry.deviceId
  · rw [if_pos h]
    exact iff_of_true ⟨_, rfl⟩ (Or.inl h)
  · rw [if_neg h]
    exact ⟨Or.inr, fun hc => hc.resolve_left h⟩

theorem mem_knownDestinations_remove (t : RouteTable) (deviceId d : Bytes) :
    d ∈ (t.remove deviceId).knownDestinations ↔ d ≠ deviceId ∧ d ∈ t.knownDestinations := by
  rw [mem_knownDestinations, mem_knownDestinations, remove, Dict.get?_pop]
  by_cases h : d = deviceId
  · rw [if_pos h]
    exact iff_of_false (fun hc => by cases hc.choose_spec) (fun hc => hc.1 h)
  · rw [if_neg h]
    exact ⟨fun hc => ⟨h, hc⟩, And.right⟩

/-- A table without routes is the map without routes. -/
theorem refines_empty (staleAfter : Rat) :
    ({ staleAfter } : RouteTable).Refines RouteMap.empty where
  routes _ := Keyed.Represents.nil
  known d := by
    rw [mem_knownDestinations]
    exact iff_of_false (fun h => by cases h.choose_spec) (fun h => h rfl)
  own _ e he := absurd he List.not_mem_nil

/-- A call does to the table what it does to the map. -/
theorem step_refines (t : RouteTable) (m : RouteMap) (a : TableAct) (h : t.Refines m) :
    (t.step a).Refines (m.step a) := by
  cases a with
  | add entry hops =>
      -- `add` changes the destination of its entry and no other.
      have hroutes : ∀ d, (t.step (.add entry hops)).allRoutes d = if d = entry.deviceId
          then Keyed.put RouteEntry.port entry (t.allRoutes d) else t.allRoutes d := by
        intro d
        rw [step, allRoutes_add, upsertRoute_eq]
      refine ⟨fun d => ?_, fun d => ?_, fun d e he => ?_⟩
      · rw [hroutes, RouteMap.step]
        by_cases hd : d = entry.deviceId
        · rw [if_pos hd, hd, Function.update_self]
          exact (h.routes entry.deviceId).put entry
        · rw [if_neg hd, Function.update_of_ne hd]
          exact h.routes d
      · rw [hroutes, step, mem_knownDestinations_add]
        by_cases hd : d = entry.deviceId
        · rw [if_pos hd]
          exact iff_of_true (Or.inl hd) (Keyed.put_ne_nil _ _ _)
        · rw [if_neg hd, ← h.known]
          exact ⟨fun hc => hc.resolve_left hd, Or.inr⟩
      · rw [hroutes] at he
        by_cases hd : d = entry.deviceId
        · rw [if_pos hd, Keyed.mem_put _ _ _ (h.routes d).once] at he
          -- The entry either is the one added, with the count it was checked for, or was there
          -- before.
          rcases he with rfl | he
          · exact ⟨hd.symm, hops⟩
          · exact h.own d e he.1
        · rw [if_neg hd] at he
          exact h.own d e he
  | remove deviceId =>
      refine ⟨fun d => ?_, fun d => ?_, fun d e he => ?_⟩
      · rw [step, allRoutes_remove, RouteMap.step]
        by_cases hd : d = deviceId
        · rw [if_pos hd, hd, Function.update_self]
          exact Keyed.Represents.nil
        · rw [if_neg hd, Function.update_of_ne hd]
          exact h.routes d
      · rw [step, mem_knownDestinations_remove, allRoutes_remove]
        by_cases hd : d = deviceId
        · rw [if_pos hd]
          exact iff_of_false (fun hc => hc.1 hd) (fun hc => hc rfl)
        · rw [if_neg hd, ← h.known]
          exact ⟨And.right, fun hc => ⟨hd, hc⟩⟩
      · rw [step, allRoutes_remove] at he
        by_cases hd : d = deviceId
        · rw [if_pos hd] at he
          exact absurd he List.not_mem_nil
        · rw [if_neg hd] at he
          exact h.own d e he

/-- A history does to the table what it does to the map. -/
theorem run_refines (acts : List TableAct) (t : RouteTable) (m : RouteMap) (h : t.Refines m) :
    (acts.foldl step t).Refines (acts.foldl RouteMap.step m) := by
  induction acts generalizing t m with
  | nil => exact h
  | cons a acts ih => exact ih _ _ (step_refines t m a h)

/-- No call changes how long a route lasts. -/
theorem run_staleAfter (acts : List TableAct) (t : RouteTable) :
    (acts.foldl step t).staleAfter = t.staleAfter := by
  refine along_invariant (fun u => u.staleAfter = t.staleAfter) (fun u a h _ => ?_) t acts rfl
    (along_true t acts)
  cases a with
  | add entry hops => exact h
  | remove deviceId => exact h

theorem foldl_add_staleAfter (es : List RouteEntry) (t : RouteTable) :
    (es.foldl add t).staleAfter = t.staleAfter := by
  have hadd : ∀ (u : RouteTable) (e : RouteEntry), u.staleAfter = t.staleAfter → True →
      (u.add e).staleAfter = t.staleAfter := fun u e h _ => h
  exact along_invariant (fun u => u.staleAfter = t.staleAfter) hadd t es rfl (along_true t es)

end RouteTable

namespace TableAct

/-- The call adds a route for a destination at a port. -/
def Adds (d : Bytes) (port : Nat × Bytes) : TableAct → Prop
  | .add entry _ => entry.deviceId = d ∧ entry.port = port
  | .remove _ => False

/-- The call leaves what a destination has at a port in place. -/
def Spares (d : Bytes) (port : Nat × Bytes) (a : TableAct) : Prop :=
  a ≠ .remove d ∧ ¬ a.Adds d port

end TableAct

/-- A route that was added for a destination, and that neither a route at the
    same port nor a removal has displaced since. -/
def Placed (acts : List TableAct) (d : Bytes) (e : RouteEntry) : Prop :=
  e.deviceId = d ∧ Since (fun a => ∃ hops, a = .add e hops) (TableAct.Spares d e.port) acts

/-- A destination was given a route at a port and has not been removed since. -/
def Occupied (acts : List TableAct) (d : Bytes) (port : Nat × Bytes) : Prop :=
  Since (TableAct.Adds d port) (fun a => a ≠ .remove d) acts

namespace RouteMap

/-- The map holds the routes that are left in place. -/
theorem run_eq_some_iff (acts : List TableAct) (d : Bytes) (port : Nat × Bytes)
    (e : RouteEntry) :
    acts.foldl step empty d port = some e ↔ e.port = port ∧ Placed acts d e := by
  -- From the last act back: it decides the port if it speaks of it, and spares it otherwise.
  induction acts using List.reverseRecOn with
  | nil =>
      exact iff_of_false (fun h => by cases h) (fun h => not_since_nil h.2.2)
  | append_singleton acts a ih =>
      rw [List.foldl_append, List.foldl_cons, List.foldl_nil, Placed, since_concat]
      cases a with
      | add entry hops =>
          have hadd : (∃ hops', TableAct.add entry hops = .add e hops') ↔ entry = e := by
            refine ⟨fun h => ?_, fun h => ?_⟩
            · rcases h with ⟨_, h⟩
              exact (TableAct.add.inj h)
            · subst h
              exact ⟨hops, rfl⟩
          have hspares : TableAct.Spares d e.port (.add entry hops)
              ↔ ¬ (entry.deviceId = d ∧ entry.port = e.port) :=
            and_iff_right (fun h => by cases h)
          rw [hadd, hspares, step]
          -- Both the destination and the port must be the entry's for it to be replaced.
          by_cases hd : d = entry.deviceId
          · subst hd
            rw [Function.update_self]
            by_cases hport : port = entry.port
            · subst hport
              rw [Function.update_self, Option.some.injEq]
              refine ⟨fun h => h ▸ ⟨rfl, rfl, Or.inl rfl⟩, fun h => ?_⟩
              exact h.2.2.resolve_right (fun hc => hc.1 ⟨rfl, h.1.symm⟩)
            · rw [Function.update_of_ne hport, ih, Placed]
              refine ⟨fun h => ⟨h.1, h.2.1, Or.inr ⟨fun hc => hport (h.1 ▸ hc.2.symm), h.2.2⟩⟩,
                fun h => ⟨h.1, h.2.1, ?_⟩⟩
              rcases h.2.2 with rfl | hc
              · exact absurd h.1.symm hport
              · exact hc.2
          · rw [Function.update_of_ne hd, ih, Placed]
            refine ⟨fun h => ⟨h.1, h.2.1, Or.inr ⟨fun hc => hd hc.1.symm, h.2.2⟩⟩,
              fun h => ⟨h.1, h.2.1, ?_⟩⟩
            rcases h.2.2 with rfl | hc
            · exact absurd h.2.1.symm hd
            · exact hc.2
      | remove deviceId =>
          have hadd : ¬ ∃ hops', TableAct.remove deviceId = .add e hops' := by
            rintro ⟨_, h⟩
            cases h
          have hspares : TableAct.Spares d e.port (.remove deviceId) ↔ d ≠ deviceId := by
            refine ⟨fun h hc => h.1 (hc ▸ rfl), fun h => ⟨fun hc => ?_, fun hc => hc⟩⟩
            exact h (TableAct.remove.inj hc).symm
          rw [or_iff_right hadd, hspares, step]
          by_cases hd : d = deviceId
          · rw [hd, Function.update_self]
            exact iff_of_false (fun h => by cases h) (fun h => h.2.2.1 rfl)
          · rw [Function.update_of_ne hd, ih, Placed]
            exact ⟨fun h => ⟨h.1, h.2.1, hd, h.2.2⟩, fun h => ⟨h.1, h.2.1, h.2.2.2⟩⟩

/-- The map has a route at the ports that are occupied. -/
theorem run_isSome_iff (acts : List TableAct) (d : Bytes) (port : Nat × Bytes) :
    (acts.foldl step empty d port).isSome ↔ Occupied acts d port := by
  induction acts using List.reverseRecOn with
  | nil => exact iff_of_false (fun h => by cases h) not_since_nil
  -- The last act again, now with any entry of the port in place of one.
  | append_singleton acts a ih =>
      rw [List.foldl_append, List.foldl_cons, List.foldl_nil, Occupied, since_concat]
      cases a with
      | add entry hops =>
          have hne : TableAct.add entry hops ≠ .remove d := fun h => by cases h
          rw [and_iff_right hne, step, TableAct.Adds]
          by_cases hd : d = entry.deviceId
          · subst hd
            rw [Function.update_self]
            by_cases hport : port = entry.port
            · rw [hport, Function.update_self]
              exact iff_of_true rfl (Or.inl ⟨rfl, rfl⟩)
            · rw [Function.update_of_ne hport, ih, Occupied]
              exact (or_iff_right (fun h => hport h.2.symm)).symm
          · rw [Function.update_of_ne hd, ih, Occupied]
            exact (or_iff_right (fun h => hd h.1.symm)).symm
      | remove deviceId =>
          have hadd : ¬ TableAct.Adds d port (.remove deviceId) := fun h => h
          rw [or_iff_right hadd, step]
          by_cases hd : d = deviceId
          · rw [hd, Function.update_self]
            exact iff_of_false (fun h => by cases h) (fun h => h.1 rfl)
          · rw [Function.update_of_ne hd, ih, Occupied]
            exact (and_iff_right (fun h => hd (TableAct.remove.inj h).symm)).symm

end RouteMap

namespace RouteTable

/-- There is no best route when all routes are stale. -/
theorem best_eq_none_iff (t : RouteTable) (now : Rat) (d : Bytes) :
    t.best now d = none ↔ ∀ e ∈ t.allRoutes d, t.staleAfter < now - e.lastSeen := by
  rw [best, List.argmax_eq_none, List.filter_eq_nil_iff]
  refine forall₂_congr (fun e _ => ?_)
  rw [decide_eq_true_eq, not_le]

/-- The best route is one that is not stale, with the highest score of those. -/
theorem best_max (t : RouteTable) (now : Rat) (d : Bytes) (b : RouteEntry)
    (h : t.best now d = some b) :
    b ∈ t.allRoutes d ∧ now - b.lastSeen ≤ t.staleAfter ∧
      ∀ e ∈ t.allRoutes d, now - e.lastSeen ≤ t.staleAfter → e.score ≤ b.score := by
  have hb := List.mem_filter.mp (List.argmax_mem h)
  refine ⟨hb.1, of_decide_eq_true hb.2, fun e he hseen => ?_⟩
  exact List.le_of_mem_argmax (List.mem_filter.mpr ⟨he, decide_eq_true hseen⟩) h

end RouteTable

/-- A router says that it has a route exactly when it knows one that is not stale,
    and exactly then it forwards. -/
theorem Router.hasRoute_iff (r : Router) (now : Rat) (raw dest : Bytes) :
    (r.hasRoute now dest = true ↔
      ∃ e ∈ r.table.allRoutes dest, now - e.lastSeen ≤ r.table.staleAfter) ∧
    (r.hasRoute now dest = true ↔ ∃ out, r.forward now raw dest = .ok out) := by
  unfold hasRoute forward getRoute
  constructor
  · rw [Option.isSome_iff_ne_none, ne_eq, RouteTable.best_eq_none_iff]
    simp only [not_forall, not_lt, exists_prop]
  · cases r.table.best now dest with
    | none => exact iff_of_false Bool.false_ne_true (fun ⟨_, hout⟩ => by cases hout)
    | some e => exact iff_of_true rfl ⟨_, rfl⟩

/-- A route of at least one hop has a score. -/
theorem RouteEntry.score_defined (e : RouteEntry) (h : 1 ≤ e.hopCount) :
    (e.hopCount : Rat) * max e.latencyMs 1 ≠ 0 := by
  have hhops : (0 : Rat) < e.hopCount := Nat.cast_pos.mpr h
  have hlatency : (0 : Rat) < max e.latencyMs 1 := lt_of_lt_of_le one_pos (le_max_right _ _)
  exact (mul_pos hhops hlatency).ne'

/-- After any history of calls the table holds, at each destination, exactly
    one route for each port that is occupied, the one that was added last, and
    its best route is the one to use. -/
theorem routeTable_is_map (staleAfter : Rat) (acts : List TableAct) (d : Bytes) :
    let t := acts.foldl RouteTable.step { staleAfter }
    (∀ e, e ∈ t.allRoutes d ↔ Placed acts d e) ∧
      (∀ port, Occupied acts d port → ∃ e, (t.allRoutes d).filter (fun a => a.port = port) = [e]) ∧
      (∀ e ∈ t.allRoutes d, e.deviceId = d ∧ (e.hopCount : Rat) * max e.latencyMs 1 ≠ 0) ∧
      (d ∈ t.knownDestinations ↔ t.allRoutes d ≠ []) ∧ t.knownDestinations.Nodup ∧
      ∀ now, (t.best now d = none ↔ ∀ e ∈ t.allRoutes d, staleAfter < now - e.lastSeen) ∧
        ∀ b, t.best now d = some b → b ∈ t.allRoutes d ∧ now - b.lastSeen ≤ staleAfter ∧
          ∀ e ∈ t.allRoutes d, now - e.lastSeen ≤ staleAfter → e.score ≤ b.score := by
  intro t
  -- All clauses are read off the map that the table refines.
  have hrun : t.Refines (acts.foldl RouteMap.step RouteMap.empty) :=
    RouteTable.run_refines acts _ _ (RouteTable.refines_empty staleAfter)
  have hstale : t.staleAfter = staleAfter := RouteTable.run_staleAfter acts { staleAfter }
  refine ⟨fun e => ?_, fun port hport => ?_, fun e he => ?_, hrun.known d, t.routes.nodup,
    fun now => ⟨?_, fun b hb => ?_⟩⟩
  · rw [(hrun.routes d).mem, RouteMap.run_eq_some_iff]
    exact and_iff_right rfl
  · rcases Option.isSome_iff_exists.mp ((RouteMap.run_isSome_iff acts d port).mpr hport) with
      ⟨e, he⟩
    exact ⟨e, (hrun.routes d).filter_eq_singleton he⟩
  · exact ⟨(hrun.own d e he).1, e.score_defined (hrun.own d e he).2⟩
  · rw [RouteTable.best_eq_none_iff, hstale]
  · have hmax := t.best_max now d b hb
    rwa [hstale] at hmax

end Ztlnp
