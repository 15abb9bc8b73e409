import Ztlnp.Core.Python
import Ztlnp.Lib.Dict
import Mathlib.Algebra.Order.Field.Rat
import Mathlib.Data.List.MinMax

/-!
# The Router

The route table and the mesh router of `router.py`.

A route is kept for each destination and each pair of a transport and an
address on it; adding one again replaces it where it stands. The best route
is the first of those with the highest score, as Python's `max` picks it.
Transports are objects that are only ever compared for identity, so a
transport is represented by a number.

Scores and trust are exact rationals. The clock is read once for every
destination that is looked up and once for every route that is made, so a
call takes the readings as a function of the destination.

`score` is total and exact, and the code agrees with it where a route has a
hop. A route without hops divides by zero, and a hop count that no float can
hold does not get that far. `tryScore`, `tryBest` and `tryBuildAnnouncePayload`
are the same functions with these errors, and `tryBuildAnnouncePayload_eq_ok`
says when there are none.

An announcement is a string of fixed-size entries. `announced` is the list of
entries before it is packed, and `processAnnouncePayload_build` that a router
that processes the payload of another learns exactly those.

## Main definitions

* `RouteEntry`, `RouteEntry.score`: A route and its quality.
* `RouteTable.add`, `RouteTable.best`, `RouteTable.allRoutes`,
  `RouteTable.remove`, `RouteTable.knownDestinations`: The table.
* `Router`, `Router.create`: A router and its constructor.
* `Router.addDirectRoute`, `Router.getRoute`, `Router.hasRoute`,
  `Router.forward`: Routes and forwarding.
* `Router.buildAnnouncePayload`, `Router.processAnnouncePayload`:
  Announcements.
* `Router.offers`: The hop counts that a router has for a destination.
* `RouteEntry.tryScore`, `RouteTable.tryBest`, `Router.tryBuildAnnouncePayload`:
  The same with the errors of the arithmetic.

## Theorems

* `RouteTable.allRoutes_add`: Adding a route touches one destination.
* `RouteTable.best_fresh`: Without stale routes the best is over all of them.
* `Router.announced_get?_offers`, `Router.announced_get?`: What a router announces
  for a destination is the least of its offers.
* `Router.processAnnouncePayload_build`: What a neighbour learns from it.
-/

namespace Ztlnp

/-- A route to a device. -/
structure RouteEntry where
  deviceId : Bytes
  transport : Nat
  nextHopAddr : Bytes
  hopCount : Nat := 1
  trustScore : Rat := 1
  latencyMs : Rat := 0
  lastSeen : Rat
deriving DecidableEq

/-- `RouteEntry.score`: higher is better. -/
def RouteEntry.score (e : RouteEntry) : Rat :=
  e.trustScore / (e.hopCount * max e.latencyMs 1)

/-- The first number that rounds to no float. -/
def floatLimit : Nat := 2 ^ 1024 - 2 ^ 970

/-- `RouteEntry.score` with the errors of its arithmetic. The latency is a
    float of at least one, so a hop count is first converted and then divides
    as a product that is zero only if the count is. -/
def RouteEntry.tryScore (e : RouteEntry) : Except Exn Rat :=
  if floatLimit ≤ e.hopCount then
    .error ⟨.overflowError, "int too large to convert to float"⟩
  else if e.hopCount = 0 then .error ⟨.zeroDivisionError, "float division by zero"⟩
  else .ok e.score

/-- Routes per destination. -/
structure RouteTable where
  staleAfter : Rat := 300
  routes : Dict Bytes (List RouteEntry) := .empty
deriving DecidableEq

/-- Replace the route over the same transport and address, or append. -/
def upsertRoute (entry : RouteEntry) : List RouteEntry → List RouteEntry
  | [] => [entry]
  | e :: es =>
    if e.transport = entry.transport ∧ e.nextHopAddr = entry.nextHopAddr then entry :: es
    else e :: upsertRoute entry es

namespace RouteTable

/-- `all_routes`, stale ones included. -/
def allRoutes (t : RouteTable) (deviceId : Bytes) : List RouteEntry :=
  (t.routes.get? deviceId).getD []

/-- `add`. -/
def add (t : RouteTable) (entry : RouteEntry) : RouteTable :=
  { t with routes :=
      t.routes.set entry.deviceId (upsertRoute entry (t.allRoutes entry.deviceId)) }

/-- `best`: the first of the highest score among the routes that are not
    stale. -/
def best (t : RouteTable) (now : Rat) (deviceId : Bytes) : Option RouteEntry :=
  ((t.allRoutes deviceId).filter (fun e => now - e.lastSeen ≤ t.staleAfter)).argmax
    RouteEntry.score

/-- `best` with the errors of the scores. `max` takes the score of every route
    that is not stale, also of a single one. -/
def tryBest (t : RouteTable) (now : Rat) (deviceId : Bytes) :
    Except Exn (Option RouteEntry) := do
  let valid := (t.allRoutes deviceId).filter (fun e => now - e.lastSeen ≤ t.staleAfter)
  let _ ← valid.mapM RouteEntry.tryScore
  return valid.argmax RouteEntry.score

/-- `remove`. -/
def remove (t : RouteTable) (deviceId : Bytes) : RouteTable :=
  { t with routes := t.routes.pop deviceId }

/-- `known_destinations`. -/
def knownDestinations (t : RouteTable) : List Bytes := t.routes.keys

end RouteTable

/-- A mesh router. The cap on advertised trust is clamped by the constructor. -/
structure Router where
  localId : Bytes
  table : RouteTable
  maxAdvertisedTrust : Rat
  localId_length : localId.length = 32
  trust_nonneg : 0 ≤ maxAdvertisedTrust
  trust_le_one : maxAdvertisedTrust ≤ 1

namespace Router

/-- `Router.__init__`. -/
def create (localDeviceId : Bytes) (routeTable : Option RouteTable := none)
    (maxAdvertisedTrust : Rat := 95 / 100) : Except Exn Router :=
  if h : localDeviceId.length = 32 then
    .ok
      { localId := localDeviceId
        table := routeTable.getD {}
        maxAdvertisedTrust := max 0 (min 1 maxAdvertisedTrust)
        localId_length := h
        trust_nonneg := le_max_left _ _
        trust_le_one := max_le zero_le_one (min_le_left _ _) }
  else .error ⟨.valueError, "local_device_id must be 32 bytes"⟩

/-- `add_direct_route`. -/
def addDirectRoute (now : Rat) (deviceId : Bytes) (transport : Nat) (nextHopAddr : Bytes)
    (trustScore latencyMs : Rat) : EStateM Exn Router RouteEntry := do
  let entry : RouteEntry :=
    { deviceId, transport, nextHopAddr, hopCount := 1, trustScore, latencyMs, lastSeen := now }
  modify (fun r => { r with table := r.table.add entry })
  return entry

/-- `get_route`. -/
def getRoute (r : Router) (now : Rat) (deviceId : Bytes) : Except Exn RouteEntry :=
  match r.table.best now deviceId with
  | some entry => .ok entry
  | none => .error ⟨.routingError, "No route to device " ++ hex deviceId⟩

/-- `has_route`. -/
def hasRoute (r : Router) (now : Rat) (deviceId : Bytes) : Bool :=
  (r.table.best now deviceId).isSome

/-- `forward`: what is handed to which transport, for which address. -/
def forward (r : Router) (now : Rat) (rawPacket destDeviceId : Bytes) :
    Except Exn (Nat × Bytes × Bytes) := do
  let entry ← r.getRoute now destDeviceId
  return (entry.transport, entry.nextHopAddr, rawPacket)

/-- `_ENTRY_SIZE`. -/
def entrySize : Nat := 34

/-- The string field of `_ENTRY_FMT`: cut or filled with zeros. -/
def pack32s (b : Bytes) : Bytes := b.take 32 ++ List.replicate (32 - b.length) 0

/-- One packed entry of an announcement. The count saturates. -/
def packEntry (deviceId : Bytes) (hops : Nat) : Bytes :=
  pack32s deviceId ++ beEncode 2 (min hops 0xFFFF)

/-- Keep the lowest hop count of a destination. -/
def keepLowest (seen : Dict Bytes Nat) (e : Bytes × Nat) : Dict Bytes Nat :=
  match seen.get? e.1 with
  | none => seen.set e.1 e.2
  | some hops => if e.2 < hops then seen.set e.1 e.2 else seen

/-- The destinations a router announces, with their hop counts: itself, what
    it was given, and what it has a route to. -/
def announced (r : Router) (now : Bytes → Rat) (extraDestinations : List (Bytes × Nat)) :
    Dict Bytes Nat :=
  let extra := (extraDestinations.filter (fun e => e.1 ≠ r.localId)).map (fun e => (e.1, e.2 + 1))
  let known := r.table.knownDestinations.filterMap (fun deviceId =>
    (r.table.best (now deviceId) deviceId).map (fun route => (deviceId, route.hopCount + 1)))
  ((r.localId, 0) :: (extra ++ known)).foldl keepLowest .empty

/-- `build_announce_payload`. -/
def buildAnnouncePayload (r : Router) (now : Bytes → Rat)
    (extraDestinations : List (Bytes × Nat) := []) : Bytes :=
  (r.announced now extraDestinations).entries.flatMap (fun e => packEntry e.1 e.2)

/-- `build_announce_payload` with the errors of the scores. -/
def tryBuildAnnouncePayload (r : Router) (now : Bytes → Rat)
    (extraDestinations : List (Bytes × Nat) := []) : Except Exn Bytes := do
  let extra := (extraDestinations.filter (fun e => e.1 ≠ r.localId)).map (fun e => (e.1, e.2 + 1))
  let known ← r.table.knownDestinations.mapM (fun deviceId => do
    let route ← r.table.tryBest (now deviceId) deviceId
    return route.map (fun route => (deviceId, route.hopCount + 1)))
  let seen := ((r.localId, 0) :: (extra ++ known.reduceOption)).foldl keepLowest .empty
  return seen.entries.flatMap (fun e => packEntry e.1 e.2)

/-- The entries of a payload, in order. -/
def unpackEntries (payload : Bytes) : List (Bytes × Nat) :=
  (List.range (payload.length / entrySize)).map (fun i =>
    (field payload (entrySize * i) 32, beDecode (field payload (entrySize * i + 32) 2)))

/-- The route that is made from one entry of an announcement. -/
def learnedRoute (now : Bytes → Rat) (viaTransport : Nat) (viaAddr : Bytes)
    (cappedSenderTrust : Rat) (e : Bytes × Nat) : RouteEntry where
  deviceId := e.1
  transport := viaTransport
  nextHopAddr := viaAddr
  hopCount := e.2 + 1
  trustScore := min (cappedSenderTrust * (9 / 10) ^ e.2) 1
  lastSeen := now e.1

/-- The routes that a payload makes at a router. Entries for the router itself
    are skipped. -/
def learnedRoutes (r : Router) (now : Bytes → Rat) (payload : Bytes) (viaTransport : Nat)
    (viaAddr : Bytes) (senderTrustScore : Rat) : List RouteEntry :=
  ((unpackEntries payload).filter (fun e => e.1 ≠ r.localId)).map
    (learnedRoute now viaTransport viaAddr (min senderTrustScore r.maxAdvertisedTrust))

/-- `process_announce_payload`. -/
def processAnnouncePayload (now : Bytes → Rat) (payload : Bytes) (viaTransport : Nat)
    (viaAddr : Bytes) (senderTrustScore : Rat) : EStateM Exn Router (List RouteEntry) := do
  if payload.length % entrySize ≠ 0 then
    throw ⟨.routingError, "ROUTE_ANNOUNCE payload size " ++ toString payload.length ++
      " is not a multiple of " ++ toString entrySize⟩
  else
    let r ← get
    let updated := r.learnedRoutes now payload viaTransport viaAddr senderTrustScore
    set { r with table := updated.foldl RouteTable.add r.table }
    return updated

end Router

theorem mem_upsertRoute (entry : RouteEntry) (es : List RouteEntry) (e : RouteEntry)
    (h : e ∈ upsertRoute entry es) : e = entry ∨ e ∈ es := by
  induction es with
  | nil => exact Or.inl (List.mem_singleton.mp h)
  | cons a es ih =>
      rw [upsertRoute] at h
      by_cases hport : a.transport = entry.transport ∧ a.nextHopAddr = entry.nextHopAddr
      · rw [if_pos hport, List.mem_cons] at h
        rcases h with h | h
        · exact Or.inl h
        · exact Or.inr (List.mem_cons_of_mem a h)
      · rw [if_neg hport, List.mem_cons] at h
        rcases h with h | h
        · exact Or.inr (h ▸ List.mem_cons_self)
        · rcases ih h with h | h
          · exact Or.inl h
          · exact Or.inr (List.mem_cons_of_mem a h)

/-- A route keeps its place, or is replaced there by one over the same
    transport and address. -/
theorem getElem?_upsertRoute (entry : RouteEntry) (es : List RouteEntry) (i : Nat)
    (e : RouteEntry) (h : es[i]? = some e) :
    (upsertRoute entry es)[i]? = some e ∨
      ((upsertRoute entry es)[i]? = some entry ∧ e.transport = entry.transport ∧
        e.nextHopAddr = entry.nextHopAddr) := by
  induction es generalizing i with
  | nil => simp only [List.getElem?_nil, reduceCtorEq] at h
  | cons a es ih =>
      rw [upsertRoute]
      by_cases hport : a.transport = entry.transport ∧ a.nextHopAddr = entry.nextHopAddr
      · rw [if_pos hport]
        cases i with
        | zero =>
            rw [List.getElem?_cons_zero, Option.some.injEq] at h
            rw [← h]
            exact Or.inr ⟨rfl, hport⟩
        | succ i => exact Or.inl h
      · rw [if_neg hport]
        cases i with
        | zero => exact Or.inl h
        | succ i => exact ih i h

namespace RouteTable

/-- Adding a route touches its own destination only. -/
theorem allRoutes_add (t : RouteTable) (entry : RouteEntry) (deviceId : Bytes) :
    (t.add entry).allRoutes deviceId = if deviceId = entry.deviceId then
      upsertRoute entry (t.allRoutes deviceId) else t.allRoutes deviceId := by
  rw [allRoutes, add, Dict.get?_set]
  by_cases h : deviceId = entry.deviceId
  · rw [if_pos h, if_pos h, Option.getD_some, h]
  · rw [if_neg h, if_neg h]
    rfl

/-- Adding many routes adds, at each destination, those for it. -/
theorem allRoutes_foldl_add (es : List RouteEntry) (t : RouteTable) (deviceId : Bytes) :
    (es.foldl add t).allRoutes deviceId
      = (es.filter (fun e => e.deviceId = deviceId)).foldl (fun l e => upsertRoute e l)
          (t.allRoutes deviceId) := by
  induction es generalizing t with
  | nil => rfl
  | cons e es ih =>
      rw [List.foldl_cons, ih, allRoutes_add]
      by_cases h : deviceId = e.deviceId
      · rw [if_pos h, List.filter_cons_of_pos (by simp only [h, decide_true]), List.foldl_cons]
      · rw [if_neg h, List.filter_cons_of_neg (by simp only [Ne.symm h, decide_false,
          Bool.false_eq_true, not_false_eq_true])]

/-- No route is stale at the time its destination is looked up. -/
def Fresh (t : RouteTable) (now : Bytes → Rat) : Prop :=
  ∀ deviceId, ∀ e ∈ t.allRoutes deviceId, now deviceId - e.lastSeen ≤ t.staleAfter

theorem fresh_iff (t : RouteTable) (now : Bytes → Rat) :
    t.Fresh now ↔ ∀ kv ∈ t.routes.entries, ∀ e ∈ kv.2, now kv.1 - e.lastSeen ≤ t.staleAfter := by
  constructor
  · intro h kv hkv e he
    have hget := (t.routes.get?_eq_some kv.1 kv.2).mpr hkv
    refine h kv.1 e ?_
    rw [allRoutes, hget]
    exact he
  · intro h deviceId e he
    rw [allRoutes] at he
    cases hget : t.routes.get? deviceId with
    | none =>
        rw [hget] at he
        simp only [Option.getD_none, List.not_mem_nil] at he
    | some es =>
        rw [hget] at he
        exact h (deviceId, es) ((t.routes.get?_eq_some deviceId es).mp hget) e he

instance decidableFresh (t : RouteTable) (now : Bytes → Rat) : Decidable (t.Fresh now) :=
  decidable_of_iff _ (t.fresh_iff now).symm

/-- Without stale routes the best is over all of them. -/
theorem best_fresh (t : RouteTable) (now : Bytes → Rat) (h : t.Fresh now) (deviceId : Bytes) :
    t.best (now deviceId) deviceId = (t.allRoutes deviceId).argmax RouteEntry.score := by
  rw [best, List.filter_eq_self.mpr]
  intro e he
  exact decide_eq_true (h deviceId e he)

/-- A destination that is not known has no route. -/
theorem best_unknown (t : RouteTable) (now : Rat) (deviceId : Bytes)
    (h : deviceId ∉ t.knownDestinations) : t.best now deviceId = none := by
  have hnone : t.routes.get? deviceId = none := by
    rw [knownDestinations, Dict.mem_keys, not_exists] at h
    exact Option.eq_none_iff_forall_ne_some.mpr h
  rw [best, allRoutes, hnone]
  rfl

end RouteTable

/-- The lower of a hop count that may not be there and one that is. -/
def lowerHops : Option Nat → Nat → Option Nat
  | none, h => some h
  | some a, h => some (min a h)

theorem foldl_lowerHops (l : List Nat) : l.foldl lowerHops none = l.min? := by
  have hsome : ∀ (l : List Nat) (a : Nat), l.foldl lowerHops (some a) = some (l.foldl min a) := by
    intro l
    induction l with
    | nil => exact fun a => rfl
    | cons b l ih => exact fun a => ih (min a b)
  cases l with
  | nil => rfl
  | cons a l => exact hsome l a

/-- Nothing is lower than the count of the router itself. -/
theorem foldl_lowerHops_zero (l : List Nat) : l.foldl lowerHops (some 0) = some 0 := by
  induction l with
  | nil => rfl
  | cons a l ih => rw [List.foldl_cons, lowerHops, Nat.zero_min, ih]

namespace Router

theorem keepLowest_get? (seen : Dict Bytes Nat) (e : Bytes × Nat) (deviceId : Bytes) :
    (keepLowest seen e).get? deviceId = if e.1 = deviceId then
      lowerHops (seen.get? deviceId) e.2 else seen.get? deviceId := by
  unfold keepLowest
  by_cases h : e.1 = deviceId
  · rw [if_pos h, h]
    cases hget : seen.get? deviceId with
    | none => rw [Dict.get?_set_self, lowerHops]
    | some hops =>
        simp only [lowerHops]
        by_cases hlt : e.2 < hops
        · rw [if_pos hlt, Dict.get?_set_self, min_eq_right hlt.le]
        · rw [if_neg hlt, hget, min_eq_left (not_lt.mp hlt)]
  · rw [if_neg h]
    cases seen.get? e.1 with
    | none => exact Dict.get?_set_ne seen e.2 (Ne.symm h)
    | some hops =>
        by_cases hlt : e.2 < hops
        · simp only [if_pos hlt]
          exact Dict.get?_set_ne seen e.2 (Ne.symm h)
        · simp only [if_neg hlt]

/-- Collecting entries keeps, at each destination, the lowest of its counts. -/
theorem foldl_keepLowest_get? (l : List (Bytes × Nat)) (seen : Dict Bytes Nat)
    (deviceId : Bytes) :
    (l.foldl keepLowest seen).get? deviceId
      = ((l.filter (fun e => e.1 = deviceId)).map Prod.snd).foldl lowerHops
          (seen.get? deviceId) := by
  induction l generalizing seen with
  | nil => rfl
  | cons e l ih =>
      rw [List.foldl_cons, ih, keepLowest_get?]
      by_cases h : e.1 = deviceId
      · rw [if_pos h, List.filter_cons_of_pos (by simp only [h, decide_true]),
          List.map_cons, List.foldl_cons]
      · rw [if_neg h, List.filter_cons_of_neg (by simp only [h, decide_false,
          Bool.false_eq_true, not_false_eq_true])]

/-- Of a list of distinct destinations with a value each, one has its own. -/
theorem filter_filterMap_key {α : Type} (f : Bytes → Option α) (ks : List Bytes)
    (hks : ks.Nodup) (k : Bytes) :
    (ks.filterMap (fun q => (f q).map (fun v => (q, v)))).filter (fun e => e.1 = k)
      = if k ∈ ks then (f k).toList.map (fun v => (k, v)) else [] := by
  induction ks with
  | nil => rw [if_neg (List.not_mem_nil)]; rfl
  | cons q ks ih =>
      rw [List.nodup_cons] at hks
      have hrest := ih hks.2
      by_cases hq : q = k
      · -- Here the key is met, and by `Nodup` not again.
        subst hq
        rw [if_neg hks.1] at hrest
        rw [if_pos List.mem_cons_self]
        cases hf : f q with
        | none =>
            rw [List.filterMap_cons_none (by rw [hf]; rfl), hrest]
            rfl
        | some v =>
            rw [List.filterMap_cons_some (by rw [hf]; rfl),
              List.filter_cons_of_pos (by simp only [decide_true]), hrest]
            rfl
      · have hmem : k ∈ q :: ks ↔ k ∈ ks := by
          rw [List.mem_cons]
          exact ⟨fun h => h.resolve_left (Ne.symm hq), Or.inr⟩
        simp only [hmem]
        rw [← hrest]
        cases hf : f q with
        | none => rw [List.filterMap_cons_none (by rw [hf]; rfl)]
        | some v =>
            rw [List.filterMap_cons_some (by rw [hf]; rfl),
              List.filter_cons_of_neg (by simp only [hq, decide_false, Bool.false_eq_true,
                not_false_eq_true])]

/-- The hop counts that a router has to offer for another device: one more than
    each it was given, and one more than its best route. -/
def offers (r : Router) (now : Bytes → Rat) (extra : List (Bytes × Nat)) (d : Bytes) : List Nat :=
  (extra.filter (fun e => e.1 = d)).map (fun e => e.2 + 1) ++
    ((r.table.best (now d) d).map (fun route => route.hopCount + 1)).toList

/-- What a router announces: nothing to go to itself, and the least of what it
    has to offer for everything else. -/
theorem announced_get?_offers (r : Router) (now : Bytes → Rat) (extra : List (Bytes × Nat))
    (d : Bytes) :
    (r.announced now extra).get? d
      = if d = r.localId then some 0 else (r.offers now extra d).min? := by
  have hknown := filter_filterMap_key (fun d => (r.table.best (now d) d).map
    (fun route => route.hopCount + 1)) r.table.knownDestinations r.table.routes.nodup d
  simp only [Option.map_map, Function.comp_def] at hknown
  simp only [announced]
  rw [foldl_keepLowest_get?, Dict.get?_empty]
  by_cases hd : d = r.localId
  · rw [if_pos hd, List.filter_cons_of_pos (by simp only [hd, decide_true]), List.map_cons,
      List.foldl_cons, lowerHops, foldl_lowerHops_zero]
  · rw [if_neg hd, List.filter_cons_of_neg (by simp only [Ne.symm hd, decide_false,
      Bool.false_eq_true, not_false_eq_true]), foldl_lowerHops, offers, List.filter_append, hknown,
      List.map_append]
    congr 1
    congr 1
    · -- The entries for the router itself are not for this destination.
      rw [List.filter_map, List.filter_filter, List.map_map]
      congr 1
      refine List.filter_congr (fun e _ => ?_)
      rw [Function.comp_apply, ← Bool.decide_and, decide_eq_decide]
      exact and_iff_left_of_imp (fun he hc => hd (he.symm.trans hc))
    · by_cases hmem : d ∈ r.table.knownDestinations
      · rw [if_pos hmem]
        cases r.table.best (now d) d with
        | none => rfl
        | some route => rfl
      · rw [if_neg hmem, r.table.best_unknown _ _ hmem]
        rfl

/-- Without extra destinations it is one hop more than the best route. -/
theorem announced_get? (r : Router) (now : Bytes → Rat) (deviceId : Bytes) :
    (r.announced now []).get? deviceId = if deviceId = r.localId then some 0
      else (r.table.best (now deviceId) deviceId).map (fun route => route.hopCount + 1) := by
  rw [announced_get?_offers, offers, List.filter_nil, List.map_nil, List.nil_append]
  cases r.table.best (now deviceId) deviceId with
  | none => rfl
  | some route => rfl

theorem pack32s_length (b : Bytes) : (pack32s b).length = 32 := by
  rw [pack32s, List.length_append, List.length_take, List.length_replicate]
  omega

theorem pack32s_eq (b : Bytes) (h : b.length = 32) : pack32s b = b := by
  rw [pack32s, h, Nat.sub_self, List.replicate_zero, List.append_nil, ← h, List.take_length]

theorem packEntry_length (deviceId : Bytes) (hops : Nat) :
    (packEntry deviceId hops).length = entrySize := by
  rw [packEntry, List.length_append, pack32s_length, beEncode_length, entrySize]

/-- A packed entry in front of others is read first. -/
theorem unpackEntries_packEntry (deviceId : Bytes) (hops : Nat) (rest : Bytes)
    (h : deviceId.length = 32) :
    unpackEntries (packEntry deviceId hops ++ rest)
      = (deviceId, min hops 0xFFFF) :: unpackEntries rest := by
  have hlen := packEntry_length deviceId hops
  have hfits : min hops 0xFFFF < 256 ^ 2 := by
    omega
  -- Every later entry sits one entry further along.
  have hshift : ∀ off len, field (packEntry deviceId hops ++ rest) (entrySize + off) len
      = field rest off len := by
    intro off len
    rw [field_append_right _ _ _ _ (by omega), hlen, Nat.add_sub_cancel_left]
  have hid : field (packEntry deviceId hops ++ rest) 0 32 = deviceId := by
    rw [packEntry, pack32s_eq deviceId h, List.append_assoc]
    exact field_append_left _ _ _ h
  have hhops : beDecode (field (packEntry deviceId hops ++ rest) 32 2) = min hops 0xFFFF := by
    rw [packEntry, pack32s_eq deviceId h, List.append_assoc, field_append_right _ _ _ _ h.le, h,
      Nat.sub_self, field_append_left _ _ _ (beEncode_length _ _), beDecode_beEncode _ _ hfits]
  have hcount : (packEntry deviceId hops ++ rest).length / entrySize
      = rest.length / entrySize + 1 := by
    rw [List.length_append, hlen, Nat.add_div_left _ (by decide)]
  rw [unpackEntries, hcount, List.range_succ_eq_map, List.map_cons, Nat.mul_zero, Nat.zero_add,
    hid, hhops, List.map_map, unpackEntries]
  congr 1
  refine List.map_congr_left (fun i _ => ?_)
  simp only [Function.comp_apply, Nat.mul_succ, Nat.add_comm (entrySize * i) entrySize,
    Nat.add_assoc, hshift]

/-- A packed announcement is read back, with its counts saturated. -/
theorem unpackEntries_flatMap (l : List (Bytes × Nat)) (h : ∀ e ∈ l, e.1.length = 32) :
    unpackEntries (l.flatMap (fun e => packEntry e.1 e.2))
      = l.map (fun e => (e.1, min e.2 0xFFFF)) := by
  induction l with
  | nil => rfl
  | cons e l ih =>
      rw [List.flatMap_cons, List.map_cons,
        unpackEntries_packEntry _ _ _ (h e List.mem_cons_self),
        ih (fun d hd => h d (List.mem_cons_of_mem e hd))]

theorem length_flatMap_packEntry (l : List (Bytes × Nat)) :
    (l.flatMap (fun e => packEntry e.1 e.2)).length = entrySize * l.length := by
  induction l with
  | nil => rfl
  | cons e l ih =>
      rw [List.flatMap_cons, List.length_append, packEntry_length, ih, List.length_cons,
        Nat.mul_succ, Nat.add_comm]

/-- Every destination with a route has an identifier of the right length. -/
def Identified (r : Router) : Prop := ∀ d, r.table.allRoutes d ≠ [] → d.length = 32

/-- Whatever is announced has an identifier of the right length. -/
theorem announced_length (r : Router) (now : Bytes → Rat) (h : r.Identified) :
    ∀ e ∈ (r.announced now []).entries, e.1.length = 32 := by
  rintro ⟨d, hops⟩ he
  have hget := ((r.announced now []).get?_eq_some d hops).mpr he
  rw [announced_get?] at hget
  by_cases hd : d = r.localId
  · rw [hd]
    exact r.localId_length
  · rw [if_neg hd] at hget
    refine h d (fun hnil => ?_)
    simp only [RouteTable.best, hnil, List.filter_nil, List.argmax_nil, Option.map_none,
      reduceCtorEq] at hget

/-- At one destination an announcement makes at most one route. -/
theorem learnedRoutes_filter (r y : Router) (now now' : Bytes → Rat) (t : Nat) (a : Bytes)
    (s : Rat) (hy : y.Identified) (d : Bytes) :
    (r.learnedRoutes now' (y.buildAnnouncePayload now) t a s).filter (fun e => e.deviceId = d)
      = if d = r.localId then [] else
        ((y.announced now []).get? d).toList.map (fun hops =>
          learnedRoute now' t a (min s r.maxAdvertisedTrust) (d, min hops 0xFFFF)) := by
  have hread := unpackEntries_flatMap (y.announced now []).entries (y.announced_length now hy)
  -- Filtering the routes is filtering the entries they were made from.
  have hentries : (((y.announced now []).entries.map (fun e => (e.1, min e.2 0xFFFF))).filter
      (fun e => e.1 = d)) = ((y.announced now []).get? d).toList.map
        (fun hops => (d, min hops 0xFFFF)) := by
    rw [List.filter_map, Function.comp_def, Dict.filter_entries, List.map_map]
    rfl
  rw [learnedRoutes, buildAnnouncePayload, hread, List.filter_map, List.filter_filter]
  by_cases hd : d = r.localId
  · rw [if_pos hd, List.map_eq_nil_iff, List.filter_eq_nil_iff]
    intro e _ he
    rw [Bool.and_eq_true, Function.comp_apply, decide_eq_true_eq, decide_eq_true_eq] at he
    exact he.2 (he.1.trans hd)
  · have hfilter : ∀ e : Bytes × Nat, (decide ((learnedRoute now' t a
        (min s r.maxAdvertisedTrust) e).deviceId = d) && decide (e.1 ≠ r.localId))
        = decide (e.1 = d) := by
      intro e
      by_cases he : e.1 = d
      · simp only [learnedRoute, he, decide_true, ne_eq, hd, not_false_eq_true, Bool.and_self]
      · simp only [learnedRoute, he, decide_false, Bool.false_and]
    simp only [Function.comp_apply, hfilter]
    rw [if_neg hd, hentries, List.map_map]
    rfl

/-- A router that processes the announcement of another learns, for each
    destination but itself, the route over the other if there is one. -/
theorem processAnnouncePayload_build (r y : Router) (now now' : Bytes → Rat) (t : Nat)
    (a : Bytes) (s : Rat) (hy : y.Identified) :
    ∃ updated, (processAnnouncePayload now' (y.buildAnnouncePayload now) t a s).run r
        = .ok updated { r with table := updated.foldl RouteTable.add r.table } ∧
      ∀ d, (updated.foldl RouteTable.add r.table).allRoutes d =
        if d = r.localId then r.table.allRoutes d
        else match (y.announced now []).get? d with
          | none => r.table.allRoutes d
          | some hops => upsertRoute (learnedRoute now' t a (min s r.maxAdvertisedTrust)
              (d, min hops 0xFFFF)) (r.table.allRoutes d) := by
  -- The payload is made of whole entries, so its length is accepted.
  have hlen : ¬ (y.buildAnnouncePayload now).length % entrySize ≠ 0 := by
    rw [buildAnnouncePayload, length_flatMap_packEntry, Nat.mul_mod_right]
    simp only [ne_eq, not_true_eq_false, not_false_eq_true]
  refine ⟨r.learnedRoutes now' (y.buildAnnouncePayload now) t a s, ?_, fun d => ?_⟩
  · simp only [processAnnouncePayload, if_neg hlen]
    rfl
  · rw [RouteTable.allRoutes_foldl_add, learnedRoutes_filter r y now now' t a s hy d]
    by_cases hd : d = r.localId
    · rw [if_pos hd, if_pos hd]
      rfl
    · rw [if_neg hd, if_neg hd]
      cases (y.announced now []).get? d with
      | none => rfl
      | some hops => rfl

end Router

end Ztlnp
