import Ztlnp.Lib.Runs
import Ztlnp.Lib.Trails
import Ztlnp.Theory.Ranking
import Mathlib.Data.Prod.Lex

/-!
# Forwarding in a Mesh

Whether a packet that follows the best routes of a network of routers can
come back to one of them.

A route is chosen by trust, hops and latency together, and a destination that
was learned from a neighbour is announced to that neighbour again. So a
router with a slow or little trusted direct route can find, in the echo of
its own announcement, a route that scores better, and the two neighbours
send to each other (`best_routes_loop`).

Where that is ruled out, forwarding is free of loops
(`forwarding_loop_free`). What rules it out is that every direct route
outranks whatever can be learned from a third party, and that a router
trusts its neighbours alike. The best route is then the one with the fewest
hops, announcements only ever lower that number, and each step of a packet
goes to a router with fewer hops to go. The number saturates in an
announcement, so far out there are only ties. There the first route that was
learned wins, and the packet steps back in the order in which the routers
first heard of the destination.

Below that bound on direct routes a router can turn from its own direct route
to that of a third party. Its route then gets longer while those who heard of
it before still count on the shorter one, and there are loops again
(`quarter_route_loops`).

## Main definitions

* `Topology`, `Topology.start`: Routers, links and trust settings.
* `DirectRoute`, `Topology.connect`: Registering a direct route.
* `Announcement`, `Topology.hear`: A router processes what a neighbour built.
* `Topology.mesh`: The routers after a run.
* `Topology.nextHop`: Where the best route of a router leads.
* `Topology.Ordered`: The invariant of a run.
* `Topology.rank`: How far a router is from a destination.
* `Topology.Exchanges`, `Topology.LoopFree`: What is asked of a run, and what
  it is then free of.

## Theorems

* `Topology.hear_improves`: What is heard improves the routes in place.
* `Topology.ordered_hear`: The invariant is kept.
* `Topology.nextHop_rank`: A rank falls with every hop.
* `forwarding_loop_free`: No router is visited twice.
* `best_routes_loop`: A loop over a slow route, and one over uneven trust.
* `quarter_route_loops`: A loop over a route just below the bound.
-/

namespace Ztlnp

/-- The fixed part of a network. -/
structure Topology (ι : Type) where
  id : ι → Bytes
  /-- Who receives what a router sends on a transport to an address. -/
  reach : ι → Nat → Bytes → Option ι
  maxAdvertisedTrust : ι → Rat
  /-- The trust score that a router has for a neighbour, unless it hears an
      announcement with another. -/
  senderTrustScore : ι → Rat
  id_length : ∀ x, (id x).length = 32
  senderTrustScore_nonneg : ∀ x, 0 ≤ senderTrustScore x

/-- A direct route that an application registers at a router. -/
structure DirectRoute (ι : Type) where
  router : ι
  deviceId : Bytes
  transport : Nat
  nextHopAddr : Bytes
  trustScore : Rat
  latencyMs : Rat
  now : Rat

/-- A router processes the announcement of a neighbour, over a transport and
    an address and with some trust. Each of the two reads its own clock. -/
structure Announcement (ι : Type) where
  router : ι
  neighbour : ι
  transport : Nat
  addr : Bytes
  senderTrustScore : Rat
  builtAt : Bytes → Rat
  processedAt : Bytes → Rat

variable {ι : Type}

namespace Topology

variable (M : Topology ι)

/-- The most that an announcement can be trusted at a router. -/
def cap (x : ι) : Rat := min (M.senderTrustScore x) (max 0 (min 1 (M.maxAdvertisedTrust x)))

/-- The routers as their constructors make them. -/
def start (x : ι) : Router where
  localId := M.id x
  table := {}
  maxAdvertisedTrust := max 0 (min 1 (M.maxAdvertisedTrust x))
  localId_length := M.id_length x
  trust_nonneg := le_max_left _ _
  trust_le_one := max_le zero_le_one (min_le_left _ _)

theorem start_eq_create (x : ι) :
    Router.create (M.id x) none (M.maxAdvertisedTrust x) = .ok (M.start x) := by
  rw [Router.create, dif_pos (M.id_length x)]
  rfl

theorem cap_nonneg (x : ι) : 0 ≤ M.cap x :=
  le_min (M.senderTrustScore_nonneg x) (le_max_left _ _)

theorem cap_le_one (x : ι) : M.cap x ≤ 1 :=
  (min_le_right _ _).trans (max_le zero_le_one (min_le_left _ _))

/-- The router that the best route towards a destination leads to. A packet
    that has arrived goes nowhere. -/
def nextHop (net : ι → Router) (now : Bytes → Rat) (dest : Bytes) (x : ι) : Option ι :=
  if M.id x = dest then none
  else match (net x).table.best (now dest) dest with
    | none => none
    | some e => M.reach x e.transport e.nextHopAddr

variable [DecidableEq ι]

/-- One router registers a direct route. -/
def connect (net : ι → Router) (d : DirectRoute ι) : ι → Router :=
  Function.update net d.router ((Router.addDirectRoute d.now d.deviceId d.transport d.nextHopAddr
    d.trustScore d.latencyMs).run (net d.router)).final

/-- One router hears the announcement of a neighbour. -/
def hear (net : ι → Router) (a : Announcement ι) : ι → Router :=
  Function.update net a.router ((Router.processAnnouncePayload a.processedAt
    ((net a.neighbour).buildAnnouncePayload a.builtAt) a.transport a.addr
    a.senderTrustScore).run (net a.router)).final

/-- The routers after their direct routes are registered and a sequence of
    announcements is processed. -/
def mesh (directs : List (DirectRoute ι)) (heard : List (Announcement ι)) : ι → Router :=
  heard.foldl hear (directs.foldl connect M.start)

end Topology

/-- A direct route goes over a link to its destination, with the trust and
    latency that a route may have. -/
structure DirectRoute.Sound (d : DirectRoute ι) (M : Topology ι) : Prop where
  deviceId_length : d.deviceId.length = 32
  trustScore_pos : 0 < d.trustScore
  trustScore_le : d.trustScore ≤ 1
  latencyMs_nonneg : 0 ≤ d.latencyMs
  reaches : ∀ y, M.reach d.router d.transport d.nextHopAddr = some y → M.id y = d.deviceId

/-- A direct route scores higher than anything a neighbour can announce for
    another device: three hops, at the highest trust. -/
def DirectRoute.Outranks (d : DirectRoute ι) (M : Topology ι) : Prop :=
  27 / 100 * M.cap d.router < d.trustScore / max d.latencyMs 1

/-- The route that is registered. -/
def DirectRoute.entry (d : DirectRoute ι) : RouteEntry where
  deviceId := d.deviceId
  transport := d.transport
  nextHopAddr := d.nextHopAddr
  trustScore := d.trustScore
  latencyMs := d.latencyMs
  lastSeen := d.now

/-- The score of one hop is the trust over the latency. -/
theorem DirectRoute.entry_score (d : DirectRoute ι) :
    d.entry.score = d.trustScore / max d.latencyMs 1 := by
  simp only [RouteEntry.score, entry, Nat.cast_one, one_mul]

/-- The announcement comes over a link to the neighbour that built it. -/
def Announcement.Linked (a : Announcement ι) (M : Topology ι) : Prop :=
  M.reach a.router a.transport a.addr = some a.neighbour

/-- The announcement is trusted as those of all neighbours are. -/
def Announcement.Even (a : Announcement ι) (M : Topology ι) : Prop :=
  a.senderTrustScore = M.senderTrustScore a.router

instance decidableLinked [DecidableEq ι] (a : Announcement ι) (M : Topology ι) :
    Decidable (a.Linked M) :=
  inferInstanceAs (Decidable (_ = _))

instance decidableEven (a : Announcement ι) (M : Topology ι) : Decidable (a.Even M) :=
  inferInstanceAs (Decidable (_ = _))

/-- The best route of a router when nothing is stale. -/
def Router.top (r : Router) (d : Bytes) : Option RouteEntry :=
  (r.table.allRoutes d).argmax RouteEntry.score

/-- The hop count of a route that was announced by a neighbour, from the
    neighbour's own. -/
def relayedHops (h : Nat) : Nat := min (h + 1) 0xFFFF + 1

theorem relayedHops_mono (h h' : Nat) (hle : h ≤ h') : relayedHops h ≤ relayedHops h' := by
  unfold relayedHops
  omega

namespace Topology

variable (M : Topology ι)

/-- Where a route of a router leads: to the destination itself, or to a
    neighbour whose best route is shorter, as far as an announcement can
    tell. -/
def Leads (net : ι → Router) (x : ι) (d : Bytes) (e : RouteEntry) : Prop :=
  ∀ y, M.reach x e.transport e.nextHopAddr = some y →
    (e.hopCount = 1 ∧ M.id y = d) ∨
      (M.id y ≠ d ∧ ∃ b, (net y).top d = some b ∧ relayedHops b.hopCount ≤ e.hopCount)

/-- The invariant of a run, with the order in which the routers first heard of
    each destination. -/
structure Ordered (net : ι → Router) (born : ι → Bytes → Nat) (n : Nat) : Prop where
  localId : ∀ x, (net x).localId = M.id x
  capped : ∀ x, min (M.senderTrustScore x) (net x).maxAdvertisedTrust = M.cap x
  identified : ∀ x, (net x).Identified
  ranked : ∀ x d, Ranked (M.cap x) ((net x).table.allRoutes d)
  leads : ∀ x d, ∀ e ∈ (net x).table.allRoutes d, M.Leads net x d e
  bounded : ∀ x d, (net x).table.allRoutes d ≠ [] → born x d < n
  /-- Whoever was first announced by a neighbour heard of it later. -/
  older : ∀ x d, ∀ e ∈ ((net x).table.allRoutes d).head?, 3 ≤ e.hopCount →
    ∀ y, M.reach x e.transport e.nextHopAddr = some y → born y d < born x d

/-- Only direct routes have been registered. -/
structure Wired (net : ι → Router) : Prop where
  localId : ∀ x, (net x).localId = M.id x
  capped : ∀ x, min (M.senderTrustScore x) (net x).maxAdvertisedTrust = M.cap x
  identified : ∀ x, (net x).Identified
  direct : ∀ x d, ∀ e ∈ (net x).table.allRoutes d, e.hopCount = 1 ∧
    27 / 100 * M.cap x < e.score ∧
    ∀ y, M.reach x e.transport e.nextHopAddr = some y → M.id y = d

variable {M} {net : ι → Router} {born : ι → Bytes → Nat} {n : Nat}

theorem wired_start (M : Topology ι) : M.Wired M.start where
  localId := fun _ => rfl
  capped := fun _ => rfl
  identified := fun _ _ h => absurd rfl h
  direct := fun _ _ _ h => absurd h List.not_mem_nil

theorem Wired.ordered (h : M.Wired net) : M.Ordered net (fun _ _ => 0) 1 where
  localId := h.localId
  capped := h.capped
  identified := h.identified
  ranked := by
    intro x d
    refine ⟨fun e he => ?_, fun _ _ _ _ a ha => ?_⟩
    · rcases h.direct x d e he with ⟨hhop, hscore, _⟩
      exact .near hhop (Or.inl hscore)
    · exact (h.direct x d a (List.mem_of_mem_head? ha)).1
  leads := by
    intro x d e he y hy
    rcases h.direct x d e he with ⟨hhop, _, hreach⟩
    exact Or.inl ⟨hhop, hreach y hy⟩
  bounded := fun _ _ _ => Nat.zero_lt_one
  older := by
    intro x d e he hthree
    have hone := (h.direct x d e (List.mem_of_mem_head? he)).1
    omega

/-- The score of a route from an announcement depends on its hops only. -/
theorem learnedRoute_score (M : Topology ι) (x : ι) (now : Bytes → Rat) (t : Nat) (addr d : Bytes)
    (hops : Nat) :
    (Router.learnedRoute now t addr (M.cap x) (d, hops)).score
      = M.cap x * decay (hops + 1) := by
  have hpow : ((9 : Rat) / 10) ^ hops ≤ 1 := pow_le_one₀ (by norm_num) (by norm_num)
  have htrust : M.cap x * (9 / 10) ^ hops ≤ 1 :=
    mul_le_one₀ (M.cap_le_one x) (pow_nonneg (by norm_num) _) hpow
  simp only [RouteEntry.score, Router.learnedRoute, min_eq_left htrust, decay,
    Nat.add_sub_cancel, max_eq_right zero_le_one, mul_one, mul_div_assoc]

/-- What a router offers its neighbours for a destination: nothing to go for
    itself, one hop more than its best route otherwise. -/
def Offers (M : Topology ι) (net : ι → Router) (y : ι) (d : Bytes) (hops : Nat) : Prop :=
  (M.id y = d ∧ hops = 0) ∨
    (M.id y ≠ d ∧ ∃ b, (net y).top d = some b ∧ hops = min (b.hopCount + 1) 0xFFFF)

/-- A route from an offer is graded. -/
theorem Offers.graded (h : M.Ordered net born n) {y : ι} {d : Bytes} {hops : Nat}
    (hoff : M.Offers net y d hops) (x : ι) (now : Bytes → Rat) (t : Nat) (addr : Bytes) :
    (Router.learnedRoute now t addr (M.cap x) (d, hops)).Graded (M.cap x) := by
  have hscore := learnedRoute_score M x now t addr d hops
  rcases hoff with ⟨_, rfl⟩ | ⟨_, b, hb, rfl⟩
  · refine .near rfl (Or.inr ?_)
    rw [hscore]
    norm_num [decay]
  · have hpos := ((h.ranked y d).graded b (List.argmax_mem hb)).hopCount_pos
    refine .far ?_ ?_ hscore
    · simp only [Router.learnedRoute]
      omega
    · simp only [Router.learnedRoute, maxHops]
      omega

/-- A route that is replaced by an offer was no shorter. -/
theorem Offers.le_replaced {x y : ι} {d : Bytes} {hops : Nat} {e : RouteEntry}
    (hoff : M.Offers net y d hops) (hlead : M.Leads net x d e)
    (hreach : M.reach x e.transport e.nextHopAddr = some y) : hops + 1 ≤ e.hopCount := by
  rcases hlead y hreach with ⟨hhop, hid⟩ | ⟨hid, b, hb, hle⟩
  · rcases hoff with ⟨_, rfl⟩ | ⟨hne, _⟩
    · rw [hhop]
    · exact absurd hid hne
  · rcases hoff with ⟨hself, _⟩ | ⟨_, b', hb', rfl⟩
    · exact absurd hself hid
    · rw [hb, Option.some.injEq] at hb'
      rw [← hb']
      exact hle

/-- A router that a far route leads to knows the destination. -/
theorem Leads.known {x y : ι} {d : Bytes} {e : RouteEntry} (h : M.Leads net x d e)
    (hthree : 3 ≤ e.hopCount) (hy : M.reach x e.transport e.nextHopAddr = some y) :
    (net y).table.allRoutes d ≠ [] := by
  rcases h y hy with ⟨hone, _⟩ | ⟨_, b, hb, _⟩
  · omega
  · exact List.ne_nil_of_mem (List.argmax_mem hb)

/-- How far a router is from a destination: by the hops of its best route,
    then by when it first heard of it. -/
def rank (M : Topology ι) (net : ι → Router) (born : ι → Bytes → Nat) (dest : Bytes) (x : ι) :
    Nat ×ₗ Nat :=
  if M.id x = dest then toLex (0, 0)
  else toLex (((net x).top dest).elim 0 RouteEntry.hopCount, born x dest)

/-- The rank falls with every hop. -/
theorem nextHop_rank (h : M.Ordered net born n) (now : Bytes → Rat)
    (hfresh : ∀ x, (net x).table.Fresh now) (dest : Bytes) (x y : ι)
    (hnext : M.nextHop net now dest x = some y) :
    M.rank net born dest y < M.rank net born dest x := by
  unfold nextHop at hnext
  by_cases hx : M.id x = dest
  · rw [if_pos hx] at hnext
    simp only [reduceCtorEq] at hnext
  · rw [if_neg hx, RouteTable.best_fresh _ _ (hfresh x)] at hnext
    cases htop : ((net x).table.allRoutes dest).argmax RouteEntry.score with
    | none =>
        rw [htop] at hnext
        simp only [reduceCtorEq] at hnext
    | some e =>
        rw [htop] at hnext
        have hmem := List.argmax_mem htop
        have hgraded := (h.ranked x dest).graded e hmem
        have hpos := hgraded.hopCount_pos
        have hmax := hgraded.hopCount_le
        have hrank : M.rank net born dest x = toLex (e.hopCount, born x dest) := by
          rw [rank, if_neg hx, Router.top, htop, Option.elim_some]
        rw [hrank, rank]
        rcases h.leads x dest e hmem y hnext with ⟨_, hid⟩ | ⟨hid, b, hb, hle⟩
        · -- The packet has arrived.
          rw [if_pos hid]
          exact Prod.Lex.toLex_lt_toLex.mpr (Or.inl hpos)
        · rw [if_neg hid, hb, Option.elim_some]
          refine Prod.Lex.toLex_lt_toLex.mpr ?_
          have hbmax := ((h.ranked y dest).graded b (List.argmax_mem hb)).hopCount_le
          unfold relayedHops at hle
          unfold maxHops at hmax hbmax
          by_cases hlt : b.hopCount < e.hopCount
          · exact Or.inl hlt
          · -- Both are as far as a route can be, so the first route is taken.
            have hfar : e.hopCount = maxHops := by
              unfold maxHops
              omega
            have hhead := (h.ranked x dest).top_eq_head (M.cap_nonneg x) htop hfar
            refine Or.inr ⟨by omega, ?_⟩
            exact h.older x dest e hhead (by rw [hfar]; decide) y hnext

/-- A destination for which there is no route yet is stamped with the time. -/
def stamp (net : ι → Router) (born : ι → Bytes → Nat) (n : Nat) (z : ι) (d : Bytes) : Nat :=
  if (net z).table.allRoutes d = [] then n else born z d

theorem stamp_known {z : ι} {d : Bytes} (hknown : (net z).table.allRoutes d ≠ []) :
    stamp net born n z d = born z d :=
  if_neg hknown

variable [DecidableEq ι]

/-- What registering a direct route changes: one router gets one route. -/
theorem connect_cases (net : ι → Router) (d : DirectRoute ι) (z : ι) :
    (connect net d z).localId = (net z).localId ∧
    (connect net d z).maxAdvertisedTrust = (net z).maxAdvertisedTrust ∧
    ∀ b, ∀ e ∈ (connect net d z).table.allRoutes b,
      (z = d.router ∧ b = d.deviceId ∧ e = d.entry) ∨ e ∈ (net z).table.allRoutes b := by
  by_cases hz : z = d.router
  · have hself : connect net d d.router
        = { net d.router with table := (net d.router).table.add d.entry } :=
      Function.update_self _ _ _
    rw [hz, hself]
    refine ⟨rfl, rfl, fun b e he => ?_⟩
    rw [RouteTable.allRoutes_add] at he
    by_cases hb : b = d.entry.deviceId
    · rw [if_pos hb] at he
      rcases mem_upsertRoute d.entry _ e he with hnew | hold
      · exact Or.inl ⟨rfl, hb, hnew⟩
      · exact Or.inr hold
    · rw [if_neg hb] at he
      exact Or.inr he
  · have hother : connect net d z = net z := Function.update_of_ne hz _ _
    rw [hother]
    exact ⟨rfl, rfl, fun _ _ he => Or.inr he⟩

/-- Registering a direct route over a link to its destination. -/
theorem wired_connect (h : M.Wired net) (d : DirectRoute ι) (hd : d.Sound M)
    (hout : d.Outranks M) : M.Wired (connect net d) where
  localId := by
    intro x
    rw [(connect_cases net d x).1]
    exact h.localId x
  capped := by
    intro x
    rw [(connect_cases net d x).2.1]
    exact h.capped x
  identified := by
    intro x b hb
    rcases List.exists_mem_of_ne_nil _ hb with ⟨e, he⟩
    rcases (connect_cases net d x).2.2 b e he with ⟨_, hid, _⟩ | hold
    · rw [hid]
      exact hd.deviceId_length
    · exact h.identified x b (List.ne_nil_of_mem hold)
  direct := by
    intro x b e he
    rcases (connect_cases net d x).2.2 b e he with ⟨hx, hid, hnew⟩ | hold
    · rw [hx, hid, hnew]
      refine ⟨rfl, ?_, hd.reaches⟩
      rw [d.entry_score]
      exact hout
    · exact h.direct x b e hold

/-- Any number of direct routes. -/
theorem wired_directs (M : Topology ι) (directs : List (DirectRoute ι))
    (h : ∀ d ∈ directs, d.Sound M ∧ d.Outranks M) : M.Wired (directs.foldl connect M.start) :=
  along_invariant M.Wired (fun _ d hnet hd => wired_connect hnet d hd.1 hd.2) M.start directs
    (wired_start M) (along_of_forall _ directs h)

/-- What hearing an announcement changes: at most one route per destination,
    at the router that heard it. -/
theorem hear_cases (h : M.Ordered net born n) (a : Announcement ι) (heven : a.Even M)
    (hfresh : (net a.neighbour).table.Fresh a.builtAt) (z : ι) :
    (hear net a z).localId = (net z).localId ∧
    (hear net a z).maxAdvertisedTrust = (net z).maxAdvertisedTrust ∧
    ∀ d, (hear net a z).table.allRoutes d = (net z).table.allRoutes d ∨
      (z = a.router ∧ ∃ hops, M.Offers net a.neighbour d hops ∧
        (hear net a z).table.allRoutes d = upsertRoute (Router.learnedRoute a.processedAt
          a.transport a.addr (M.cap z) (d, hops)) ((net z).table.allRoutes d)) := by
  by_cases hz : z = a.router
  · subst hz
    rcases Router.processAnnouncePayload_build (net a.router) (net a.neighbour) a.builtAt
      a.processedAt a.transport a.addr a.senderTrustScore (h.identified a.neighbour) with
      ⟨updated, hrun, hroutes⟩
    have hself : hear net a a.router = { net a.router with
        table := updated.foldl RouteTable.add (net a.router).table } := by
      rw [hear, Function.update_self, hrun]
      rfl
    rw [hself]
    refine ⟨rfl, rfl, fun d => ?_⟩
    simp only [hroutes d]
    by_cases hd : d = (net a.router).localId
    · left
      rw [if_pos hd]
    · rw [if_neg hd, Router.announced_get?, h.localId, RouteTable.best_fresh _ _ hfresh]
      by_cases hy : d = M.id a.neighbour
      · -- The neighbour announces itself.
        right
        refine ⟨trivial, 0, Or.inl ⟨hy.symm, rfl⟩, ?_⟩
        rw [if_pos hy, heven, h.capped]
        rfl
      · rw [if_neg hy]
        cases hb : ((net a.neighbour).table.allRoutes d).argmax RouteEntry.score with
        | none =>
            left
            rfl
        | some b =>
            right
            refine ⟨trivial, min (b.hopCount + 1) 0xFFFF, Or.inr ⟨Ne.symm hy, b, hb, rfl⟩, ?_⟩
            rw [Option.map_some, heven, h.capped]
  · have hother : hear net a z = net z := Function.update_of_ne hz _ _
    rw [hother]
    exact ⟨rfl, rfl, fun d => Or.inl rfl⟩

/-- Whatever a router has a route to has an identifier of the right length. -/
theorem hear_identified (h : M.Ordered net born n) (a : Announcement ι) (heven : a.Even M)
    (hfresh : (net a.neighbour).table.Fresh a.builtAt) (x : ι) : (hear net a x).Identified := by
  intro d hd
  rcases (hear_cases h a heven hfresh x).2.2 d with hsame | ⟨_, hops, hoff, _⟩
  · rw [hsame] at hd
    exact h.identified x d hd
  · rcases hoff with ⟨hid, _⟩ | ⟨_, b, hb, _⟩
    · rw [← hid]
      exact M.id_length a.neighbour
    · exact h.identified a.neighbour d (List.ne_nil_of_mem (List.argmax_mem hb))

section Hearing

variable (h : M.Ordered net born n) (a : Announcement ι) (hlink : a.Linked M) (heven : a.Even M)
  (hfresh : (net a.neighbour).table.Fresh a.builtAt)
include h hlink heven hfresh

/-- What is heard improves the routes in place. -/
theorem hear_improves (z : ι) (d : Bytes) :
    Improves ((net z).table.allRoutes d) ((hear net a z).table.allRoutes d) ∧
      Ranked (M.cap z) ((hear net a z).table.allRoutes d) := by
  rcases (hear_cases h a heven hfresh z).2.2 d with hsame | ⟨hz, hops, hoff, hnew⟩
  · rw [hsame]
    exact ⟨Improves.refl _, h.ranked z d⟩
  · subst hz
    -- A route over the same link leads to the same neighbour.
    have hle : ∀ e ∈ (net a.router).table.allRoutes d, e.transport = a.transport →
        e.nextHopAddr = a.addr → hops + 1 ≤ e.hopCount := by
      intro e he ht haddr
      refine hoff.le_replaced (h.leads a.router d e he) ?_
      rw [ht, haddr]
      exact hlink
    have himp := improves_upsertRoute (Router.learnedRoute a.processedAt a.transport a.addr
      (M.cap a.router) (d, hops)) hle
    rw [hnew]
    refine ⟨himp, (h.ranked a.router d).upsertRoute _ (hoff.graded h _ _ _ _) ?_ himp⟩
    intro hc
    rw [learnedRoute_score, hc, zero_mul]
    exact lt_irrefl 0

/-- The best route gets no longer. -/
theorem hear_top (z : ι) (d : Bytes) (b : RouteEntry) (hb : (net z).top d = some b) :
    ∃ b', (hear net a z).top d = some b' ∧ b'.hopCount ≤ b.hopCount := by
  rcases hear_improves h a hlink heven hfresh z d with ⟨himp, hranked⟩
  exact (h.ranked z d).top_mono hranked (M.cap_nonneg z) himp hb

/-- A route leads where it did, and on from there no further. -/
theorem hear_leads_old (x : ι) (d : Bytes) (e : RouteEntry) (hlead : M.Leads net x d e) :
    M.Leads (hear net a) x d e := by
  intro y hy
  rcases hlead y hy with hnear | ⟨hid, b, hb, hle⟩
  · exact Or.inl hnear
  · rcases hear_top h a hlink heven hfresh y d b hb with ⟨b', hb', hle'⟩
    exact Or.inr ⟨hid, b', hb', (relayedHops_mono _ _ hle').trans hle⟩

/-- A route that was just learned leads to the neighbour that offered it. -/
theorem hear_leads_new (d : Bytes) (hops : Nat) (hoff : M.Offers net a.neighbour d hops) :
    M.Leads (hear net a) a.router d (Router.learnedRoute a.processedAt a.transport a.addr
      (M.cap a.router) (d, hops)) := by
  intro y hy
  have hyn : y = a.neighbour := by
    have hsome := hy.symm.trans hlink
    rwa [Option.some.injEq] at hsome
  rw [hyn]
  rcases hoff with ⟨hid, rfl⟩ | ⟨hid, b, hb, rfl⟩
  · exact Or.inl ⟨rfl, hid⟩
  · rcases hear_top h a hlink heven hfresh a.neighbour d b hb with ⟨b', hb', hle⟩
    exact Or.inr ⟨hid, b', hb', relayedHops_mono _ _ hle⟩

theorem hear_leads (x : ι) (d : Bytes) (e : RouteEntry)
    (he : e ∈ (hear net a x).table.allRoutes d) : M.Leads (hear net a) x d e := by
  rcases (hear_cases h a heven hfresh x).2.2 d with hsame | ⟨hx, hops, hoff, hnew⟩
  · rw [hsame] at he
    exact hear_leads_old h a hlink heven hfresh x d e (h.leads x d e he)
  · rw [hnew] at he
    rcases mem_upsertRoute _ _ e he with hlearned | hold
    · rw [hlearned, hx]
      exact hear_leads_new h a hlink heven hfresh d hops hoff
    · exact hear_leads_old h a hlink heven hfresh x d e (h.leads x d e hold)

/-- The first route is the one that was first before, or took its place. -/
theorem hear_head (x : ι) (d : Bytes) (hknown : (net x).table.allRoutes d ≠ []) (e : RouteEntry)
    (he : ((hear net a x).table.allRoutes d).head? = some e) :
    ∃ e₀, ((net x).table.allRoutes d).head? = some e₀ ∧ e.hopCount ≤ e₀.hopCount ∧
      M.reach x e₀.transport e₀.nextHopAddr = M.reach x e.transport e.nextHopAddr := by
  have hhead := List.head?_eq_some_head hknown
  generalize ((net x).table.allRoutes d).head hknown = e₀ at hhead
  rw [List.head?_eq_getElem?] at hhead he
  refine ⟨e₀, by rw [List.head?_eq_getElem?]; exact hhead, ?_⟩
  rcases (hear_improves h a hlink heven hfresh x d).1 0 e₀ hhead with ⟨e', he', hle⟩
  rw [he, Option.some.injEq] at he'
  rw [he']
  refine ⟨hle, ?_⟩
  rcases (hear_cases h a heven hfresh x).2.2 d with hsame | ⟨hx, hops, hoff, hnew⟩
  · rw [hsame, hhead, Option.some.injEq] at he
    rw [he, he']
  · rw [hnew] at he
    rcases getElem?_upsertRoute _ _ 0 e₀ hhead with hstays | ⟨htakes, ht, haddr⟩
    · rw [he, Option.some.injEq] at hstays
      rw [← hstays, he']
    · rw [he, Option.some.injEq] at htakes
      rw [← he', htakes, ht, haddr]

/-- Hearing an announcement keeps the order in which routers first heard of a
    destination. -/
theorem hear_older (x : ι) (d : Bytes) (e : RouteEntry)
    (he : ((hear net a x).table.allRoutes d).head? = some e)
    (hthree : 3 ≤ e.hopCount) (y : ι) (hy : M.reach x e.transport e.nextHopAddr = some y) :
    stamp net born n y d < stamp net born n x d := by
  by_cases hknown : (net x).table.allRoutes d = []
  · -- The destination is new here, so the neighbour knew it before.
    rw [stamp, stamp, if_pos hknown]
    rcases (hear_cases h a heven hfresh x).2.2 d with hsame | ⟨hx, hops, hoff, hnew⟩
    · rw [hsame, hknown, List.head?_nil] at he
      simp only [reduceCtorEq] at he
    · rw [hnew, hknown, upsertRoute, List.head?_cons, Option.some.injEq] at he
      subst hx
      rw [← he] at hy hthree
      have hyn : some y = some a.neighbour := hy.symm.trans hlink
      rw [Option.some.injEq] at hyn
      rcases hoff with ⟨_, rfl⟩ | ⟨_, b, hb, _⟩
      · simp only [Router.learnedRoute] at hthree
        omega
      · have hne : (net y).table.allRoutes d ≠ [] := by
          rw [hyn]
          exact List.ne_nil_of_mem (List.argmax_mem hb)
        rw [if_neg hne]
        exact h.bounded y d hne
  · -- The first route still leads to the router it always led to.
    rcases hear_head h a hlink heven hfresh x d hknown e he with ⟨e₀, he₀, hle, hreach⟩
    rw [← hreach] at hy
    have hlead := h.leads x d e₀ (List.mem_of_mem_head? he₀)
    rw [stamp_known hknown, stamp_known (hlead.known (hthree.trans hle) hy)]
    exact h.older x d e₀ he₀ (hthree.trans hle) y hy

/-- An announcement over a link, from a router without stale routes, keeps the
    invariant. -/
theorem ordered_hear : M.Ordered (hear net a) (stamp net born n) (n + 1) where
  localId := by
    intro x
    rw [(hear_cases h a heven hfresh x).1]
    exact h.localId x
  capped := by
    intro x
    rw [(hear_cases h a heven hfresh x).2.1]
    exact h.capped x
  identified := hear_identified h a heven hfresh
  ranked := fun x d => (hear_improves h a hlink heven hfresh x d).2
  leads := hear_leads h a hlink heven hfresh
  bounded := by
    intro x d _
    by_cases hknown : (net x).table.allRoutes d = []
    · rw [stamp, if_pos hknown]
      exact Nat.lt_succ_self n
    · rw [stamp_known hknown]
      exact (h.bounded x d hknown).trans (Nat.lt_succ_self n)
  older := hear_older h a hlink heven hfresh

end Hearing

end Topology

variable [DecidableEq ι]

/-- Routers process what their neighbours built, over the links to them, and no
    route is stale: not when an announcement is built, and not in the end. -/
structure Topology.Exchanges (M : Topology ι) (directs : List (DirectRoute ι))
    (heard : List (Announcement ι)) (now : Bytes → Rat) : Prop where
  linked : Along Topology.hear (fun net a => a.Linked M ∧
    (net a.neighbour).table.Fresh a.builtAt) (directs.foldl Topology.connect M.start) heard
  fresh : ∀ x, (M.mesh directs heard x).table.Fresh now

/-- Following the best routes, towards any destination, from any router and
    for any number of hops, visits no router twice. -/
def Topology.LoopFree (M : Topology ι) (directs : List (DirectRoute ι))
    (heard : List (Announcement ι)) (now : Bytes → Rat) : Prop :=
  ∀ (dest : Bytes) (n : Nat) (x : ι),
    (trail (M.nextHop (M.mesh directs heard) now dest) n x).Nodup

/-- In a network where direct routes outrank what third parties announce and
    routers trust their neighbours alike, forwarding is free of loops. -/
theorem forwarding_loop_free (M : Topology ι) (directs : List (DirectRoute ι))
    (heard : List (Announcement ι)) (now : Bytes → Rat)
    (hdirect : ∀ d ∈ directs, d.Sound M ∧ d.Outranks M) (heven : ∀ a ∈ heard, a.Even M)
    (hrun : M.Exchanges directs heard now) : M.LoopFree directs heard now := by
  have hinv : ∃ born t, M.Ordered (M.mesh directs heard) born t := by
    refine along_invariant (fun net => ∃ born t, M.Ordered net born t) ?_ _ heard
      ⟨_, _, (Topology.wired_directs M directs hdirect).ordered⟩
      (along_and _ heard hrun.linked (along_of_forall _ heard heven))
    rintro net a ⟨born, t, hnet⟩ ⟨⟨hlink, hbuilt⟩, heven⟩
    exact ⟨_, _, Topology.ordered_hear hnet a hlink heven hbuilt⟩
  rcases hinv with ⟨born, t, hinv⟩
  intro dest n x
  exact trail_nodup (Topology.nextHop_rank hinv now hrun.fresh dest) n x

section Examples

variable {k : Nat}

/-- Routers with links between any two. The address of a router is its
    number. -/
def clique (k : Nat) : Topology (Fin k) where
  id := fun x => beEncode 32 x.val
  reach := fun _ _ addr => (List.finRange k).find? (fun y => addr = beEncode 1 y.val)
  maxAdvertisedTrust := fun _ => 95 / 100
  senderTrustScore := fun _ => 1
  id_length := fun _ => beEncode_length _ _
  senderTrustScore_nonneg := fun _ => zero_le_one

/-- A direct route from one router to another. -/
def direct (x y : Fin k) (trustScore latencyMs : Rat) : DirectRoute (Fin k) where
  router := x
  deviceId := beEncode 32 y.val
  transport := 0
  nextHopAddr := beEncode 1 y.val
  trustScore := trustScore
  latencyMs := latencyMs
  now := 0

/-- One router hears another. No time passes. -/
def hears (x y : Fin k) (senderTrustScore : Rat := 1) : Announcement (Fin k) where
  router := x
  neighbour := y
  transport := 0
  addr := beEncode 1 y.val
  senderTrustScore := senderTrustScore
  builtAt := fun _ => 0
  processedAt := fun _ => 0

theorem direct_sound (x y : Fin k) (trustScore latencyMs : Rat) (hpos : 0 < trustScore)
    (hle : trustScore ≤ 1) (hlatency : 0 ≤ latencyMs)
    (hy : (clique k).reach x 0 (beEncode 1 y.val) = some y) :
    (direct x y trustScore latencyMs).Sound (clique k) where
  deviceId_length := beEncode_length _ _
  trustScore_pos := hpos
  trustScore_le := hle
  latencyMs_nonneg := hlatency
  reaches := by
    intro z hz
    have heq : some z = some y := hz.symm.trans hy
    rw [Option.some.injEq] at heq
    rw [heq]
    rfl

/-- A trusted and fast route to the last of three routers, which the other two
    tell each other about. -/
theorem forwarding_loop_free_fastRoute :
    (clique 3).LoopFree [direct 1 2 1 0] [hears 0 1, hears 1 0] (fun _ => 0) := by
  refine forwarding_loop_free (clique 3) [direct 1 2 1 0] [hears 0 1, hears 1 0] (fun _ => 0)
    ?_ (by decide +kernel) ⟨by decide +kernel, by decide +kernel⟩
  intro d hd
  rw [List.mem_singleton] at hd
  rw [hd]
  refine ⟨direct_sound 1 2 1 0 zero_lt_one le_rfl le_rfl (by decide), ?_⟩
  norm_num [DirectRoute.Outranks, direct, Topology.cap, clique]

/-- A router prefers the echo of its own announcement, if its direct route is
    slow or if it trusts the destination less than the neighbour. -/
theorem best_routes_loop :
    ((direct 1 2 (1 / 10) 1000).Sound (clique 3) ∧
      (∀ a ∈ [hears 0 1, hears 1 0], a.Even (clique 3)) ∧
      (clique 3).Exchanges [direct 1 2 (1 / 10) 1000] [hears 0 1, hears 1 0] (fun _ => 0) ∧
      ¬ (clique 3).LoopFree [direct 1 2 (1 / 10) 1000] [hears 0 1, hears 1 0] (fun _ => 0)) ∧
    (clique 3).Exchanges [] [hears 1 2 (1 / 10), hears 0 1, hears 1 0] (fun _ => 0) ∧
      ¬ (clique 3).LoopFree [] [hears 1 2 (1 / 10), hears 0 1, hears 1 0] (fun _ => 0) := by
  refine ⟨⟨direct_sound 1 2 _ _ (by norm_num) (by norm_num) (by norm_num) (by decide),
    by decide +kernel, ⟨by decide +kernel, by decide +kernel⟩, fun h => ?_⟩,
    ⟨by decide +kernel, by decide +kernel⟩, fun h => ?_⟩
  · exact absurd (h (beEncode 32 2) 2 1) (by decide +kernel)
  · exact absurd (h (beEncode 32 2) 2 1) (by decide +kernel)

/-- The direct routes of two of seven routers to the first. The second route
    scores a quarter, which is just too little to outrank a third party. -/
def quarterRoutes : List (DirectRoute (Fin 7)) := [direct 1 0 1 0, direct 4 0 (1 / 4) 0]

/-- The last two routers first hear of the first one from far away, then from
    the router with the weak route. When that router turns to the other direct
    route, its own gets longer, and those of the last two tie with each
    other's. -/
def quarterExchanges : List (Announcement (Fin 7)) :=
  [hears 2 1, hears 3 2, hears 5 3, hears 6 5, hears 5 6, hears 5 4, hears 6 4, hears 5 6,
    hears 6 5, hears 4 1, hears 5 4, hears 6 4]

/-- A direct route that beats its echo is not enough. -/
theorem quarter_route_loops :
    (∀ d ∈ quarterRoutes, d.Sound (clique 7)) ∧
    (∀ a ∈ quarterExchanges, a.Even (clique 7)) ∧
    (clique 7).Exchanges quarterRoutes quarterExchanges (fun _ => 0) ∧
    ¬ (clique 7).LoopFree quarterRoutes quarterExchanges (fun _ => 0) := by
  have hrun : Along Topology.hear (fun net a => a.Linked (clique 7) ∧
        (net a.neighbour).table.Fresh a.builtAt)
        (quarterRoutes.foldl Topology.connect (clique 7).start) quarterExchanges ∧
      (∀ x, ((clique 7).mesh quarterRoutes quarterExchanges x).table.Fresh (fun _ => 0)) ∧
      ¬ (trail ((clique 7).nextHop ((clique 7).mesh quarterRoutes quarterExchanges) (fun _ => 0)
        (beEncode 32 0)) 2 5).Nodup := by
    decide +kernel
  refine ⟨?_, by decide +kernel, ⟨hrun.1, hrun.2.1⟩, fun h => hrun.2.2 (h (beEncode 32 0) 2 5)⟩
  · intro d hd
    rw [quarterRoutes, List.mem_cons, List.mem_singleton] at hd
    rcases hd with hd | hd
    · rw [hd]
      exact direct_sound 1 0 1 0 zero_lt_one le_rfl le_rfl (by decide)
    · rw [hd]
      exact direct_sound 4 0 _ 0 (by norm_num) (by norm_num) le_rfl (by decide)

end Examples

end Ztlnp
