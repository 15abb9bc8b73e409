import Ztlnp.Theory.Hearing
import Ztlnp.Theory.Mesh

/-!
# What a Router Announces

What is in the announcement of a router, and what the hop counts in it come to
along a line of routers.

An announcement names each destination once, with the least of what the router
has to offer: one hop more than each count it was given, and one more than its
best route. It starts with the router itself at no hops, and nothing is lower.
Counts saturate where they are packed, so they always fit their field. The one
thing that can go wrong is the choice of the best route, whose score divides
by its hops. A route that was learned or registered has at least one.

The count is adjusted twice on its way. A router that announces a route of its
own adds one for the hop to itself, and the router that hears it adds one for
the hop to the sender, which is the same hop. Only what a router says about
itself is adjusted once. Along a line the counts are therefore the odd
numbers, one to the first router and three to the second (`lined_line`), until
they saturate.

## Main definitions

* `RouteEntry.Scorable`: A route whose score the code can compute.
* `Router.ownHops`: How far a router itself has to go.
* `Router.heard`: A router that has processed the announcement of another.
* `Stretch`, `Topology.line`: Routers that announce to each other in order.
* `Topology.Lined`: The invariant of a line.

## Theorems

* `Router.tryBuildAnnouncePayload_eq_ok`: When building an announcement raises.
* `unpacked_announcement`: What the parser reads off a payload.
* `announcement_is_least`: What its bytes say.
* `Router.heard_hops`: What a hop count comes to over one link.
* `Topology.lined_line`: What it comes to along a line.
* `hop_count_is_links_iff`: When it is the number of links.
-/

namespace Ztlnp

/-- The score of a route is a number the code can compute: there is a hop to
    divide by, and not more of them than a float can hold. -/
def RouteEntry.Scorable (e : RouteEntry) : Prop := 1 ≤ e.hopCount ∧ e.hopCount < floatLimit

theorem RouteEntry.tryScore_eq_ok (e : RouteEntry) (s : Rat) :
    e.tryScore = .ok s ↔ e.Scorable ∧ s = e.score := by
  rw [tryScore, Scorable]
  by_cases hbig : floatLimit ≤ e.hopCount
  · rw [if_pos hbig]
    exact iff_of_false (fun h => by cases h) (fun h => absurd hbig (not_le.mpr h.1.2))
  · rw [if_neg hbig]
    by_cases hzero : e.hopCount = 0
    · rw [if_pos hzero]
      exact iff_of_false (fun h => by cases h) (fun h => by omega)
    · rw [if_neg hzero, Except.ok.injEq]
      exact ⟨fun h => ⟨⟨Nat.pos_of_ne_zero hzero, not_le.mp hbig⟩, h.symm⟩, fun h => h.2.symm⟩

/-- Every route of a destination that is not stale can be scored. -/
def RouteTable.Scorable (t : RouteTable) (now : Rat) (d : Bytes) : Prop :=
  ∀ e ∈ t.allRoutes d, now - e.lastSeen ≤ t.staleAfter → e.Scorable

theorem RouteTable.tryBest_eq_ok (t : RouteTable) (now : Rat) (d : Bytes)
    (b : Option RouteEntry) :
    t.tryBest now d = .ok b ↔ t.Scorable now d ∧ b = t.best now d := by
  have hscores : ∀ scores, ((t.allRoutes d).filter (fun e => now - e.lastSeen ≤ t.staleAfter)).mapM
      RouteEntry.tryScore = .ok scores ↔ t.Scorable now d ∧ scores
        = ((t.allRoutes d).filter (fun e => now - e.lastSeen ≤ t.staleAfter)).map
            RouteEntry.score := by
    intro scores
    rw [mapM_eq_ok RouteEntry.tryScore_eq_ok]
    refine and_congr_left' ⟨fun h e he hseen => ?_, fun h e he => ?_⟩
    · exact h e (List.mem_filter.mpr ⟨he, decide_eq_true hseen⟩)
    · rcases List.mem_filter.mp he with ⟨he, hseen⟩
      exact h e he (of_decide_eq_true hseen)
  rw [tryBest, except_bind_eq_ok]
  constructor
  · rintro ⟨scores, hrun, hret⟩
    exact ⟨((hscores scores).mp hrun).1, (Except.ok.inj hret).symm⟩
  · rintro ⟨h, rfl⟩
    exact ⟨_, (hscores _).mpr ⟨h, rfl⟩, rfl⟩

namespace Router

/-- An announcement is built, unless one of the routes it is chosen from cannot
    be scored. -/
theorem tryBuildAnnouncePayload_eq_ok (r : Router) (now : Bytes → Rat)
    (extra : List (Bytes × Nat)) (payload : Bytes) :
    r.tryBuildAnnouncePayload now extra = .ok payload ↔
      (∀ d ∈ r.table.knownDestinations, r.table.Scorable (now d) d) ∧
        payload = r.buildAnnouncePayload now extra := by
  have hknown := mapM_eq_ok (P := fun d => r.table.Scorable (now d) d)
    (f := fun d => do
      let route ← r.table.tryBest (now d) d
      return route.map (fun route => (d, route.hopCount + 1)))
    (g := fun d => (r.table.best (now d) d).map (fun route => (d, route.hopCount + 1)))
    -- For one destination the checked choice succeeds when it can be scored, with the same route.
    (fun d b => by
      rw [except_bind_eq_ok]
      constructor
      · rintro ⟨route, hroute, hret⟩
        rcases (r.table.tryBest_eq_ok _ _ _).mp hroute with ⟨h, rfl⟩
        exact ⟨h, (Except.ok.inj hret).symm⟩
      · rintro ⟨h, rfl⟩
        exact ⟨_, (r.table.tryBest_eq_ok _ _ _).mpr ⟨h, rfl⟩, rfl⟩) r.table.knownDestinations
  have hreduce : (r.table.knownDestinations.map (fun d =>
      (r.table.best (now d) d).map (fun route => (d, route.hopCount + 1)))).reduceOption
      = r.table.knownDestinations.filterMap (fun d =>
        (r.table.best (now d) d).map (fun route => (d, route.hopCount + 1))) :=
    List.filterMap_map
  rw [tryBuildAnnouncePayload, except_bind_eq_ok]
  constructor
  · rintro ⟨known, hrun, hret⟩
    rcases (hknown known).mp hrun with ⟨h, rfl⟩
    rw [hreduce] at hret
    exact ⟨h, (Except.ok.inj hret).symm⟩
  · rintro ⟨h, rfl⟩
    refine ⟨_, (hknown _).mpr ⟨h, rfl⟩, ?_⟩
    rw [hreduce]
    rfl

/-- What comes first, with the lowest count there is, stays first. -/
theorem keepLowest_head (seen : Dict Bytes Nat) (k : Bytes) (rest : List (Bytes × Nat))
    (h : seen.entries = (k, 0) :: rest) (e : Bytes × Nat) :
    ∃ rest', (keepLowest seen e).entries = (k, 0) :: rest' := by
  rcases hget : seen.get? e.1 with _ | hops
  · have hne : ¬ k = e.1 := by
      intro hc
      rw [← hc, Option.eq_none_iff_forall_ne_some] at hget
      exact hget 0 ((seen.get?_eq_some k 0).mpr (h ▸ List.mem_cons_self))
    refine ⟨assocSet rest e.1 e.2, ?_⟩
    simp only [keepLowest, hget, Dict.set, h, assocSet, if_neg hne]
  · by_cases hlt : e.2 < hops
    · have hne : ¬ k = e.1 := by
        intro hc
        have hzero := (seen.get?_eq_some k 0).mpr (h ▸ List.mem_cons_self)
        rw [hc, hget, Option.some.injEq] at hzero
        omega
      refine ⟨assocSet rest e.1 e.2, ?_⟩
      simp only [keepLowest, hget, if_pos hlt, Dict.set, h, assocSet, if_neg hne]
    · refine ⟨rest, ?_⟩
      simp only [keepLowest, hget, if_neg hlt, h]

/-- A router announces itself first. -/
theorem announced_head (r : Router) (now : Bytes → Rat) (extra : List (Bytes × Nat)) :
    ∃ rest, (r.announced now extra).entries = (r.localId, 0) :: rest := by
  simp only [announced, List.foldl_cons]
  refine along_invariant (fun seen : Dict Bytes Nat =>
    ∃ rest, seen.entries = (r.localId, 0) :: rest) (fun seen e h _ => ?_) _ _ ⟨[], rfl⟩
    (along_true _ _)
  rcases h with ⟨rest, h⟩
  exact keepLowest_head seen r.localId rest h e

theorem offers_ne_nil (r : Router) (now : Bytes → Rat) (extra : List (Bytes × Nat)) (d : Bytes) :
    r.offers now extra d ≠ [] ↔ d ∈ extra.map Prod.fst ∨
      ∃ e ∈ r.table.allRoutes d, now d - e.lastSeen ≤ r.table.staleAfter := by
  have hgiven : (extra.filter (fun e => e.1 = d)).map (fun e => e.2 + 1) = []
      ↔ d ∉ extra.map Prod.fst := by
    rw [List.map_eq_nil_iff, List.filter_eq_nil_iff, List.mem_map]
    exact ⟨fun h hc => hc.elim (fun e he => h e he.1 (decide_eq_true he.2)),
      fun h e he hc => h ⟨e, he, of_decide_eq_true hc⟩⟩
  have hbest : ((r.table.best (now d) d).map (fun route => route.hopCount + 1)).toList = []
      ↔ ¬ ∃ e ∈ r.table.allRoutes d, now d - e.lastSeen ≤ r.table.staleAfter := by
    rw [Option.toList_eq_nil_iff, Option.map_eq_none_iff, RouteTable.best_eq_none_iff]
    exact ⟨fun h hc => hc.elim (fun e he => not_le.mpr (h e he.1) he.2),
      fun h e he => not_le.mp (fun hc => h ⟨e, he, hc⟩)⟩
  rw [offers, ne_eq, List.append_eq_nil_iff, hgiven, hbest, ← not_or, not_not]

/-- Whatever is announced has an identifier of the right length, if what the
    router knows and what it is given does. -/
theorem announced_length_of (r : Router) (now : Bytes → Rat) (extra : List (Bytes × Nat))
    (hknown : ∀ d ∈ r.table.knownDestinations, d.length = 32)
    (hextra : ∀ e ∈ extra, e.1.length = 32) :
    ∀ e ∈ (r.announced now extra).entries, e.1.length = 32 := by
  rintro ⟨d, hops⟩ he
  have hget := ((r.announced now extra).get?_eq_some d hops).mpr he
  rw [announced_get?_offers] at hget
  by_cases hd : d = r.localId
  · rw [hd]
    exact r.localId_length
  · rw [if_neg hd] at hget
    have hne : r.offers now extra d ≠ [] := fun hc => by
      rw [hc] at hget
      cases hget
    rcases (r.offers_ne_nil now extra d).mp hne with hgiven | ⟨e, hroute, hseen⟩
    · rcases List.mem_map.mp hgiven with ⟨x, hx, hxd⟩
      exact (congrArg List.length hxd).symm.trans (hextra x hx)
    · refine hknown d (Decidable.of_not_not (fun hc => ?_))
      have hnone := (r.table.best_eq_none_iff (now d) d).mp (r.table.best_unknown (now d) d hc)
      exact not_le.mpr (hnone e hroute) hseen

end Router

/-- What the parser reads off an announcement: the router itself, and the least
    of each offer. -/
theorem unpacked_announcement (r : Router) (now : Bytes → Rat) (extra : List (Bytes × Nat))
    (hknown : ∀ d ∈ r.table.knownDestinations, d.length = 32)
    (hextra : ∀ e ∈ extra, e.1.length = 32) :
    ∃ rest, Router.unpackEntries (r.buildAnnouncePayload now extra) = (r.localId, 0) :: rest ∧
      ((Router.unpackEntries (r.buildAnnouncePayload now extra)).map Prod.fst).Nodup ∧
      ∀ d, d ≠ r.localId → ∀ hops, (d, hops) ∈ rest ↔
        ∃ least, (r.offers now extra d).min? = some least ∧ hops = min least 0xFFFF := by
  rcases r.announced_head now extra with ⟨rest, hhead⟩
  have hread : Router.unpackEntries (r.buildAnnouncePayload now extra)
      = (r.announced now extra).entries.map (fun e => (e.1, min e.2 0xFFFF)) :=
    Router.unpackEntries_flatMap _ (r.announced_length_of now extra hknown hextra)
  -- The router's own entry stands first, so any other one is in the rest.
  have hget : ∀ d, d ≠ r.localId → ∀ m, (d, m) ∈ rest ↔
      (r.offers now extra d).min? = some m := by
    intro d hd m
    have hoffers := r.announced_get?_offers now extra d
    rw [if_neg hd] at hoffers
    rw [← hoffers, Dict.get?_eq_some, hhead, List.mem_cons, Prod.mk.injEq]
    exact (or_iff_right (fun h => hd h.1)).symm
  refine ⟨rest.map (fun e => (e.1, min e.2 0xFFFF)), ?_, ?_, fun d hd hops => ?_⟩
  · rw [hread, hhead]
    rfl
  · rw [hread, List.map_map]
    exact (r.announced now extra).nodup
  · rw [List.mem_map]
    constructor
    · rintro ⟨⟨d', m⟩, hmem, heq⟩
      rw [Prod.mk.injEq] at heq
      rcases heq with ⟨rfl, rfl⟩
      exact ⟨m, (hget _ hd m).mp hmem, rfl⟩
    · rintro ⟨m, hm, rfl⟩
      exact ⟨(d, m), (hget d hd m).mpr hm, rfl⟩

/-- What the parser reads first stands in slot 0. -/
theorem Router.first_slot (payload : Bytes) {id : Bytes} {hops : Nat} {rest : List (Bytes × Nat)}
    (h : unpackEntries payload = (id, hops) :: rest) :
    0 < payload.length / 34 ∧ nameAt payload 0 = id ∧ hopsAt payload 0 = hops := by
  have hpos : 0 < payload.length / 34 := by
    refine Nat.pos_of_ne_zero (fun hzero => ?_)
    rw [unpackEntries_slots, hzero] at h
    cases h
  rcases Nat.exists_eq_add_one.mpr hpos with ⟨n, hn⟩
  rw [unpackEntries_slots, hn, List.range_succ_eq_map, List.map_cons, List.cons.injEq,
    Prod.mk.injEq] at h
  exact ⟨hpos, h.1⟩

/-- A slot that does not have the name read first is read further on. -/
theorem Router.later_slot (payload : Bytes) {e : Bytes × Nat} {rest : List (Bytes × Nat)}
    (h : unpackEntries payload = e :: rest) (i : Nat) (hi : i < payload.length / 34)
    (hne : nameAt payload i ≠ e.1) : (nameAt payload i, hopsAt payload i) ∈ rest := by
  have hslot := (mem_unpackEntries payload _).mpr ⟨i, hi, rfl⟩
  rw [h] at hslot
  exact (List.mem_cons.mp hslot).resolve_left (fun hself => hne (congrArg Prod.fst hself))

/-- A name other than the first one is in a slot exactly when it is read
    further on. -/
theorem Router.named_later (payload : Bytes) {e : Bytes × Nat} {rest : List (Bytes × Nat)}
    (h : unpackEntries payload = e :: rest) (d : Bytes) (hd : d ≠ e.1) :
    (∃ i < payload.length / 34, nameAt payload i = d) ↔ ∃ hops, (d, hops) ∈ rest := by
  constructor
  · rintro ⟨i, hi, rfl⟩
    exact ⟨_, later_slot payload h i hi hd⟩
  · rintro ⟨hops, hmem⟩
    have hentry : (d, hops) ∈ unpackEntries payload := by
      rw [h]
      exact List.mem_cons_of_mem _ hmem
    rcases (mem_unpackEntries payload (d, hops)).mp hentry with ⟨i, hi, heq⟩
    exact ⟨i, hi, congrArg Prod.fst heq⟩

/-- What an announcement says, where every route it is chosen from has a hop
    and not more hops than a float can hold: its slots name different devices,
    the first one the router itself, and the others what it has an offer for,
    with the least it has to offer. -/
theorem announcement_is_least (r : Router) (now : Bytes → Rat) (extra : List (Bytes × Nat))
    (hknown : ∀ d ∈ r.table.knownDestinations, d.length = 32)
    (hextra : ∀ e ∈ extra, e.1.length = 32)
    (hhops : ∀ d, ∀ e ∈ r.table.allRoutes d, now d - e.lastSeen ≤ r.table.staleAfter →
      1 ≤ e.hopCount ∧ e.hopCount < floatLimit) :
    ∃ payload, r.tryBuildAnnouncePayload now extra = .ok payload ∧
      payload.length % 34 = 0 ∧ 0 < payload.length / 34 ∧
      Router.nameAt payload 0 = r.localId ∧ Router.hopsAt payload 0 = 0 ∧
      (∀ i < payload.length / 34, ∀ j < payload.length / 34,
        Router.nameAt payload i = Router.nameAt payload j → i = j) ∧
      ∀ d, d ≠ r.localId →
        ((∃ i < payload.length / 34, Router.nameAt payload i = d) ↔ d ∈ extra.map Prod.fst ∨
          ∃ e ∈ r.table.allRoutes d, now d - e.lastSeen ≤ r.table.staleAfter) ∧
        ∀ i < payload.length / 34, Router.nameAt payload i = d →
          ∃ least, (r.offers now extra d).min? = some least ∧
            Router.hopsAt payload i = min least 0xFFFF := by
  rcases unpacked_announcement r now extra hknown hextra with ⟨rest, hfirst, hnodup, hrest⟩
  have hlen : (r.buildAnnouncePayload now extra).length % 34 = 0 := by
    rw [Router.buildAnnouncePayload, Router.length_flatMap_packEntry]
    exact Nat.mul_mod_right _ _
  refine ⟨r.buildAnnouncePayload now extra,
    (r.tryBuildAnnouncePayload_eq_ok now extra _).mpr ⟨fun d _ => hhops d, rfl⟩, hlen, ?_⟩
  generalize r.buildAnnouncePayload now extra = payload at hfirst hnodup
  rcases Router.first_slot payload hfirst with ⟨hpos, hzero, hnone⟩
  refine ⟨hpos, hzero, hnone, ?_, fun d hd => ⟨?_, ?_⟩⟩
  · rw [Router.unpackEntries_slots, List.map_map,
      List.nodup_map_iff_inj_on List.nodup_range] at hnodup
    intro i hi j hj heq
    exact hnodup i (List.mem_range.mpr hi) j (List.mem_range.mpr hj) heq
  · -- A least offer is there exactly when there is an offer.
    rw [Router.named_later payload hfirst d hd, ← r.offers_ne_nil now extra d, ne_eq,
      ← List.min?_eq_none_iff, ← ne_eq, Option.ne_none_iff_exists']
    constructor
    · rintro ⟨hops, hmem⟩
      rcases (hrest d hd hops).mp hmem with ⟨least, hleast, _⟩
      exact ⟨least, hleast⟩
    · rintro ⟨least, hleast⟩
      exact ⟨_, (hrest d hd _).mpr ⟨least, hleast, rfl⟩⟩
  · rintro i hi rfl
    exact (hrest _ hd _).mp (Router.later_slot payload hfirst i hi hd)

/-- A single route is the best, unless it is stale. -/
theorem RouteTable.best_singleton (t : RouteTable) (now : Rat) (d : Bytes) (e : RouteEntry)
    (h : t.allRoutes d = [e]) :
    t.best now d = if now - e.lastSeen ≤ t.staleAfter then some e else none := by
  rw [best, h, List.filter_cons, List.filter_nil]
  by_cases hseen : now - e.lastSeen ≤ t.staleAfter
  · rw [if_pos (decide_eq_true hseen), if_pos hseen, List.argmax_singleton]
  · rw [if_neg (fun hc => hseen (of_decide_eq_true hc)), if_neg hseen, List.argmax_nil]

namespace Router

/-- The hops that a router itself has to go to a destination. -/
def ownHops (r : Router) (now : Bytes → Rat) (d : Bytes) : Option Nat :=
  if d = r.localId then some 0 else (r.table.best (now d) d).map RouteEntry.hopCount

/-- A router that has processed the announcement of another. -/
def heard (r y : Router) (builtAt processedAt : Bytes → Rat) (t : Nat) (a : Bytes) (s : Rat) :
    Router :=
  ((processAnnouncePayload processedAt (y.buildAnnouncePayload builtAt) t a s).run r).final

section Heard

variable (r y : Router) (builtAt processedAt : Bytes → Rat) (t : Nat) (a : Bytes) (s : Rat)

theorem heard_fields :
    (r.heard y builtAt processedAt t a s).localId = r.localId ∧
      (r.heard y builtAt processedAt t a s).table.staleAfter = r.table.staleAfter := by
  rw [heard]
  by_cases hlen : (y.buildAnnouncePayload builtAt).length % entrySize = 0
  · rw [processAnnouncePayload_run r processedAt _ t a s hlen]
    exact ⟨rfl, RouteTable.foldl_add_staleAfter _ _⟩
  · rcases processAnnouncePayload_refused r processedAt _ t a s hlen with ⟨message, hrun⟩
    rw [hrun]
    exact ⟨rfl, rfl⟩

/-- What is heard of a destination. -/
theorem heard_allRoutes (hy : y.Identified) (d : Bytes) :
    (r.heard y builtAt processedAt t a s).table.allRoutes d = if d = r.localId
      then r.table.allRoutes d
      else match (y.announced builtAt []).get? d with
        | none => r.table.allRoutes d
        | some hops => Keyed.put RouteEntry.port (learnedRoute processedAt t a
            (min s r.maxAdvertisedTrust) (d, min hops 0xFFFF)) (r.table.allRoutes d) := by
  rcases processAnnouncePayload_build r y builtAt processedAt t a s hy with
    ⟨updated, hrun, hroutes⟩
  simp only [upsertRoute_eq] at hroutes
  rw [heard, hrun]
  exact hroutes d

/-- Hearing an announcement brings no identifiers of another length. -/
theorem heard_identified (hy : y.Identified) (hr : r.Identified) :
    (r.heard y builtAt processedAt t a s).Identified := by
  intro d hne
  rw [heard_allRoutes r y builtAt processedAt t a s hy] at hne
  by_cases hd : d = r.localId
  · rw [hd]
    exact r.localId_length
  · rw [if_neg hd] at hne
    rcases hget : (y.announced builtAt []).get? d with _ | hops
    · rw [hget] at hne
      exact hr d hne
    · exact y.announced_length builtAt hy (d, hops) ((Dict.get?_eq_some _ _ _).mp hget)

/-- The route over the link to the announcer has one hop to the announcer
    itself, and two more than the announcer has to anything else. -/
theorem heard_hops (hy : y.Identified) (hr : r.Ported) (d : Bytes) (hd : d ≠ r.localId)
    (h : Nat) (hown : y.ownHops builtAt d = some h) (hmax : h < 65535) :
    (((r.heard y builtAt processedAt t a s).table.allRoutes d).filter
        (fun e => e.port = (t, a))).map RouteEntry.hopCount
      = [if d = y.localId then h + 1 else h + 2] := by
  have hget : (y.announced builtAt []).get? d = some (if d = y.localId then h else h + 1) := by
    rw [announced_get?]
    rw [ownHops] at hown
    -- The announcer is its own destination at zero hops; for others it adds one.
    by_cases hself : d = y.localId
    · rw [if_pos hself, if_pos hself]
      rwa [if_pos hself] at hown
    · rw [if_neg hself, if_neg hself]
      rw [if_neg hself, Option.map_eq_some_iff] at hown
      rcases hown with ⟨b, hb, rfl⟩
      rw [hb, Option.map_some]
  rw [heard_allRoutes r y builtAt processedAt t a s hy, if_neg hd, hget]
  have hlearned := Keyed.filter_put_self RouteEntry.port (learnedRoute processedAt t a
    (min s r.maxAdvertisedTrust) (d, min (if d = y.localId then h else h + 1) 0xFFFF)) (hr d)
  have hport : (learnedRoute processedAt t a (min s r.maxAdvertisedTrust)
    (d, min (if d = y.localId then h else h + 1) 0xFFFF)).port = (t, a) := rfl
  rw [hport] at hlearned
  rw [hlearned, List.map_singleton, learnedRoute]
  -- The receiver adds one more to what it read.
  by_cases hself : d = y.localId
  · simp only [if_pos hself]
    congr 1
    omega
  · simp only [if_neg hself]
    congr 1
    omega

end Heard

end Router

/-- One stretch of a line: how an announcement travels over it, and when. -/
structure Stretch where
  transport : Nat
  addr : Bytes
  senderTrustScore : Rat
  builtAt : Bytes → Rat
  processedAt : Bytes → Rat

/-- Each router of a line announces to the next one. -/
def Stretch.announcement (links : Nat → Stretch) (i : Nat) : Announcement Nat where
  router := i + 1
  neighbour := i
  transport := (links i).transport
  addr := (links i).addr
  senderTrustScore := (links i).senderTrustScore
  builtAt := (links i).builtAt
  processedAt := (links i).processedAt

/-- No route to a destination is stale when one of the first routers of a line
    builds its announcement. -/
def Stretch.Timely (links : Nat → Stretch) (d : Bytes) (k : Nat) : Prop :=
  ∀ i, i + 1 < k → (links (i + 1)).builtAt d - (links i).processedAt d ≤ 300

namespace Topology

variable (M : Topology Nat) (links : Nat → Stretch)

/-- A line of routers, after the first of them have announced in order. -/
def line (n : Nat) : Nat → Router := M.mesh [] ((List.range n).map (Stretch.announcement links))

/-- One more announcement reaches one more router. -/
theorem line_succ (n : Nat) :
    M.line links (n + 1) = Function.update (M.line links n) (n + 1)
      ((M.line links n (n + 1)).heard (M.line links n n) (links n).builtAt
        (links n).processedAt (links n).transport (links n).addr
        (links n).senderTrustScore) := by
  rw [line, List.range_succ, List.map_append, mesh, List.foldl_append]
  rfl

/-- The route that the `k`-th router of a line has to the first. -/
def Relayed (net : Nat → Router) (k : Nat) : Prop :=
  ((net k).table.allRoutes (M.id 0) = [] ∧ ¬ Stretch.Timely links (M.id 0) k) ∨
    ∃ e, (net k).table.allRoutes (M.id 0) = [e] ∧ e.hopCount = min (2 * k - 1) 65536 ∧
      e.lastSeen = (links (k - 1)).processedAt (M.id 0)

/-- The invariant of a line. Nothing has reached the routers further on. -/
structure Lined (net : Nat → Router) (n : Nat) : Prop where
  localId : ∀ k, (net k).localId = M.id k
  staleAfter : ∀ k, (net k).table.staleAfter = 300
  identified : ∀ k, (net k).Identified
  ahead : ∀ k, n < k → net k = M.start k
  relayed : ∀ k, 1 ≤ k → k ≤ n → M.Relayed links net k

variable {M links}

/-- The route of the next router, from that of the one before it. -/
theorem Lined.next {n : Nat} (h : M.Lined links (M.line links n) n)
    (hfirst : n ≠ 0 → M.id 0 ≠ M.id n) (hnext : M.id 0 ≠ M.id (n + 1)) :
    M.Relayed links (M.line links (n + 1)) (n + 1) := by
  have hempty : (M.line links n (n + 1)).table.allRoutes (M.id 0) = [] := by
    rw [h.ahead (n + 1) (Nat.lt_succ_self n)]
    rfl
  have hroutes := Router.heard_allRoutes (M.line links n (n + 1)) (M.line links n n)
    (links n).builtAt (links n).processedAt (links n).transport (links n).addr
    (links n).senderTrustScore (h.identified n) (M.id 0)
  rw [h.localId, if_neg hnext, hempty, Router.announced_get?, h.localId] at hroutes
  rw [Relayed, line_succ, Function.update_self, hroutes]
  by_cases hn : n = 0
  · -- The first router announces itself.
    subst hn
    rw [if_pos rfl]
    exact Or.inr ⟨_, rfl, rfl, rfl⟩
  · rw [if_neg (hfirst hn)]
    rcases h.relayed n (Nat.one_le_iff_ne_zero.mpr hn) le_rfl with
      ⟨hnone, hlate⟩ | ⟨e, hone, hhops, hseen⟩
    · have hbest := (RouteTable.best_eq_none_iff (M.line links n n).table
        ((links n).builtAt (M.id 0)) (M.id 0)).mpr
        (fun e he => absurd (hnone ▸ he) List.not_mem_nil)
      rw [hbest]
      exact Or.inl ⟨rfl, fun hc => hlate (fun i hi => hc i (by omega))⟩
    · rw [RouteTable.best_singleton _ _ _ _ hone, h.staleAfter]
      by_cases hstale : (links n).builtAt (M.id 0) - e.lastSeen ≤ 300
      · rw [if_pos hstale, Option.map_some]
        refine Or.inr ⟨_, rfl, ?_, rfl⟩
        simp only [Router.learnedRoute, hhops]
        omega
      · rw [if_neg hstale]
        refine Or.inl ⟨rfl, fun hc => hstale ?_⟩
        have hlast := hc (n - 1) (by omega)
        rw [hseen]
        rwa [Nat.sub_add_cancel (Nat.one_le_iff_ne_zero.mpr hn)] at hlast

/-- The invariant of a line whose routers differ from the first. -/
theorem lined_line (n : Nat) (hid : ∀ k, 1 ≤ k → k ≤ n → M.id 0 ≠ M.id k) :
    M.Lined links (M.line links n) n := by
  induction n with
  | zero =>
      exact ⟨fun _ => rfl, fun _ => rfl, fun _ _ hne => absurd rfl hne, fun _ _ => rfl,
        fun k hk hk' => by omega⟩
  | succ n ih =>
      -- Only the router at the end of the link changes.
      have hn := ih (fun k hk hk' => hid k hk (by omega))
      have hother : ∀ k, k ≠ n + 1 → M.line links (n + 1) k = M.line links n k := by
        intro k hk
        rw [line_succ, Function.update_of_ne hk]
      have hself : M.line links (n + 1) (n + 1) = (M.line links n (n + 1)).heard
          (M.line links n n) (links n).builtAt (links n).processedAt (links n).transport
          (links n).addr (links n).senderTrustScore := by
        rw [line_succ, Function.update_self]
      refine ⟨fun k => ?_, fun k => ?_, fun k => ?_, fun k hk => ?_, fun k hk hk' => ?_⟩
      · by_cases hkn : k = n + 1
        · rw [hkn, hself, (Router.heard_fields _ _ _ _ _ _ _).1, hn.localId]
        · rw [hother k hkn, hn.localId]
      · by_cases hkn : k = n + 1
        · rw [hkn, hself, (Router.heard_fields _ _ _ _ _ _ _).2, hn.staleAfter]
        · rw [hother k hkn, hn.staleAfter]
      · by_cases hkn : k = n + 1
        · rw [hkn, hself]
          exact Router.heard_identified _ _ _ _ _ _ _ (hn.identified n) (hn.identified (n + 1))
        · rw [hother k hkn]
          exact hn.identified k
      · rw [hother k (by omega)]
        exact hn.ahead k (by omega)
      · by_cases hkn : k = n + 1
        · rw [hkn]
          exact hn.next (fun h0 => hid n (Nat.one_le_iff_ne_zero.mpr h0) (by omega))
            (hid (n + 1) (by omega) le_rfl)
        · have hrelayed := hn.relayed k hk (by omega)
          rwa [Relayed, ← hother k hkn] at hrelayed

end Topology

/-- When a hop count is the number of links: along a line only at the first
    router to hear of the destination, and over a single link only for the
    announcer itself. -/
theorem hop_count_is_links_iff (M : Topology Nat) (links : Nat → Stretch) (n k : Nat)
    (r y : Router) (builtAt processedAt : Bytes → Rat) (t : Nat) (a : Bytes) (s : Rat)
    (d : Bytes) (h : Nat) :
    ((∀ i ≤ n, ∀ j ≤ n, M.id i = M.id j → i = j) → 1 ≤ k → k ≤ n → k < 65536 →
      (((M.line links n k).table.allRoutes (M.id 0)).map RouteEntry.hopCount = [k] ↔ k = 1)) ∧
    (y.Identified → r.Ported → d ≠ r.localId → y.ownHops builtAt d = some h → h < 65535 →
      ((((r.heard y builtAt processedAt t a s).table.allRoutes d).filter
        (fun e => e.port = (t, a))).map RouteEntry.hopCount = [h + 1] ↔ d = y.localId)) := by
  refine ⟨fun hid hk hkn hmax => ?_, fun hy hr hd hown hmax => ?_⟩
  · have hline : M.Lined links (M.line links n) n := by
      refine Topology.lined_line n (fun j hj hjn hc => ?_)
      have hzero := hid 0 (Nat.zero_le n) j hjn hc
      omega
    rcases hline.relayed k hk hkn with ⟨hnone, hlate⟩ | ⟨e, hone, hhops, _⟩
    · -- The first router on the line hears of it in any case.
      rw [hnone]
      refine iff_of_false (fun hc => by cases hc) (fun hc => hlate (fun i hi => by omega))
    · rw [hone, List.map_singleton, hhops, List.singleton_inj]
      omega
  · rw [Router.heard_hops r y builtAt processedAt t a s hy hr d hd h hown hmax,
      List.singleton_inj]
    by_cases hself : d = y.localId
    · rw [if_pos hself]
      exact iff_of_true rfl hself
    · rw [if_neg hself]
      exact iff_of_false (by omega) hself

section Examples

/-- A router with the routes it is given. -/
def hub (es : List RouteEntry) : Router where
  localId := List.replicate 32 0
  table := es.foldl RouteTable.add {}
  maxAdvertisedTrust := 95 / 100
  localId_length := rfl
  trust_nonneg := by norm_num
  trust_le_one := by norm_num

/-- A route to a device, seen at the start. -/
def spoke (n : UInt8) (hopCount : Nat) : RouteEntry where
  deviceId := List.replicate 32 n
  transport := 0
  nextHopAddr := [n]
  hopCount := hopCount
  lastSeen := 0

/-- A router with a route of one hop, given a destination further away than
    the count can say: both are announced, one with the count saturated, and
    nothing else is. -/
theorem announcement_is_least_hub :
    ∃ payload, (hub [spoke 1 1]).tryBuildAnnouncePayload (fun _ => 0)
        [(List.replicate 32 2, 70000)] = .ok payload ∧
      Router.nameAt payload 0 = List.replicate 32 0 ∧ Router.hopsAt payload 0 = 0 ∧
      (∃ i < payload.length / 34, Router.nameAt payload i = List.replicate 32 1 ∧
        Router.hopsAt payload i = 2) ∧
      (∃ i < payload.length / 34, Router.nameAt payload i = List.replicate 32 2 ∧
        Router.hopsAt payload i = 65535) ∧
      ∀ i < payload.length / 34, Router.nameAt payload i ≠ List.replicate 32 3 := by
  -- The hub knows the spoke and nothing else.
  have hroutes : ∀ d, (hub [spoke 1 1]).table.allRoutes d
      = if d = (spoke 1 1).deviceId then [spoke 1 1] else [] :=
    fun d => RouteTable.allRoutes_add {} (spoke 1 1) d
  rcases announcement_is_least (hub [spoke 1 1]) (fun _ => 0) [(List.replicate 32 2, 70000)]
    (by decide) (by decide) (fun d e he _ => by
      rw [hroutes] at he
      by_cases hd : d = (spoke 1 1).deviceId
      · rw [if_pos hd, List.mem_singleton] at he
        rw [he]
        decide +kernel
      · rw [if_neg hd] at he
        exact absurd he List.not_mem_nil) with
    ⟨payload, hbuild, _, _, hself, hnone, _, hnamed⟩
  refine ⟨payload, hbuild, hself, hnone, ?_, ?_, ?_⟩
  · rcases hnamed (List.replicate 32 1) (by decide) with ⟨hiff, hleast⟩
    rcases hiff.mpr (Or.inr ⟨spoke 1 1, by rw [hroutes]; decide, by decide +kernel⟩) with
      ⟨i, hi, hname⟩
    rcases hleast i hi hname with ⟨least, hmin, hhops⟩
    have htwo : ((hub [spoke 1 1]).offers (fun _ => 0) [(List.replicate 32 2, 70000)]
      (List.replicate 32 1)).min? = some 2 := by decide +kernel
    rw [htwo, Option.some.injEq] at hmin
    exact ⟨i, hi, hname, hhops.trans (by rw [← hmin]; rfl)⟩
  · rcases hnamed (List.replicate 32 2) (by decide) with ⟨hiff, hleast⟩
    rcases hiff.mpr (Or.inl (by decide)) with ⟨i, hi, hname⟩
    rcases hleast i hi hname with ⟨least, hmin, hhops⟩
    have hfar : ((hub [spoke 1 1]).offers (fun _ => 0) [(List.replicate 32 2, 70000)]
      (List.replicate 32 2)).min? = some 70001 := by decide +kernel
    rw [hfar, Option.some.injEq] at hmin
    exact ⟨i, hi, hname, hhops.trans (by rw [← hmin]; rfl)⟩
  · intro i hi hname
    have hno := (hnamed (List.replicate 32 3) (by decide)).1.mp ⟨i, hi, hname⟩
    rw [hroutes] at hno
    revert hno
    decide

/-- A route with no hops cannot be scored, and then nothing is announced. -/
theorem build_announce_payload_raises :
    (∀ d ∈ (hub [spoke 1 0]).table.knownDestinations, d.length = 32) ∧
      (hub [spoke 1 0]).tryBuildAnnouncePayload (fun _ => 0)
        = .error ⟨.zeroDivisionError, "float division by zero"⟩ := by
  refine ⟨by decide, ?_⟩
  decide +kernel

/-- Routers in a row, told apart by their numbers. -/
def row : Topology Nat where
  id k := beEncode 32 k
  reach _ _ _ := none
  maxAdvertisedTrust _ := 95 / 100
  senderTrustScore _ := 1
  id_length _ := beEncode_length _ _
  senderTrustScore_nonneg _ := zero_le_one

/-- A stretch that takes no time. -/
def swift : Stretch where
  transport := 0
  addr := []
  senderTrustScore := 1
  builtAt _ := 0
  processedAt _ := 0

theorem hop_count_is_links_row :
    ((∀ i ≤ 2, ∀ j ≤ 2, row.id i = row.id j → i = j) ∧
      (((row.line (fun _ => swift) 2 1).table.allRoutes (row.id 0)).map RouteEntry.hopCount = [1]
        ↔ 1 = 1)) ∧
    (hub []).Identified ∧ (row.start 1).Ported ∧ (hub []).localId ≠ (row.start 1).localId ∧
      (((((row.start 1).heard (hub []) (fun _ => 0) (fun _ => 0) 0 [] 1).table.allRoutes
        (hub []).localId).filter (fun e => e.port = (0, []))).map RouteEntry.hopCount = [0 + 1]
        ↔ (hub []).localId = (hub []).localId) := by
  have hids : ∀ i ≤ 2, ∀ j ≤ 2, row.id i = row.id j → i = j := by decide
  have hempty : (hub []).Identified := fun d hne => absurd rfl hne
  have hports : (row.start 1).Ported := fun d => List.nodup_nil
  have hother : (hub []).localId ≠ (row.start 1).localId := by decide
  have hboth := hop_count_is_links_iff row (fun _ => swift) 2 1 (row.start 1) (hub [])
    (fun _ => 0) (fun _ => 0) 0 [] 1 (hub []).localId 0
  exact ⟨⟨hids, hboth.1 hids le_rfl (by decide) (by decide)⟩, hempty, hports, hother,
    hboth.2 hempty hports hother (if_pos rfl) (by decide)⟩

/-- The third of three routers counts three hops to the first, over two
    links. -/
theorem hop_count_skips_two :
    (∀ i ≤ 2, ∀ j ≤ 2, row.id i = row.id j → i = j) ∧
      ((row.line (fun _ => swift) 2 2).table.allRoutes (row.id 0)).map RouteEntry.hopCount = [3] ∧
      ((row.line (fun _ => swift) 2 2).table.allRoutes (row.id 0)).map RouteEntry.hopCount
        ≠ [2] := by
  have hhops : ((row.line (fun _ => swift) 2 2).table.allRoutes (row.id 0)).map
      RouteEntry.hopCount = [3] := by decide +kernel
  exact ⟨by decide, hhops, by rw [hhops]; decide⟩

end Examples

end Ztlnp
