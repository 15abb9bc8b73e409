import Ztlnp.Theory.Mesh

/-!
# Delivery in a Mesh

What becomes of a packet that is forwarded along the best routes of a network
of routers.

A router that is not the one a packet is for looks up its best route and hands
the bytes to the transport of the route. `carry` repeats that from router to
router. A packet can go wrong in three ways: a router on the way has no route
and raises, a route leads over a link with nobody at the other end, or the
packet never arrives. Freedom from loops rules out the third one only.

None of them happens where forwarding is free of loops and direct routes are
registered over links that exist (`forwarding_delivers`). A route was learned
from a neighbour that had one, and routes are replaced but not taken away, so
the neighbour still has one when the packet gets there. The packet arrives as
it was sent, after fewer hops than there are routers. The sender alone can
refuse it, and it does so exactly when it was never told of the destination.

Who was told is a matter of who spoke to whom, and in what order. `told` follows
the news through a run without regard to routes, scores or hop counts, and
`Topology.Spread.known` says that the tables know just that.

## Main definitions

* `Fate`: What becomes of a packet.
* `Topology.carry`: A packet is forwarded from router to router.
* `Topology.tell`, `Topology.told`: How news of a destination spreads.
* `DirectRoute.Lands`: There is somebody at the end of a direct route.
* `Topology.Spread`: What holds of the tables of a run.

## Theorems

* `carry_trail`: A packet goes along the trail of next hops.
* `Topology.spread_mesh`: The tables of a run know what the routers were told.
* `Topology.nextHop_on`: A router that knows a destination passes packets to one
  that knows it too.
* `Topology.Spread.arrives`, `Topology.Spread.refuses`: What the tables make of a
  packet.
* `forwarding_delivers`: A packet arrives if its sender was told of the
  destination, and is refused by the sender if not.
-/

namespace Ztlnp

variable {ι : Type}

/-- What becomes of a packet, and at which router. -/
inductive Fate (ι : Type)
  | arrived (router : ι) (rawPacket : Bytes)
  /-- The router raised when it was to forward the packet. -/
  | refused (router : ι) (x : Exn)
  /-- There is nobody at the end of the link. -/
  | lost (router : ι)
  /-- The packet has made the number of hops that was asked for. -/
  | underway (router : ι) (rawPacket : Bytes)
deriving DecidableEq

namespace Topology

variable (M : Topology ι)

/-- Forward a packet for a number of hops, or until it is where it is to go. -/
def carry (net : ι → Router) (now : Bytes → Rat) (dest : Bytes) : Nat → ι → Bytes → Fate ι
  | 0, x, raw => if M.id x = dest then .arrived x raw else .underway x raw
  | hops + 1, x, raw =>
    if M.id x = dest then .arrived x raw
    else match (net x).forward (now dest) raw dest with
      | .error e => .refused x e
      | .ok (transport, addr, sent) =>
        match M.reach x transport addr with
        | none => .lost x
        | some y => carry net now dest hops y sent

variable [DecidableEq ι]

/-- Who knows of a destination once a router has heard a neighbour. A router
    takes no news about itself. -/
def tell (dest : Bytes) (told : ι → Bool) (a : Announcement ι) : ι → Bool :=
  if M.id a.router ≠ dest ∧ (M.id a.neighbour = dest ∨ told a.neighbour) then
    Function.update told a.router true
  else told

/-- Who knows of a destination after a run: who has a direct route, and who has
    heard it from somebody that knew. -/
def told (dest : Bytes) (directs : List (DirectRoute ι)) (heard : List (Announcement ι)) :
    ι → Bool :=
  heard.foldl (M.tell dest) (fun x => directs.any (fun d => d.router = x ∧ d.deviceId = dest))

end Topology

/-- There is a router at the end of a direct route. -/
def DirectRoute.Lands (d : DirectRoute ι) (M : Topology ι) : Prop :=
  (M.reach d.router d.transport d.nextHopAddr).isSome

instance decidableLands (d : DirectRoute ι) (M : Topology ι) : Decidable (d.Lands M) :=
  inferInstanceAs (Decidable (_ = true))

theorem upsertRoute_ne_nil (entry : RouteEntry) (es : List RouteEntry) :
    upsertRoute entry es ≠ [] := by
  cases es with
  | nil => exact List.cons_ne_nil _ _
  | cons e es =>
      rw [upsertRoute]
      split
      · exact List.cons_ne_nil _ _
      · exact List.cons_ne_nil _ _

namespace Router

/-- Forwarding hands on the bytes as they are. -/
theorem forward_eq (r : Router) (now : Rat) (raw dest : Bytes) :
    r.forward now raw dest = match r.table.best now dest with
      | none => .error ⟨.routingError, "No route to device " ++ hex dest⟩
      | some e => .ok (e.transport, e.nextHopAddr, raw) := by
  unfold forward getRoute
  cases r.table.best now dest with
  | none => rfl
  | some e => rfl

end Router

namespace Topology

variable {M : Topology ι} {net : ι → Router} {now : Bytes → Rat} {dest : Bytes}

/-- A packet goes along the trail of next hops, as it is. -/
theorem carry_trail (n : Nat) (x z : ι) (raw : Bytes)
    (hmem : z ∈ trail (M.nextHop net now dest) n x) (hz : M.id z = dest) :
    M.carry net now dest n x raw = .arrived z raw := by
  induction n generalizing x with
  | zero =>
      rw [trail, List.mem_singleton] at hmem
      rw [carry, ← hmem, if_pos hz]
  | succ n ih =>
      rw [carry]
      rw [trail, List.mem_cons] at hmem
      by_cases hx : M.id x = dest
      · -- The trail ends at the destination.
        rw [if_pos hx]
        unfold nextHop at hmem
        rw [if_pos hx] at hmem
        rw [hmem.resolve_right List.not_mem_nil]
      · have hrest := hmem.resolve_left (fun heq => hx (heq ▸ hz))
        unfold nextHop at hrest
        rw [if_neg hx] at hrest ⊢
        rw [Router.forward_eq]
        cases hbest : (net x).table.best (now dest) dest with
        | none =>
            rw [hbest] at hrest
            exact absurd hrest List.not_mem_nil
        | some e =>
            rw [hbest] at hrest
            simp only at hrest ⊢
            cases hreach : M.reach x e.transport e.nextHopAddr with
            | none =>
                rw [hreach] at hrest
                exact absurd hrest List.not_mem_nil
            | some y =>
                rw [hreach] at hrest
                exact ih y hrest

variable {born : ι → Bytes → Nat} {n : Nat} {told : ι → Bool}

/-- What holds of the tables of a run: somebody is at the end of every route, and
    a router has a route exactly if it was told of the destination. -/
structure Spread (M : Topology ι) (net : ι → Router) (dest : Bytes) (told : ι → Bool) : Prop where
  lands : ∀ x, ∀ e ∈ (net x).table.allRoutes dest,
    (M.reach x e.transport e.nextHopAddr).isSome
  known : ∀ x, (net x).table.allRoutes dest ≠ [] ↔ told x

theorem spread_start (M : Topology ι) (dest : Bytes) : M.Spread M.start dest (fun _ => false) where
  lands := fun _ _ he => absurd he List.not_mem_nil
  known := fun _ => ⟨fun h => absurd rfl h, fun h => absurd h Bool.false_ne_true⟩

/-- A router that knows a destination passes packets to one that knows it too, or
    to the destination. -/
theorem nextHop_on (h : M.Spread net dest told) (hnet : M.Ordered net born n)
    (hfresh : ∀ x, (net x).table.Fresh now) (x : ι) (hx : told x) (hne : M.id x ≠ dest) :
    ∃ y, M.nextHop net now dest x = some y ∧ (told y ∨ M.id y = dest) := by
  have hroutes := (h.known x).mpr hx
  unfold nextHop
  rw [if_neg hne, RouteTable.best_fresh _ _ (hfresh x)]
  cases hbest : ((net x).table.allRoutes dest).argmax RouteEntry.score with
  | none => exact absurd (List.argmax_eq_none.mp hbest) hroutes
  | some e =>
      have hmem := List.argmax_mem hbest
      rcases Option.isSome_iff_exists.mp (h.lands x e hmem) with ⟨y, hy⟩
      refine ⟨y, hy, ?_⟩
      rcases hnet.leads x dest e hmem y hy with ⟨_, hid⟩ | ⟨_, b, hb, _⟩
      · exact Or.inr hid
      · -- The neighbour has the route that it told of, or a shorter one.
        exact Or.inl ((h.known y).mp (List.ne_nil_of_mem (List.argmax_mem hb)))

/-- From a router that knows of the destination, a packet arrives as it was sent, after
    fewer hops than there are routers. -/
theorem Spread.arrives [Fintype ι] (h : M.Spread net dest told) (hnet : M.Ordered net born n)
    (hfresh : ∀ x, (net x).table.Fresh now) (x : ι) (raw : Bytes) (hx : told x ∨ M.id x = dest) :
    ∃ y, M.id y = dest ∧ M.carry net now dest (Fintype.card ι - 1) x raw = .arrived y raw := by
  rcases trail_arrives (nextHop_rank hnet now hfresh dest) (nextHop_on h hnet hfresh) x hx with
    ⟨y, hy, hdest⟩
  exact ⟨y, hdest, carry_trail _ x y raw hy hdest⟩

/-- A router that was told nothing refuses to forward. -/
theorem Spread.refuses (h : M.Spread net dest told) (hfresh : ∀ x, (net x).table.Fresh now) (x : ι)
    (raw : Bytes) (hx : ¬ told x) : (net x).forward (now dest) raw dest
      = .error ⟨.routingError, "No route to device " ++ hex dest⟩ := by
  have hnil : (net x).table.allRoutes dest = [] := by
    by_contra hroutes
    exact hx ((h.known x).mp hroutes)
  rw [Router.forward_eq, RouteTable.best_fresh _ _ (hfresh x), hnil]
  rfl

section Spreading

variable [DecidableEq ι]

/-- A router knows a destination after hearing a neighbour if it knew it before, or
    if the neighbour is that destination or knows it. -/
theorem hear_known (h : M.Ordered net born n) (a : Announcement ι)
    (hfresh : (net a.neighbour).table.Fresh a.builtAt) (x : ι) :
    (hear net a x).table.allRoutes dest ≠ [] ↔ (net x).table.allRoutes dest ≠ [] ∨
      (x = a.router ∧ M.id a.router ≠ dest ∧
        (M.id a.neighbour = dest ∨ (net a.neighbour).table.allRoutes dest ≠ [])) := by
  by_cases hx : x = a.router
  · rcases Router.processAnnouncePayload_build (net a.router) (net a.neighbour) a.builtAt
      a.processedAt a.transport a.addr a.senderTrustScore (h.identified a.neighbour) with
      ⟨updated, hrun, hroutes⟩
    have hself : hear net a a.router = { net a.router with
        table := updated.foldl RouteTable.add (net a.router).table } := by
      rw [hear, Function.update_self, hrun]
      rfl
    rw [hx, hself, hroutes, h.localId]
    by_cases hid : dest = M.id a.router
    · -- What is said about the router itself is skipped.
      rw [if_pos hid]
      exact ⟨Or.inl, fun hor => hor.resolve_right (fun hand => hand.2.1 hid.symm)⟩
    · rw [if_neg hid, Router.announced_get?, h.localId, RouteTable.best_fresh _ _ hfresh]
      by_cases hy : dest = M.id a.neighbour
      · rw [if_pos hy]
        exact ⟨fun _ => Or.inr ⟨rfl, Ne.symm hid, Or.inl hy.symm⟩,
          fun _ => upsertRoute_ne_nil _ _⟩
      · rw [if_neg hy]
        cases hbest : ((net a.neighbour).table.allRoutes dest).argmax RouteEntry.score with
        | none =>
            -- The neighbour has no route to tell of.
            have hnil := List.argmax_eq_none.mp hbest
            simp only [Option.map_none, hnil]
            refine ⟨Or.inl, fun hor => hor.resolve_right ?_⟩
            rintro ⟨_, _, hself | hroute⟩
            · exact hy hself.symm
            · exact hroute rfl
        | some b =>
            have hsome := List.ne_nil_of_mem (List.argmax_mem hbest)
            exact ⟨fun _ => Or.inr ⟨rfl, Ne.symm hid, Or.inr hsome⟩,
              fun _ => upsertRoute_ne_nil _ _⟩
  · rw [show hear net a x = net x from Function.update_of_ne hx _ _]
    exact ⟨Or.inl, fun hor => hor.resolve_right (fun hand => hx hand.1)⟩

/-- Registering a direct route. -/
theorem Spread.connect (h : M.Spread net dest told) (d : DirectRoute ι) (hd : d.Lands M) :
    M.Spread (connect net d) dest
      (fun x => told x || decide (d.router = x ∧ d.deviceId = dest)) where
  lands := by
    intro x e he
    rcases (connect_cases net d x).2.2 dest e he with ⟨hx, _, hnew⟩ | hold
    · rw [hx, hnew]
      exact hd
    · exact h.lands x e hold
  known := by
    intro x
    rw [Bool.or_eq_true, decide_eq_true_eq, ← h.known x]
    -- Only the router of the route learns of it, and only for its destination.
    by_cases hx : x = d.router
    · have hself : Topology.connect net d d.router
          = { net d.router with table := (net d.router).table.add d.entry } :=
        Function.update_self _ _ _
      rw [hx, hself, RouteTable.allRoutes_add]
      by_cases hdest : dest = d.entry.deviceId
      · rw [if_pos hdest, hdest]
        exact ⟨fun _ => Or.inr ⟨rfl, rfl⟩, fun _ => upsertRoute_ne_nil _ _⟩
      · rw [if_neg hdest]
        exact ⟨Or.inl, fun hor => hor.resolve_right (fun hand => hdest hand.2.symm)⟩
    · rw [show Topology.connect net d x = net x from Function.update_of_ne hx _ _]
      exact ⟨Or.inl, fun hor => hor.resolve_right (fun hand => hx hand.1.symm)⟩

/-- Any number of direct routes. -/
theorem Spread.directs (h : M.Spread net dest told) (directs : List (DirectRoute ι))
    (hland : ∀ d ∈ directs, d.Lands M) :
    M.Spread (directs.foldl Topology.connect net) dest
      (fun x => told x || directs.any (fun d => d.router = x ∧ d.deviceId = dest)) := by
  induction directs generalizing net told with
  | nil =>
      simp only [List.any_nil, Bool.or_false]
      exact h
  | cons d directs ih =>
      have hd := ih (h.connect d (hland d List.mem_cons_self))
        (fun b hb => hland b (List.mem_cons_of_mem _ hb))
      simp only [List.any_cons, ← Bool.or_assoc]
      exact hd

/-- Hearing a neighbour. A route that is learned leads to the neighbour, and there
    is one exactly if the neighbour had something to tell. -/
theorem Spread.hear (h : M.Spread net dest told) (hnet : M.Ordered net born n)
    (a : Announcement ι) (hlink : a.Linked M) (heven : a.Even M)
    (hfresh : (net a.neighbour).table.Fresh a.builtAt) :
    M.Spread (hear net a) dest (M.tell dest told a) where
  lands := by
    intro x e he
    rcases (hear_cases hnet a heven hfresh x).2.2 dest with hsame | ⟨hx, hops, _, hnew⟩
    · rw [hsame] at he
      exact h.lands x e he
    · rw [hnew] at he
      rcases mem_upsertRoute _ _ e he with hlearned | hold
      · rw [hlearned, hx]
        exact Option.isSome_of_eq_some hlink
      · exact h.lands x e hold
  known := by
    intro x
    rw [hear_known hnet a hfresh x, h.known, h.known, tell]
    -- The announcement brings word to the receiver and to nobody else.
    by_cases htold : M.id a.router ≠ dest ∧ (M.id a.neighbour = dest ∨ told a.neighbour)
    · rw [if_pos htold]
      by_cases hx : x = a.router
      · rw [hx, Function.update_self]
        exact ⟨fun _ => rfl, fun _ => Or.inr ⟨rfl, htold⟩⟩
      · rw [Function.update_of_ne hx]
        exact ⟨fun hor => hor.resolve_right (fun hand => hx hand.1), Or.inl⟩
    · rw [if_neg htold]
      exact ⟨fun hor => hor.resolve_right (fun hand => htold hand.2), Or.inl⟩

/-- Any number of announcements. The tables and the news go through them side by
    side. -/
theorem Spread.heard (h : M.Spread net dest told) (hnet : ∃ born n, M.Ordered net born n)
    (heard : List (Announcement ι))
    (hrun : Along Topology.hear (fun net a => (a.Linked M ∧
      (net a.neighbour).table.Fresh a.builtAt) ∧ a.Even M) net heard) :
    (∃ born n, M.Ordered (heard.foldl Topology.hear net) born n) ∧
      M.Spread (heard.foldl Topology.hear net) dest (heard.foldl (M.tell dest) told) := by
  induction heard generalizing net told with
  | nil => exact ⟨hnet, h⟩
  | cons a heard ih =>
      rcases hnet with ⟨born, n, hnet⟩
      rcases hrun with ⟨⟨⟨hlink, hfresh⟩, heven⟩, hrest⟩
      exact ih (h.hear hnet a hlink heven hfresh)
        ⟨_, _, ordered_hear hnet a hlink heven hfresh⟩ hrest

/-- The tables of a run are in order, and know what the routers were told. -/
theorem spread_mesh (directs : List (DirectRoute ι)) (heard : List (Announcement ι))
    (hdirect : ∀ d ∈ directs, d.Sound M ∧ d.Outranks M) (hland : ∀ d ∈ directs, d.Lands M)
    (heven : ∀ a ∈ heard, a.Even M) (hrun : M.Exchanges directs heard now) (dest : Bytes) :
    (∃ born n, M.Ordered (M.mesh directs heard) born n) ∧
      M.Spread (M.mesh directs heard) dest (M.told dest directs heard) := by
  have hstart := (spread_start M dest).directs directs hland
  simp only [Bool.false_or] at hstart
  exact hstart.heard ⟨_, _, (wired_directs M directs hdirect).ordered⟩ heard
    (along_and _ heard hrun.linked (along_of_forall _ heard heven))

end Spreading

end Topology

/-- Where forwarding is free of loops and direct routes are over links that exist,
    a packet arrives, as it was sent and after fewer hops than there are routers,
    if its sender is the destination or was told of it. Otherwise the sender itself
    refuses to forward it. -/
theorem forwarding_delivers [DecidableEq ι] [Fintype ι] (M : Topology ι)
    (directs : List (DirectRoute ι)) (heard : List (Announcement ι)) (now : Bytes → Rat)
    (hdirect : ∀ d ∈ directs, d.Sound M ∧ d.Outranks M) (hland : ∀ d ∈ directs, d.Lands M)
    (heven : ∀ a ∈ heard, a.Even M) (hrun : M.Exchanges directs heard now) (dest : Bytes)
    (x : ι) (raw : Bytes) :
    (M.told dest directs heard x ∨ M.id x = dest →
      ∃ y, M.id y = dest ∧
        M.carry (M.mesh directs heard) now dest (Fintype.card ι - 1) x raw = .arrived y raw) ∧
    (¬ (M.told dest directs heard x ∨ M.id x = dest) →
      (M.mesh directs heard x).forward (now dest) raw dest
        = .error ⟨.routingError, "No route to device " ++ hex dest⟩) := by
  rcases Topology.spread_mesh directs heard hdirect hland heven hrun dest with
    ⟨⟨born, n, hordered⟩, hspread⟩
  exact ⟨hspread.arrives hordered hrun.fresh x raw,
    fun hx => hspread.refuses hrun.fresh x raw (fun htold => hx (Or.inl htold))⟩

/-- The first of three routers has heard of the last one from the second. -/
theorem forwarding_delivers_relayed :
    ∃ y, (clique 3).id y = beEncode 32 2 ∧
      (clique 3).carry ((clique 3).mesh [direct 1 2 1 0] [hears 0 1]) (fun _ => 0)
        (beEncode 32 2) (Fintype.card (Fin 3) - 1) 0 [90, 84] = .arrived y [90, 84] := by
  refine (forwarding_delivers (clique 3) [direct 1 2 1 0] [hears 0 1] (fun _ => 0) ?_
    (by decide) (by decide +kernel) ⟨by decide +kernel, by decide +kernel⟩ (beEncode 32 2) 0
    [90, 84]).1 (by decide +kernel)
  intro d hd
  rw [List.mem_singleton] at hd
  rw [hd]
  refine ⟨direct_sound 1 2 1 0 zero_lt_one le_rfl le_rfl (by decide), ?_⟩
  norm_num [DirectRoute.Outranks, direct, Topology.cap, clique]

end Ztlnp
