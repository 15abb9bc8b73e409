import Ztlnp.Lib.Rumours
import Ztlnp.Theory.Forwarding

/-!
# Convergence of a Mesh

When a network of routers knows all it can know.

Which routers were told of a destination depends on who spoke to whom, and in what
order. Here the order is left open, up to rounds: in a round every router hears
every neighbour, perhaps more than once and in any order. With one round fewer than
there are routers, a packet arrives wherever links lead to, from everywhere
(`mesh_converges`), and without any direct route being registered. Where no links
lead, the sender refuses it, so what a network forwards no longer depends on how
its rounds went.

The hop counts and the trust of the routes do depend on it, and rounds later they
may still change. Delivery does not.

News of a destination is a rumour: the destination knows of itself, and a router
that is heard by another passes on what it knows. `Topology.aware_tell` says that
hearing an announcement does just that.

## Main definitions

* `Topology.Link`: A link from one router to another.
* `Topology.IsRound`: Every router hears every neighbour.
* `Topology.aware`: Who knows of a destination, the destination included.

## Theorems

* `Topology.aware_told`: Who knows of a destination after a run.
* `Topology.told_of_path`, `Topology.path_of_told`: It is who a path of links joins
  to it.
* `mesh_converges`: After enough rounds, a packet arrives wherever links lead.
-/

namespace Ztlnp

variable {ι : Type}

namespace Topology

/-- What the first router sends on some transport to some address reaches the second. -/
def Link (M : Topology ι) (x y : ι) : Prop := ∃ transport addr, M.reach x transport addr = some y

/-- Who hears whom. -/
def hearing (a : Announcement ι) : ι × ι := (a.router, a.neighbour)

/-- Every router hears every neighbour. -/
def IsRound (M : Topology ι) (heard : List (Announcement ι)) : Prop :=
  Ztlnp.IsRound M.Link (heard.map hearing)

/-- Some links join a router to the one that a packet is for. -/
def Joined (M : Topology ι) (dest : Bytes) (x : ι) : Prop :=
  ∃ z, M.id z = dest ∧ Relation.ReflTransGen M.Link x z

/-- Who knows of a destination. It knows of itself. -/
def aware (M : Topology ι) (dest : Bytes) (told : ι → Bool) (x : ι) : Bool :=
  told x || decide (M.id x = dest)

variable {M : Topology ι} {dest : Bytes} {told : ι → Bool}

theorem aware_iff (x : ι) : M.aware dest told x ↔ told x ∨ M.id x = dest := by
  unfold aware
  rw [Bool.or_eq_true, decide_eq_true_eq]

variable [DecidableEq ι]

/-- Hearing an announcement passes on what the neighbour knows. -/
theorem aware_tell (a : Announcement ι) :
    M.aware dest (M.tell dest told a) = hearFrom (M.aware dest told) (hearing a) := by
  funext x
  rw [Bool.eq_iff_iff, hearFrom_iff, aware_iff, aware_iff, aware_iff]
  unfold tell
  by_cases htold : M.id a.router ≠ dest ∧ (M.id a.neighbour = dest ∨ told a.neighbour = true)
  · rw [if_pos htold]
    by_cases hx : x = a.router
    · rw [hx, Function.update_self]
      exact ⟨fun _ => Or.inr ⟨rfl, htold.2.symm⟩, fun _ => Or.inl rfl⟩
    · rw [Function.update_of_ne hx]
      exact ⟨Or.inl, fun hor => hor.resolve_right (fun hand => hx hand.1)⟩
  · rw [if_neg htold]
    refine ⟨Or.inl, fun hor => hor.elim (fun h => h) ?_⟩
    rintro ⟨hx, hknown⟩
    -- What the router did not take was about itself.
    right
    by_contra hne
    rw [hx] at hne
    exact htold ⟨hne, hknown.symm⟩

/-- Who knows of a destination after a run, from who had a direct route. -/
theorem aware_told (directs : List (DirectRoute ι)) (heard : List (Announcement ι)) :
    M.aware dest (M.told dest directs heard) = (heard.map hearing).foldl hearFrom
      (M.aware dest (fun x => directs.any (fun d => d.router = x ∧ d.deviceId = dest))) := by
  have hfold : ∀ told : ι → Bool, M.aware dest (heard.foldl (M.tell dest) told)
      = (heard.map hearing).foldl hearFrom (M.aware dest told) := by
    intro told
    induction heard generalizing told with
    | nil => rfl
    | cons a heard ih => rw [List.foldl_cons, ih, aware_tell, List.map_cons, List.foldl_cons]
  exact hfold _

/-- After enough rounds, a router that links join to the destination knows of it. -/
theorem told_of_path [Fintype ι] (directs : List (DirectRoute ι))
    (rounds : List (List (Announcement ι))) (hround : ∀ r ∈ rounds, M.IsRound r)
    (hcount : Fintype.card ι - 1 ≤ rounds.length) (x : ι) (hx : M.Joined dest x) :
    M.told dest directs rounds.flatten x ∨ M.id x = dest := by
  rcases hx with ⟨z, hz, hpath⟩
  rw [← aware_iff, aware_told, List.map_flatten]
  refine rounds_tell_all (rounds.map (List.map hearing)) ?_ ?_ _ x z hpath
    ((aware_iff z).mpr (Or.inr hz))
  · intro r hr
    rcases List.mem_map.mp hr with ⟨heard, hheard, rfl⟩
    exact hround heard hheard
  · rw [List.length_map]
    exact hcount

/-- A router that knows of a destination is joined to it, where direct routes and
    announcements go over links. -/
theorem path_of_told (directs : List (DirectRoute ι)) (heard : List (Announcement ι))
    (hdirect : ∀ d ∈ directs, d.Sound M) (hland : ∀ d ∈ directs, d.Lands M)
    (hlink : ∀ a ∈ heard, a.Linked M) (x : ι)
    (hx : M.told dest directs heard x ∨ M.id x = dest) : M.Joined dest x := by
  rw [← aware_iff, aware_told] at hx
  have hlinks : ∀ e ∈ heard.map hearing, M.Link e.1 e.2 := by
    intro e he
    rcases List.mem_map.mp he with ⟨a, ha, rfl⟩
    exact ⟨a.transport, a.addr, hlink a ha⟩
  rcases foldl_hearFrom_reaches _ _ hlinks x hx with ⟨z, hpath, hz⟩
  rcases (aware_iff z).mp hz with hany | hid
  · -- One more link, that of the direct route.
    rcases List.any_eq_true.mp hany with ⟨d, hd, hfor⟩
    rw [decide_eq_true_eq] at hfor
    rcases Option.isSome_iff_exists.mp (hland d hd) with ⟨y, hy⟩
    refine ⟨y, ((hdirect d hd).reaches y hy).trans hfor.2, hpath.tail ?_⟩
    rw [← hfor.1]
    exact ⟨d.transport, d.nextHopAddr, hy⟩
  · exact ⟨z, hid, hpath⟩

end Topology

/-- In a network where forwarding is free of loops and every router has heard every
    neighbour in as many rounds as there are other routers, in any order: a packet
    arrives, as it was sent and after fewer hops than there are routers, wherever a
    path of links leads to. Otherwise its sender refuses to forward it. -/
theorem mesh_converges [DecidableEq ι] [Fintype ι] (M : Topology ι)
    (directs : List (DirectRoute ι)) (rounds : List (List (Announcement ι))) (now : Bytes → Rat)
    (hdirect : ∀ d ∈ directs, d.Sound M ∧ d.Outranks M) (hland : ∀ d ∈ directs, d.Lands M)
    (heven : ∀ a ∈ rounds.flatten, a.Even M) (hrun : M.Exchanges directs rounds.flatten now)
    (hround : ∀ r ∈ rounds, M.IsRound r) (hcount : Fintype.card ι - 1 ≤ rounds.length)
    (dest : Bytes) (x : ι) (raw : Bytes) :
    (M.Joined dest x → ∃ y, M.id y = dest ∧
      M.carry (M.mesh directs rounds.flatten) now dest (Fintype.card ι - 1) x raw
        = .arrived y raw) ∧
    (¬ M.Joined dest x → (M.mesh directs rounds.flatten x).forward (now dest) raw dest
      = .error ⟨.routingError, "No route to device " ++ hex dest⟩) := by
  rcases Topology.spread_mesh directs rounds.flatten hdirect hland heven hrun dest with
    ⟨⟨born, n, hordered⟩, hspread⟩
  constructor
  · intro hx
    exact hspread.arrives hordered hrun.fresh x raw
      (Topology.told_of_path directs rounds hround hcount x hx)
  · intro hx
    refine hspread.refuses hrun.fresh x raw (fun htold => hx ?_)
    exact Topology.path_of_told directs rounds.flatten (fun d hd => (hdirect d hd).1) hland
      (forall_of_along (fun _ _ h => h.1) _ _ hrun.linked) x (Or.inl htold)

section Examples

/-- Three routers in a line. -/
def lane : Topology (Fin 3) where
  id := fun x => beEncode 32 x.val
  reach := fun x _ addr => (List.finRange 3).find? (fun y =>
    addr = beEncode 1 y.val ∧ (x.val + 1 = y.val ∨ y.val + 1 = x.val))
  maxAdvertisedTrust := fun _ => 95 / 100
  senderTrustScore := fun _ => 1
  id_length := fun _ => beEncode_length _ _
  senderTrustScore_nonneg := fun _ => zero_le_one

/-- The two outer routers hear the one in the middle first. -/
def laneRound : List (Announcement (Fin 3)) := [hears 0 1, hears 2 1, hears 1 0, hears 1 2]

theorem laneRound_isRound : lane.IsRound laneRound := by
  rintro x y ⟨t, addr, hreach⟩
  have hxy := List.find?_some hreach
  rw [decide_eq_true_eq] at hxy
  have hnext := hxy.2
  clear hxy hreach
  revert x y
  decide

/-- The outer routers do not hear each other, and after two rounds reach each other. -/
theorem lane_converges :
    ∃ y, lane.id y = beEncode 32 2 ∧
      lane.carry (lane.mesh [] [laneRound, laneRound].flatten) (fun _ => 0) (beEncode 32 2)
        (Fintype.card (Fin 3) - 1) 0 [90, 84] = .arrived y [90, 84] := by
  refine (mesh_converges lane [] [laneRound, laneRound] (fun _ => 0)
    (fun d hd => absurd hd List.not_mem_nil) (fun d hd => absurd hd List.not_mem_nil)
    (by decide +kernel) ⟨by decide +kernel, by decide +kernel⟩ ?_ (by decide) (beEncode 32 2) 0
    [90, 84]).1 ⟨2, rfl, ?_⟩
  · intro r hr
    have hmem : r = laneRound := by simpa using hr
    rw [hmem]
    exact laneRound_isRound
  · have hfirst : lane.Link 0 1 := ⟨0, beEncode 1 1, by decide⟩
    have hsecond : lane.Link 1 2 := ⟨0, beEncode 1 2, by decide⟩
    exact .tail (.single hfirst) hsecond

end Examples

end Ztlnp
