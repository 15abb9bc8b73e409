import Ztlnp.Core.Transport
import Ztlnp.Lib.Runs
import Mathlib.Data.List.Perm.Basic

/-!
# Datagrams Between Threads

In-process transports under any interleaving of threads that make, use and
close them.

A call of `send` or `recv` is two steps, and anything may happen between them:
a datagram that has passed the checks of `send` flies until it is put in the
queue of the peer, and a call of `recv` that has passed its check waits until
it takes a datagram or runs out of time. Flying datagrams may be put in any
order, since they may belong to different threads.

Between two linked ends the queues are pipes. What was taken from an end,
followed by what is still in its queue, is what its peer has put in, in that
order and under the address of the peer. Whatever passed the checks is put
once or still flies. An end without a peer never has anything in its queue.

Closing either end stops both directions, but only for what comes after. A
thread that was already waiting is not told. If nothing was left to arrive when
the end was closed, it waits for good, although the module promises that `recv`
returns when the transport is closed.

## Main definitions

* `Medium`, `MediumAct`, `Medium.step`: The machine.
* `Medium.putTo`, `Medium.takenFrom`: What went in and out at one end.
* `Medium.Sound`: What holds in every run.
* `Medium.Quiet`: Nothing can arrive at an end any more.

## Theorems

* `moved_sound`: Every step keeps the machine sound.
* `inProcess_pipes`: Ends are pipes, in every run.
* `moved_quiet`: Where nothing can arrive, nothing ever does.
* `closed_never_wakes`: A thread that waits there waits for good.
-/

namespace Ztlnp

/-- A datagram that was put in a queue. -/
structure Put where
  sender : Nat
  receiver : Nat
  source : Bytes
  data : Bytes
deriving DecidableEq

/-- All transports that were made, the sends and receives that are under way, and
    what passed the checks, was put and was taken so far. -/
structure Medium where
  made : List InProcessTransport := []
  flying : List (Nat × Bytes) := []
  waiting : List (Nat × Option Rat) := []
  passed : List (Nat × Bytes) := []
  puts : List Put := []
  taken : List (Nat × Bytes × Bytes) := []
deriving DecidableEq

/-- What a thread can do. Sends and receives that are under way are named by their
    place. -/
inductive MediumAct
  | make (addr : Bytes)
  | makePair (addrA addrB : Bytes)
  | send (i : Nat) (destAddr data : Bytes)
  | put (k : Nat)
  | recv (i : Nat) (timeout : Option Rat)
  | get (k : Nat) (waited : Rat)
  | close (i : Nat)

namespace Medium

/-- The peer of a transport. -/
def peerOf (m : Medium) (t : InProcessTransport) : Option InProcessTransport :=
  t.peer.bind (fun j => m.made[j]?)

/-- One step of one thread. A call on a transport that was not made is none. -/
def step (m : Medium) : MediumAct → Medium
  | .make addr => { m with made := m.made ++ [{ localAddr := addr }] }
  | .makePair addrA addrB => { m with made := InProcessTransport.createPair addrA addrB m.made }
  | .send i _ data =>
    match m.made[i]? with
    | none => m
    | some t =>
      match t.checkSend (m.peerOf t) with
      | .error _ => m
      | .ok _ => { m with flying := m.flying ++ [(i, data)], passed := m.passed ++ [(i, data)] }
  | .put k =>
    match m.flying[k]? with
    | none => m
    | some (i, data) =>
      match m.made[i]? with
      | none => m
      | some t =>
        match t.peer with
        | none => m
        | some j =>
          { m with
            made := m.made.modify j (t.put data)
            flying := m.flying.eraseIdx k
            puts := m.puts ++ [⟨i, j, t.localAddr, data⟩] }
  | .recv i timeout =>
    match m.made[i]? with
    | none => m
    | some t =>
      match t.checkRecv with
      | .error _ => m
      | .ok _ => { m with waiting := m.waiting ++ [(i, timeout)] }
  | .get k waited =>
    match m.waiting[k]? with
    | none => m
    | some (i, timeout) =>
      match m.made[i]? with
      | none => m
      | some t =>
        match t.get timeout waited with
        | .error _ => { m with waiting := m.waiting.eraseIdx k }
        | .ok none => m
        | .ok (some (datagram, t')) =>
          { m with
            made := m.made.modify i (fun t => { t with inbox := t'.inbox })
            waiting := m.waiting.eraseIdx k
            taken := m.taken ++ [(i, datagram)] }
  | .close i => { m with made := m.made.modify i InProcessTransport.close }

/-- What was put in the queue of an end. -/
def putTo (m : Medium) (j : Nat) : List (Bytes × Bytes) :=
  (m.puts.filter (fun p => p.receiver = j)).map (fun p => (p.source, p.data))

/-- What was taken from it. -/
def takenFrom (m : Medium) (j : Nat) : List (Bytes × Bytes) :=
  (m.taken.filter (fun d => d.1 = j)).map Prod.snd

/-- Links go both ways, what flies comes from an end that has a peer, and queues
    hold what was put and not yet taken. -/
structure Sound (m : Medium) : Prop where
  linked : ∀ (i j : Nat) (t : InProcessTransport), m.made[i]? = some t → t.peer = some j →
    ∃ u : InProcessTransport, m.made[j]? = some u ∧ u.peer = some i
  flying : ∀ f ∈ m.flying, ∃ (t : InProcessTransport) (j : Nat), m.made[f.1]? = some t ∧
    t.peer = some j
  source : ∀ p ∈ m.puts, ∃ t : InProcessTransport, m.made[p.sender]? = some t ∧
    t.localAddr = p.source ∧ t.peer = some p.receiver
  queued : ∀ (j : Nat) (t : InProcessTransport), m.made[j]? = some t →
    m.putTo j = m.takenFrom j ++ t.inbox
  unmade : ∀ j : Nat, m.made.length ≤ j → m.putTo j = [] ∧ m.takenFrom j = []
  passed : m.passed.Perm (m.flying ++ m.puts.map (fun p => (p.sender, p.data)))

end Medium

/-- What a change keeps, it keeps whether it is made or not. -/
theorem changed_eq {β : Type} (g : InProcessTransport → β)
    (f : InProcessTransport → InProcessTransport) (hg : ∀ t, g (f t) = g t) (c : Prop) [Decidable c]
    (t : InProcessTransport) : g (if c then f t else t) = g t := by
  by_cases hc : c
  · rw [if_pos hc, hg]
  · rw [if_neg hc]

section Modify

variable (made : List InProcessTransport) (k : Nat) (f : InProcessTransport → InProcessTransport)

/-- Looking up a transport after one of them has changed, -/
theorem modify_after (i : Nat) (t : InProcessTransport) (h : made[i]? = some t) :
    (made.modify k f)[i]? = some (if k = i then f t else t) := by
  rw [List.getElem?_modify, h]
  rfl

/-- and where it has come from. -/
theorem modify_before (i : Nat) (t' : InProcessTransport) (h : (made.modify k f)[i]? = some t') :
    ∃ t, made[i]? = some t ∧ t' = if k = i then f t else t := by
  rw [List.getElem?_modify] at h
  cases ht : made[i]? with
  | none =>
      rw [ht] at h
      simp only [Option.map_eq_map, Option.map_none, reduceCtorEq] at h
  | some t =>
      rw [ht] at h
      exact ⟨t, rfl, (Option.some.inj h).symm⟩

end Modify

section Append

variable (made more : List InProcessTransport)

/-- Looking up a transport after others were made, -/
theorem append_after (i : Nat) (t : InProcessTransport) (h : made[i]? = some t) :
    (made ++ more)[i]? = some t := by
  rw [List.getElem?_append_left (List.getElem?_eq_some_iff.mp h).1]
  exact h

/-- and whether it is one of these. -/
theorem append_before (i : Nat) (t : InProcessTransport) (h : (made ++ more)[i]? = some t) :
    made[i]? = some t ∨ ∃ k, i = made.length + k ∧ more[k]? = some t := by
  by_cases hi : i < made.length
  · rw [List.getElem?_append_left hi] at h
    exact Or.inl h
  · rw [List.getElem?_append_right (by omega)] at h
    exact Or.inr ⟨i - made.length, by omega, h⟩

end Append

/-- Taking out one thing leaves another as often as it was. -/
theorem count_eraseIdx_of_ne {α : Type} [BEq α] [LawfulBEq α] (l : List α) (k : Nat) (a b : α)
    (hk : l[k]? = some b) (hne : b ≠ a) : (l.eraseIdx k).count a = l.count a := by
  rcases List.getElem?_eq_some_iff.mp hk with ⟨hlt, hget⟩
  have hcount := (List.getElem_cons_eraseIdx_perm hlt).count_eq a
  rw [hget, List.count_cons_of_ne hne] at hcount
  exact hcount

namespace Medium

variable {m : Medium}

/-- What does not depend on the queues is kept by a change to one transport. -/
theorem Sound.modified (h : m.Sound) (k : Nat) (f : InProcessTransport → InProcessTransport)
    (haddr : ∀ t, (f t).localAddr = t.localAddr) (hpeer : ∀ t, (f t).peer = t.peer) :
    (∀ (i j : Nat) (t : InProcessTransport), (m.made.modify k f)[i]? = some t → t.peer = some j →
      ∃ u : InProcessTransport, (m.made.modify k f)[j]? = some u ∧ u.peer = some i) ∧
    (∀ g ∈ m.flying, ∃ (t : InProcessTransport) (j : Nat), (m.made.modify k f)[g.1]? = some t ∧
      t.peer = some j) ∧
    ∀ p ∈ m.puts, ∃ t : InProcessTransport, (m.made.modify k f)[p.sender]? = some t ∧
      t.localAddr = p.source ∧ t.peer = some p.receiver := by
  -- The links, the datagrams in flight and the log name transports by their place in the list,
  -- and a change in place moves none of them.
  refine ⟨fun i j t' ht' htpeer => ?_, fun g hg => ?_, fun p hp => ?_⟩
  · rcases modify_before m.made k f i t' ht' with ⟨t, ht, rfl⟩
    rw [changed_eq InProcessTransport.peer f hpeer] at htpeer
    rcases h.linked i j t ht htpeer with ⟨u, hu, hback⟩
    refine ⟨_, modify_after m.made k f j u hu, ?_⟩
    rw [changed_eq InProcessTransport.peer f hpeer]
    exact hback
  · rcases h.flying g hg with ⟨t, j, ht, htpeer⟩
    refine ⟨_, j, modify_after m.made k f g.1 t ht, ?_⟩
    rw [changed_eq InProcessTransport.peer f hpeer]
    exact htpeer
  · rcases h.source p hp with ⟨t, ht, htaddr, htpeer⟩
    refine ⟨_, modify_after m.made k f p.sender t ht, ?_⟩
    rw [changed_eq InProcessTransport.peer f hpeer,
      changed_eq InProcessTransport.localAddr f haddr]
    exact ⟨htaddr, htpeer⟩

/-- New transports have empty queues, and are linked among themselves. -/
theorem Sound.extended (h : m.Sound) (more : List InProcessTransport)
    (hempty : ∀ t ∈ more, t.inbox = [])
    (hlinked : ∀ (i j : Nat) (t : InProcessTransport), more[i]? = some t → t.peer = some j →
      ∃ k u, j = m.made.length + k ∧ more[k]? = some u ∧ u.peer = some (m.made.length + i)) :
    ({ m with made := m.made ++ more } : Medium).Sound := by
  refine ⟨fun i j t ht hpeer => ?_, fun f hf => ?_, fun p hp => ?_, fun j t ht => ?_,
    fun j hj => ?_, h.passed⟩
  · rcases append_before m.made more i t ht with hmade | ⟨k, rfl, hmore⟩
    · rcases h.linked i j t hmade hpeer with ⟨u, hu, hback⟩
      exact ⟨u, append_after m.made more j u hu, hback⟩
    · -- A link of the new ones stays within the new ones, behind all that was there.
      rcases hlinked k j t hmore hpeer with ⟨l, u, rfl, hu, hback⟩
      refine ⟨u, ?_, hback⟩
      rw [List.getElem?_append_right (Nat.le_add_right _ _), Nat.add_sub_cancel_left]
      exact hu
  · rcases h.flying f hf with ⟨t, j, ht, hpeer⟩
    exact ⟨t, j, append_after m.made more _ t ht, hpeer⟩
  · rcases h.source p hp with ⟨t, ht, hrest⟩
    exact ⟨t, append_after m.made more _ t ht, hrest⟩
  · rcases append_before m.made more j t ht with hmade | ⟨k, rfl, hmore⟩
    · exact h.queued j t hmade
    · -- Nothing was put to a place that held no transport, so the new inbox is accounted for.
      rcases h.unmade (m.made.length + k) (Nat.le_add_right _ _) with ⟨hput, htaken⟩
      rw [hempty t (List.mem_of_getElem? hmore), List.append_nil]
      exact hput.trans htaken.symm
  · rw [List.length_append] at hj
    exact h.unmade j (by omega)

/-- A send that passed its checks flies. -/
theorem Sound.sent (h : m.Sound) (i : Nat) (data : Bytes) (t : InProcessTransport) (j : Nat)
    (ht : m.made[i]? = some t) (hpeer : t.peer = some j) :
    ({ m with flying := m.flying ++ [(i, data)], passed := m.passed ++ [(i, data)] } :
      Medium).Sound := by
  refine ⟨h.linked, fun f hf => ?_, h.source, h.queued, h.unmade, ?_⟩
  · rcases List.mem_append.mp hf with hf | hf
    · exact h.flying f hf
    · rw [List.mem_singleton.mp hf]
      exact ⟨t, j, ht, hpeer⟩
  · refine (h.passed.append_right [(i, data)]).trans ?_
    rw [List.append_assoc, List.append_assoc]
    exact List.Perm.append_left _ List.perm_append_comm

/-- What flies is put at the end of one queue. -/
theorem Sound.put (h : m.Sound) (k i j : Nat) (data : Bytes) (t : InProcessTransport)
    (hfly : m.flying[k]? = some (i, data)) (ht : m.made[i]? = some t) (hpeer : t.peer = some j) :
    ({ m with
        made := m.made.modify j (t.put data)
        flying := m.flying.eraseIdx k
        puts := m.puts ++ [⟨i, j, t.localAddr, data⟩] } : Medium).Sound := by
  rcases h.modified j (t.put data) (fun _ => rfl) (fun _ => rfl) with ⟨hlinked, hflying, hsource⟩
  have hputTo : ∀ l, Medium.putTo { m with
      made := m.made.modify j (t.put data)
      flying := m.flying.eraseIdx k
      puts := m.puts ++ [⟨i, j, t.localAddr, data⟩] } l
        = m.putTo l ++ if j = l then [(t.localAddr, data)] else [] := by
    intro l
    simp only [putTo, List.filter_append, List.map_append, List.filter_singleton]
    by_cases hl : j = l
    · simp only [hl, decide_true, if_true, List.map_singleton, cond_true]
    · simp only [hl, decide_false, if_false, List.map_nil, cond_false]
  refine ⟨hlinked, fun f hf => hflying f (List.mem_of_mem_eraseIdx hf), fun p hp => ?_,
    fun l u hu => ?_, fun l hl => ?_, ?_⟩
  · rcases List.mem_append.mp hp with hp | hp
    · exact hsource p hp
    · rw [List.mem_singleton.mp hp]
      refine ⟨_, modify_after m.made j (t.put data) i t ht, ?_⟩
      rw [changed_eq InProcessTransport.peer (t.put data) (fun _ => rfl),
        changed_eq InProcessTransport.localAddr (t.put data) (fun _ => rfl)]
      exact ⟨rfl, hpeer⟩
  · rw [hputTo]
    rcases modify_before m.made j (t.put data) l u hu with ⟨u', hu', rfl⟩
    have hqueued := h.queued l u' hu'
    by_cases hl : j = l
    · rw [if_pos hl, if_pos hl, hqueued, List.append_assoc]
      rfl
    · rw [if_neg hl, if_neg hl, List.append_nil]
      exact hqueued
  · rw [hputTo]
    rw [List.length_modify] at hl
    rcases h.linked i j t ht hpeer with ⟨u, hu, _⟩
    have hj := (List.getElem?_eq_some_iff.mp hu).1
    rw [if_neg (by omega), List.append_nil]
    exact h.unmade l hl
  · -- The datagram moves from those that fly to those that were put.
    rcases List.getElem?_eq_some_iff.mp hfly with ⟨hk, hget⟩
    have hperm := List.getElem_cons_eraseIdx_perm hk
    rw [hget] at hperm
    refine h.passed.trans ((List.Perm.append_right _ hperm.symm).trans ?_)
    rw [List.map_append, ← List.append_assoc]
    exact (List.perm_append_singleton (i, data) _).symm

/-- What is taken was at the front of the queue. -/
theorem Sound.took (h : m.Sound) (i : Nat) (t : InProcessTransport) (datagram : Bytes × Bytes)
    (rest : List (Bytes × Bytes)) (waiting : List (Nat × Option Rat)) (ht : m.made[i]? = some t)
    (hinbox : t.inbox = datagram :: rest) :
    ({ m with
        made := m.made.modify i (fun t => { t with inbox := rest })
        waiting := waiting
        taken := m.taken ++ [(i, datagram)] } : Medium).Sound := by
  rcases h.modified i (fun t => { t with inbox := rest }) (fun _ => rfl) (fun _ => rfl) with
    ⟨hlinked, hflying, hsource⟩
  -- Only the log of `i` grows, by the datagram it took.
  have htaken : ∀ l, takenFrom { m with
      made := m.made.modify i (fun t => { t with inbox := rest })
      waiting := waiting
      taken := m.taken ++ [(i, datagram)] } l
        = m.takenFrom l ++ if i = l then [datagram] else [] := by
    intro l
    simp only [takenFrom, List.filter_append, List.map_append, List.filter_singleton]
    by_cases hl : i = l
    · simp only [hl, decide_true, if_true, List.map_singleton, cond_true]
    · simp only [hl, decide_false, if_false, List.map_nil, cond_false]
  refine ⟨hlinked, hflying, hsource, fun l u hu => ?_, fun l hl => ?_, h.passed⟩
  · rw [htaken]
    rcases modify_before m.made i _ l u hu with ⟨u', hu', rfl⟩
    have hqueued := h.queued l u' hu'
    by_cases hl : i = l
    · subst hl
      rw [ht, Option.some.injEq] at hu'
      -- The head leaves the inbox as it enters the log.
      rw [← hu', hinbox] at hqueued
      rw [if_pos rfl, if_pos rfl, List.append_assoc]
      exact hqueued
    · rw [if_neg hl, if_neg hl, List.append_nil]
      exact hqueued
  · -- A place past the end is not the one that was read.
    rw [htaken]
    rw [List.length_modify] at hl
    have hi := (List.getElem?_eq_some_iff.mp ht).1
    rw [if_neg (by omega), List.append_nil]
    exact h.unmade l hl

/-- Closing a transport leaves its queue alone. -/
theorem Sound.closed (h : m.Sound) (i : Nat) :
    ({ m with made := m.made.modify i InProcessTransport.close } : Medium).Sound := by
  rcases h.modified i InProcessTransport.close (fun _ => rfl) (fun _ => rfl) with
    ⟨hlinked, hflying, hsource⟩
  refine ⟨hlinked, hflying, hsource, fun l u hu => ?_, fun l hl => ?_, h.passed⟩
  · rcases modify_before m.made i _ l u hu with ⟨u', hu', rfl⟩
    have hqueued := h.queued l u' hu'
    by_cases hl : i = l
    · rw [if_pos hl]
      exact hqueued
    · rw [if_neg hl]
      exact hqueued
  · rw [List.length_modify] at hl
    exact h.unmade l hl

/-- What a step can do to a machine. -/
inductive Moved (m : Medium) : Medium → Prop
  | idle : Moved m m
  | made (more : List InProcessTransport) (hempty : ∀ t ∈ more, t.inbox = [])
      (hlinked : ∀ (i j : Nat) (t : InProcessTransport), more[i]? = some t → t.peer = some j →
        ∃ k u, j = m.made.length + k ∧ more[k]? = some u ∧ u.peer = some (m.made.length + i)) :
      Moved m { m with made := m.made ++ more }
  | sent (i j : Nat) (data : Bytes) (t u : InProcessTransport) (ht : m.made[i]? = some t)
      (hpeer : t.peer = some j) (hu : m.made[j]? = some u) (hself : t.closed = false)
      (hopen : u.closed = false) :
      Moved m { m with flying := m.flying ++ [(i, data)], passed := m.passed ++ [(i, data)] }
  | put (k i j : Nat) (data : Bytes) (t : InProcessTransport)
      (hfly : m.flying[k]? = some (i, data)) (ht : m.made[i]? = some t) (hpeer : t.peer = some j) :
      Moved m { m with
        made := m.made.modify j (t.put data)
        flying := m.flying.eraseIdx k
        puts := m.puts ++ [⟨i, j, t.localAddr, data⟩] }
  | waits (i : Nat) (timeout : Option Rat) :
      Moved m { m with waiting := m.waiting ++ [(i, timeout)] }
  | took (k i : Nat) (timeout : Option Rat) (t : InProcessTransport) (datagram : Bytes × Bytes)
      (rest : List (Bytes × Bytes)) (hwait : m.waiting[k]? = some (i, timeout))
      (ht : m.made[i]? = some t) (hinbox : t.inbox = datagram :: rest) :
      Moved m { m with
        made := m.made.modify i (fun t => { t with inbox := rest })
        waiting := m.waiting.eraseIdx k
        taken := m.taken ++ [(i, datagram)] }
  | raised (k i : Nat) (seconds : Rat) (hwait : m.waiting[k]? = some (i, some seconds)) :
      Moved m { m with waiting := m.waiting.eraseIdx k }
  | closed (i : Nat) : Moved m { m with made := m.made.modify i InProcessTransport.close }

/-- Every step of a sound machine is in the inventory. -/
theorem step_moved (h : m.Sound) (a : MediumAct) : m.Moved (m.step a) := by
  cases a with
  | make addr =>
      refine .made [{ localAddr := addr }] (fun t ht => ?_) (fun i j t ht hpeer => ?_)
      · rw [List.mem_singleton.mp ht]
      · rw [List.mem_singleton.mp (List.mem_of_getElem? ht)] at hpeer
        simp only [reduceCtorEq] at hpeer
  | makePair addrA addrB =>
      refine .made [{ localAddr := addrA, peer := some (m.made.length + 1) },
        { localAddr := addrB, peer := some m.made.length }] (fun t ht => ?_)
        (fun i j t ht hpeer => ?_)
      · rcases List.mem_cons.mp ht with rfl | ht
        · rfl
        · rw [List.mem_singleton.mp ht]
      · -- Either of the two has the other one for its peer.
        cases i with
        | zero =>
            rw [List.getElem?_cons_zero, Option.some.injEq] at ht
            rw [← ht, Option.some.injEq] at hpeer
            exact ⟨1, _, hpeer.symm, rfl, rfl⟩
        | succ i => cases i with
          | zero =>
              rw [List.getElem?_cons_succ, List.getElem?_cons_zero, Option.some.injEq] at ht
              rw [← ht, Option.some.injEq] at hpeer
              exact ⟨0, _, hpeer.symm, rfl, rfl⟩
          | succ i =>
              simp only [List.getElem?_cons_succ, List.getElem?_nil, reduceCtorEq] at ht
  | send i destAddr data =>
      simp only [step]
      cases ht : m.made[i]? with
      | none => exact .idle
      | some t =>
          simp only
          cases hcheck : t.checkSend (m.peerOf t) with
          | error x => exact .idle
          | ok _ =>
              rcases (t.checkSend_eq_ok _).mp hcheck with ⟨hself, u, hu, hopen⟩
              rcases Option.bind_eq_some_iff.mp hu with ⟨j, hpeer, hmade⟩
              exact .sent i j data t u ht hpeer hmade hself hopen
  | put k =>
      simp only [step]
      cases hfly : m.flying[k]? with
      | none => exact .idle
      | some f =>
          rcases f with ⟨i, data⟩
          rcases h.flying _ (List.mem_of_getElem? hfly) with ⟨t, j, ht, hpeer⟩
          simp only [ht, hpeer]
          exact .put k i j data t hfly ht hpeer
  | recv i timeout =>
      simp only [step]
      cases m.made[i]? with
      | none => exact .idle
      | some t =>
          simp only
          cases t.checkRecv with
          | error x => exact .idle
          | ok _ => exact .waits i timeout
  | get k waited =>
      simp only [step]
      cases hwait : m.waiting[k]? with
      | none => exact .idle
      | some w =>
          rcases w with ⟨i, timeout⟩
          simp only
          cases ht : m.made[i]? with
          | none => exact .idle
          | some t =>
              simp only
              rcases t.get_cases timeout waited with ⟨datagram, rest, hinbox, hget⟩ |
                ⟨_, hget⟩ | ⟨x, seconds, rfl, hget⟩
              · rw [hget]
                exact .took k i timeout t datagram rest hwait ht hinbox
              · rw [hget]
                exact .idle
              · rw [hget]
                exact .raised k i seconds hwait
  | close i => exact .closed i

/-- Every step keeps the machine sound. -/
theorem moved_sound {m' : Medium} (h : m.Sound) (hmove : m.Moved m') : m'.Sound := by
  cases hmove with
  | idle => exact h
  | made more hempty hlinked => exact h.extended more hempty hlinked
  | sent i j data t u ht hpeer => exact h.sent i data t j ht hpeer
  | put k i j data t hfly ht hpeer => exact h.put k i j data t hfly ht hpeer
  | waits => exact ⟨h.linked, h.flying, h.source, h.queued, h.unmade, h.passed⟩
  | took k i timeout t datagram rest hwait ht hinbox => exact h.took i t datagram rest _ ht hinbox
  | raised => exact ⟨h.linked, h.flying, h.source, h.queued, h.unmade, h.passed⟩
  | closed i => exact h.closed i

theorem run_sound (acts : List MediumAct) : (acts.foldl step {}).Sound := by
  refine along_invariant (fun m : Medium => m.Sound)
    (fun m a h _ => moved_sound h (step_moved h a)) {} acts ?_ (along_true _ acts)
  refine ⟨fun i j t ht => ?_, fun f hf => ?_, fun p hp => ?_, fun j t ht => ?_,
    fun j _ => ⟨rfl, rfl⟩, List.Perm.refl _⟩
  · rw [List.getElem?_nil] at ht
    simp only [reduceCtorEq] at ht
  · exact absurd hf List.not_mem_nil
  · exact absurd hp List.not_mem_nil
  · rw [List.getElem?_nil] at ht
    simp only [reduceCtorEq] at ht

/-- Nothing can arrive at an end any more: nothing is in its queue or on its way, and
    it is closed, or the end it would come from is. -/
structure Quiet (m : Medium) (j : Nat) : Prop where
  empty : ∃ t : InProcessTransport, m.made[j]? = some t ∧ t.inbox = []
  grounded : ∀ f ∈ m.flying, ∀ t : InProcessTransport, m.made[f.1]? = some t → t.peer ≠ some j
  shut : ∀ (i : Nat) (t u : InProcessTransport), m.made[i]? = some t → t.peer = some j →
    m.made[j]? = some u → t.closed = true ∨ u.closed = true

/-- A change to one transport keeps an end quiet if it adds nothing to its queue and
    opens nothing. -/
theorem Quiet.modified {j : Nat} (hq : m.Quiet j) (flying : List (Nat × Bytes))
    (waiting : List (Nat × Option Rat)) (puts : List Put) (taken : List (Nat × Bytes × Bytes))
    (k : Nat) (f : InProcessTransport → InProcessTransport)
    (hpeer : ∀ t, (f t).peer = t.peer) (hclosed : ∀ t, t.closed = true → (f t).closed = true)
    (hempty : k = j → ∀ t, t.inbox = [] → (f t).inbox = [])
    (hflying : ∀ g ∈ flying, g ∈ m.flying) :
    Quiet { m with
      made := m.made.modify k f
      flying := flying
      waiting := waiting
      puts := puts
      taken := taken } j := by
  refine ⟨?_, fun g hg t' ht' => ?_, fun i t' u' ht' htpeer hu' => ?_⟩
  · rcases hq.empty with ⟨t, ht, hinbox⟩
    refine ⟨_, modify_after m.made k f j t ht, ?_⟩
    by_cases hk : k = j
    · rw [if_pos hk]
      exact hempty hk t hinbox
    · rw [if_neg hk]
      exact hinbox
  · rcases modify_before m.made k f g.1 t' ht' with ⟨t, ht, rfl⟩
    rw [changed_eq InProcessTransport.peer f hpeer]
    exact hq.grounded g (hflying g hg) t ht
  · rcases modify_before m.made k f i t' ht' with ⟨t, ht, rfl⟩
    rcases modify_before m.made k f j u' hu' with ⟨u, hu, rfl⟩
    rw [changed_eq InProcessTransport.peer f hpeer] at htpeer
    -- `f` may close a transport and never opens one.
    have hstays : ∀ (l : Nat) (r : InProcessTransport), r.closed = true →
        (if k = l then f r else r).closed = true := by
      intro l r hr
      by_cases hk : k = l
      · rw [if_pos hk]
        exact hclosed r hr
      · rw [if_neg hk]
        exact hr
    rcases hq.shut i t u ht htpeer hu with hself | hother
    · exact Or.inl (hstays i t hself)
    · exact Or.inr (hstays j u hother)

/-- Nothing that happens elsewhere reaches a quiet end, and nobody there is woken. -/
theorem moved_quiet {m' : Medium} {j : Nat} (h : m.Sound) (hq : m.Quiet j) (hmove : m.Moved m') :
    m'.Quiet j ∧ m.waiting.count (j, none) ≤ m'.waiting.count (j, none) ∧
      m'.takenFrom j = m.takenFrom j := by
  cases hmove with
  | idle => exact ⟨hq, le_rfl, rfl⟩
  | made more hempty hlinked =>
      rcases hq.empty with ⟨v, hv, hinbox⟩
      refine ⟨⟨⟨v, append_after m.made more j v hv, hinbox⟩, fun g hg t ht => ?_,
        fun i t u ht hpeer hu => ?_⟩, le_rfl, rfl⟩
      · rcases h.flying g hg with ⟨t', _, ht', _⟩
        rw [append_after m.made more g.1 t' ht', Option.some.injEq] at ht
        rw [← ht]
        exact hq.grounded g hg t' ht'
      · rw [append_after m.made more j v hv, Option.some.injEq] at hu
        rcases append_before m.made more i t ht with hmade | ⟨k, _, hmore⟩
        · rw [← hu]
          exact hq.shut i t v hmade hpeer hv
        · -- What was just made is not linked to what was there.
          rcases hlinked k j t hmore hpeer with ⟨l, _, hlater, _⟩
          have hlt := (List.getElem?_eq_some_iff.mp hv).1
          omega
  | sent i l data t u ht hpeer hu hself hopen =>
      refine ⟨⟨hq.empty, fun g hg v hv => ?_, hq.shut⟩, le_rfl, rfl⟩
      rcases List.mem_append.mp hg with hg | hg
      · exact hq.grounded g hg v hv
      · -- The checks of the send have found both ends open.
        rw [List.mem_singleton.mp hg] at hv
        rw [show v = t from Option.some.inj (hv.symm.trans ht), hpeer]
        intro hl
        rw [Option.some.inj hl] at hpeer hu
        rcases hq.shut i t u ht hpeer hu with hshut | hshut
        · rw [hself] at hshut
          exact absurd hshut Bool.false_ne_true
        · rw [hopen] at hshut
          exact absurd hshut Bool.false_ne_true
  | put k i l data t hfly ht hpeer =>
      refine ⟨hq.modified _ _ _ _ l (t.put data) (fun _ => rfl) (fun _ hc => hc) (fun hl => ?_)
        (fun g hg => List.mem_of_mem_eraseIdx hg), le_rfl, rfl⟩
      rw [hl] at hpeer
      exact absurd hpeer (hq.grounded _ (List.mem_of_getElem? hfly) t ht)
  | waits i timeout =>
      refine ⟨⟨hq.empty, hq.grounded, hq.shut⟩, ?_, rfl⟩
      rw [List.count_append]
      exact Nat.le_add_right _ _
  | took k i timeout t datagram rest hwait ht hinbox =>
      -- The queue of the end is empty, so it is another one.
      have hne : i ≠ j := by
        rintro rfl
        rcases hq.empty with ⟨u, hu, hempty⟩
        rw [show u = t from Option.some.inj (hu.symm.trans ht), hinbox] at hempty
        exact absurd hempty (List.cons_ne_nil _ _)
      refine ⟨hq.modified _ _ _ _ i _ (fun _ => rfl) (fun _ hc => hc) (fun hi => absurd hi hne)
        (fun g hg => hg), ?_, ?_⟩
      · exact (count_eraseIdx_of_ne m.waiting k (j, none) (i, timeout) hwait
          (fun heq => hne (congrArg Prod.fst heq))).ge
      · simp only [takenFrom, List.filter_append, List.filter_singleton, hne, decide_false,
          cond_false, List.append_nil]
  | raised k i seconds hwait =>
      refine ⟨⟨hq.empty, hq.grounded, hq.shut⟩, ?_, rfl⟩
      exact (count_eraseIdx_of_ne m.waiting k (j, none) (i, some seconds) hwait
        (fun heq => Option.some_ne_none seconds (congrArg Prod.snd heq))).ge
  | closed i =>
      exact ⟨hq.modified _ _ _ _ i _ (fun _ => rfl) (fun _ _ => rfl) (fun _ _ hempty => hempty)
        (fun g hg => hg), le_rfl, rfl⟩

/-- An end is quiet once it or its peer is closed, if nothing was left to arrive. -/
theorem closed_quiet (h : m.Sound) (i j : Nat) (t : InProcessTransport) (ht : m.made[j]? = some t)
    (hinbox : t.inbox = [])
    (hgrounded : ∀ f ∈ m.flying, ∀ u : InProcessTransport, m.made[f.1]? = some u → u.peer ≠ some j)
    (hij : i = j ∨ t.peer = some i) : (m.step (.close i)).Quiet j := by
  refine ⟨⟨_, modify_after m.made i _ j t ht, ?_⟩, fun f hf u' hu' => ?_,
    fun l u' v' hu' hpeer hv' => ?_⟩
  · rw [changed_eq InProcessTransport.inbox InProcessTransport.close (fun _ => rfl)]
    exact hinbox
  · rcases modify_before m.made i _ f.1 u' hu' with ⟨u, hu, rfl⟩
    rw [changed_eq InProcessTransport.peer InProcessTransport.close (fun _ => rfl)]
    exact hgrounded f hf u hu
  · rcases modify_before m.made i _ l u' hu' with ⟨u, hu, rfl⟩
    rcases modify_before m.made i _ j v' hv' with ⟨v, hv, rfl⟩
    rw [changed_eq InProcessTransport.peer InProcessTransport.close (fun _ => rfl)] at hpeer
    rcases hij with rfl | hback
    · right
      rw [if_pos rfl]
      rfl
    · -- The only end that can send here is the peer.
      rcases h.linked l j u hu hpeer with ⟨w, hw, hwpeer⟩
      rw [show w = t from Option.some.inj (hw.symm.trans ht), hback, Option.some.injEq] at hwpeer
      left
      rw [if_pos hwpeer]
      rfl

end Medium

/-- In every run of threads that make, use and close in-process transports: what was
    taken from an end and what is in its queue are, in this order, what was put
    there, under the address of the peer, and by the peer. Every datagram that passed
    the checks of a send was put exactly once or is still on its way. And an end that
    has no peer receives nothing. -/
theorem inProcess_pipes (acts : List MediumAct) :
    let m := acts.foldl Medium.step {}
    (∀ (j : Nat) (t : InProcessTransport), m.made[j]? = some t →
      m.takenFrom j ++ t.inbox = m.putTo j ∧
        (t.peer = none → m.takenFrom j = [] ∧ t.inbox = [])) ∧
    (∀ p ∈ m.puts, ∃ t u : InProcessTransport, m.made[p.sender]? = some t ∧
      m.made[p.receiver]? = some u ∧ t.peer = some p.receiver ∧ u.peer = some p.sender ∧
        p.source = t.localAddr) ∧
    m.passed.Perm (m.flying ++ m.puts.map (fun p => (p.sender, p.data))) := by
  intro m
  have h : m.Sound := Medium.run_sound acts
  have hlinks : ∀ p ∈ m.puts, ∃ t u : InProcessTransport, m.made[p.sender]? = some t ∧
      m.made[p.receiver]? = some u ∧ t.peer = some p.receiver ∧ u.peer = some p.sender ∧
        p.source = t.localAddr := by
    intro p hp
    rcases h.source p hp with ⟨t, ht, haddr, hpeer⟩
    rcases h.linked _ _ t ht hpeer with ⟨u, hu, hback⟩
    exact ⟨t, u, ht, hu, hpeer, hback, haddr.symm⟩
  refine ⟨fun j t ht => ⟨(h.queued j t ht).symm, fun hnone => ?_⟩, hlinks, h.passed⟩
  -- A put would have come from a peer.
  have hnever : m.putTo j = [] := by
    rw [Medium.putTo, List.map_eq_nil_iff, List.filter_eq_nil_iff]
    intro p hp hj
    rcases hlinks p hp with ⟨_, u, _, hu, _, hback, _⟩
    rw [of_decide_eq_true hj] at hu
    rw [show u = t from Option.some.inj (hu.symm.trans ht), hnone] at hback
    simp only [reduceCtorEq] at hback
  have hqueued := h.queued j t ht
  rw [hnever] at hqueued
  exact List.append_eq_nil_iff.mp hqueued.symm

/-- If an end or its peer is closed when nothing is in the queue of the end and nothing
    is on its way there, then nothing arrives there in any run from then on, and every
    thread that waits there without a timeout goes on waiting. -/
theorem closed_never_wakes (before after : List MediumAct) (i j : Nat) (t : InProcessTransport) :
    let m := before.foldl Medium.step {}
    let m' := after.foldl Medium.step (m.step (.close i))
    m.made[j]? = some t → t.inbox = [] →
    (∀ f ∈ m.flying, ∀ u : InProcessTransport, m.made[f.1]? = some u → u.peer ≠ some j) →
    i = j ∨ t.peer = some i →
      m'.takenFrom j = m.takenFrom j ∧
        m.waiting.count (j, none) ≤ m'.waiting.count (j, none) := by
  intro m m' ht hinbox hgrounded hij
  have h : m.Sound := Medium.run_sound before
  have hstart := Medium.closed_quiet h i j t ht hinbox hgrounded hij
  have hafter : Along Medium.step (fun _ _ => True) (m.step (.close i)) after := along_true _ after
  -- Quiet and sound stay together along the run, and with them the waiters and the log.
  have hrun := along_related
    (fun m : Medium => m.Sound ∧ m.Quiet j)
    (fun m m' : Medium => m.waiting.count (j, none) ≤ m'.waiting.count (j, none) ∧
      m'.takenFrom j = m.takenFrom j)
    (fun m => ⟨le_rfl, rfl⟩) (fun m m' m'' h h' => ⟨h.1.trans h'.1, h'.2.trans h.2⟩)
    (fun m a h _ => by
      rcases Medium.moved_quiet h.1 h.2 (Medium.step_moved h.1 a) with ⟨hquiet, hstays⟩
      exact ⟨⟨Medium.moved_sound h.1 (Medium.step_moved h.1 a), hquiet⟩, hstays⟩)
    (m.step (.close i)) after ⟨Medium.moved_sound h (Medium.step_moved h _), hstart⟩ hafter
  exact ⟨hrun.2, hrun.1⟩

/-- A thread waits at one end of a pair when the other is closed. Another thread tries
    to send, and the first one is asked whether it has something. -/
def closedTooLate : List MediumAct × List MediumAct :=
  ([.makePair [97] [98], .recv 1 none], [.send 0 [98] [1], .put 0, .get 0 60])

/-- It still waits. -/
theorem closedTooLate_waits :
    let m := closedTooLate.1.foldl Medium.step {}
    let m' := closedTooLate.2.foldl Medium.step (m.step (.close 0))
    m'.takenFrom 1 = m.takenFrom 1 ∧ m.waiting.count (1, none) ≤ m'.waiting.count (1, none) :=
  closed_never_wakes closedTooLate.1 closedTooLate.2 0 1 { localAddr := [98], peer := some 0 } rfl
    rfl (fun _ hf => absurd hf List.not_mem_nil) (Or.inr rfl)

end Ztlnp
