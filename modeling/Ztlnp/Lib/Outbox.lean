import Ztlnp.Lib.Dict
import Mathlib.Data.List.Nodup

/-!
# Outboxes

A sender that keeps what it has sent until it is acknowledged, hands it out
again when it is overdue, and gives up on it after a number of attempts.

The box itself is a dictionary. Beside it the outbox keeps what has become of
everything that was ever put in: what was retired by an acknowledgement, what
was reported as lost, and what was handed out again. Two questions can then be
asked about it. `Conserved` says that nothing disappears: whatever was issued
is in the box, retired or reported, and once only. `Honest` says that the
attempts counted in the box are attempts that were made.

A poll looks at every entry once. It can end in two ways, and the second one
is where the count goes wrong: an entry that was overdue has been counted, but
a report is made in place of the list it was on. So the count stays honest
exactly as long as no poll finds one entry lost and another one overdue.

What an entry is does not matter here. A `Schedule` reads its bytes and its
attempts, and a `Timer` on it decides which entries are due.

## Main definitions

* `Schedule`: How entries are read, and how many attempts there are.
* `Timer`: When entries are due, and what another attempt does to them.
* `Timer.lost`, `Timer.overdue`, `Timer.swept`: A poll.
* `Outbox`: The box with its past.
* `Outbox.Move`: What can happen to it.
* `Outbox.Sound`, `Outbox.Conserved`, `Outbox.Honest`: The invariants.

## Theorems

* `Timer.get?_swept`: What a poll leaves in the box.
* `move_sound`, `move_conserved`: Every move keeps these.
* `move_honest`: A move that reports nothing keeps the third.
* `raised_honest_iff`: When a report does.
-/

namespace Ztlnp

/-- How the entries of an outbox are read. -/
structure Schedule (ε β : Type) where
  bytes : ε → β
  retries : ε → Nat
  limit : Nat

variable {κ ε β : Type}

/-- One poll: which entries are due, and what another attempt makes of them. -/
structure Timer (κ : Type) (S : Schedule ε β) where
  due : κ → ε → Bool
  again : κ → ε → ε
  again_bytes : ∀ k e, S.bytes (again k e) = S.bytes e
  again_retries : ∀ k e, S.retries (again k e) = S.retries e + 1

namespace Timer

variable {S : Schedule ε β} (t : Timer κ S)

/-- An entry is due and has no attempts left. -/
def isLost (k : κ) (e : ε) : Bool := t.due k e && decide (S.limit ≤ S.retries e)

/-- An entry is due and has attempts left. -/
def isOverdue (k : κ) (e : ε) : Bool := t.due k e && decide (S.retries e < S.limit)

/-- The keys of the entries that are lost. -/
def lost (box : Dict κ ε) : List κ := (box.filter t.isLost).keys

/-- The entries that are to be sent again. -/
def overdue (box : Dict κ ε) : Dict κ ε := box.filter t.isOverdue

variable [DecidableEq κ]

/-- What the poll leaves. -/
def swept (box : Dict κ ε) : Dict κ ε :=
  (box.mapValues (fun k e => if t.isOverdue k e then t.again k e else e)).filter
    (fun k _ => k ∉ t.lost box)

theorem mem_lost (box : Dict κ ε) (k : κ) :
    k ∈ t.lost box ↔ ∃ e, box.get? k = some e ∧ t.isLost k e = true := by
  rw [lost, Dict.mem_keys]
  simp only [Dict.get?_filter, Option.filter_eq_some_iff]

/-- What is overdue is not lost. -/
theorem not_mem_lost (box : Dict κ ε) (k : κ) (e : ε) (h : box.get? k = some e)
    (hover : t.isOverdue k e = true) : k ∉ t.lost box := by
  rw [mem_lost]
  rintro ⟨e', he', hlost⟩
  rw [h, Option.some.injEq] at he'
  rw [← he'] at hlost
  simp only [isLost, isOverdue, Bool.and_eq_true, decide_eq_true_eq] at hover hlost
  omega

/-- A poll drops what is lost, counts an attempt for what is overdue, and keeps
    the rest. -/
theorem get?_swept (box : Dict κ ε) (k : κ) :
    (t.swept box).get? k = if k ∈ t.lost box then none
      else (box.get? k).map (fun e => if t.isOverdue k e then t.again k e else e) := by
  rw [swept, Dict.get?_filter, Dict.get?_mapValues]
  cases box.get? k with
  | none => rw [Option.map_none, Option.filter_none, ite_self]
  | some e =>
      by_cases hk : k ∈ t.lost box
      · simp only [Option.map_some, Option.filter_some, hk, not_true_eq_false, decide_false,
          Bool.false_eq_true, if_false, if_true]
      · simp only [Option.map_some, Option.filter_some, hk, not_false_eq_true, decide_true, if_true,
          if_false]

/-- What is left in the box comes from an entry with the same bytes, and with an
    attempt less if it was overdue. -/
theorem swept_entry (box : Dict κ ε) (k : κ) (e : ε) (h : (t.swept box).get? k = some e) :
    ∃ e', box.get? k = some e' ∧ k ∉ t.lost box ∧ S.bytes e = S.bytes e' ∧
      S.retries e = S.retries e' + (if t.isOverdue k e' then 1 else 0) := by
  rw [get?_swept] at h
  by_cases hk : k ∈ t.lost box
  · rw [if_pos hk] at h
    simp only [reduceCtorEq] at h
  · rw [if_neg hk, Option.map_eq_some_iff] at h
    rcases h with ⟨e', he', rfl⟩
    refine ⟨e', he', hk, ?_⟩
    by_cases hover : t.isOverdue k e' = true
    · simp only [if_pos hover]
      exact ⟨t.again_bytes k e', t.again_retries k e'⟩
    · simp only [if_neg hover, Nat.add_zero, and_self]

end Timer

/-- The box, with everything that was issued and what became of it. -/
structure Outbox (κ ε β : Type) where
  box : Dict κ ε
  issued : List (κ × β) := []
  retired : List κ := []
  reported : List (List κ) := []
  handed : List (List β) := []

namespace Outbox

variable [DecidableEq κ]

/-- What can happen to an outbox. -/
inductive Move (S : Schedule ε β) (l : Outbox κ ε β) : Outbox κ ε β → Prop
  | stayed : Move S l l
  /-- Something new under a new key. -/
  | issued (k : κ) (e : ε) (hkey : ∀ i ∈ l.issued, i.1 ≠ k)
      (hbytes : ∀ i ∈ l.issued, i.2 ≠ S.bytes e) (hnew : S.retries e = 0) :
      Move S l { l with box := l.box.set k e, issued := l.issued ++ [(k, S.bytes e)] }
  /-- An acknowledgement. -/
  | retired (acked : κ → Bool) :
      Move S l { l with
        box := l.box.filter (fun k _ => !acked k)
        retired := l.retired ++ l.box.keys.filter acked }
  /-- A poll that finds nothing lost hands out what is overdue. -/
  | returned (t : Timer κ S) (hlost : t.lost l.box = []) :
      Move S l { l with
        box := t.swept l.box
        handed := l.handed ++ [(t.overdue l.box).entries.map (fun e => S.bytes e.2)] }
  /-- A poll that finds something lost reports it and hands out nothing. -/
  | raised (t : Timer κ S) (hlost : t.lost l.box ≠ []) :
      Move S l { l with box := t.swept l.box, reported := l.reported ++ [t.lost l.box] }

/-- How often a key occurs among what is outstanding, retired and reported. -/
def tally (l : Outbox κ ε β) (k : κ) : Nat :=
  (if l.box.get? k = none then 0 else 1) + l.retired.count k +
    l.reported.countP (fun report => k ∈ report)

/-- Keys and bytes are never used twice, the box holds what was issued, and
    only that was handed out. -/
structure Sound (S : Schedule ε β) (l : Outbox κ ε β) : Prop where
  keys : (l.issued.map Prod.fst).Nodup
  bytes : (l.issued.map Prod.snd).Nodup
  box : ∀ k e, l.box.get? k = some e → (k, S.bytes e) ∈ l.issued ∧ S.retries e ≤ S.limit
  handed : ∀ sent ∈ l.handed, ∀ b ∈ sent, ∃ k, (k, b) ∈ l.issued

/-- Whatever was issued is outstanding, retired or reported, and once only. -/
structure Conserved (l : Outbox κ ε β) : Prop where
  once : ∀ i ∈ l.issued, l.tally i.1 = 1
  never : ∀ k, (∀ i ∈ l.issued, i.1 ≠ k) → l.tally k = 0

/-- The attempts counted are the lists that were handed out, and what was
    reported has had all its attempts. -/
structure Honest [DecidableEq β] (S : Schedule ε β) (l : Outbox κ ε β) : Prop where
  outstanding : ∀ k e, l.box.get? k = some e →
    S.retries e = l.handed.countP (fun sent => S.bytes e ∈ sent)
  reported : ∀ i ∈ l.issued, (∃ report ∈ l.reported, i.1 ∈ report) →
    l.handed.countP (fun sent => i.2 ∈ sent) = S.limit

variable {S : Schedule ε β} {l l' : Outbox κ ε β}

/-- Two entries that were issued with the same bytes are one. -/
theorem Sound.eq_of_bytes (h : l.Sound S) {i j : κ × β} (hi : i ∈ l.issued) (hj : j ∈ l.issued)
    (heq : i.2 = j.2) : i = j :=
  List.inj_on_of_nodup_map h.bytes hi hj heq

theorem move_sound (h : l.Sound S) (hmove : Move S l l') : l'.Sound S := by
  -- A poll leaves entries with the same bytes and, if they were overdue, one more attempt.
  have hswept : ∀ t : Timer κ S, ∀ k e, (t.swept l.box).get? k = some e →
      (k, S.bytes e) ∈ l.issued ∧ S.retries e ≤ S.limit := by
    intro t k e he
    rcases t.swept_entry l.box k e he with ⟨e', he', _, hbytes, hretries⟩
    have hold := h.box k e' he'
    rw [hbytes, hretries]
    refine ⟨hold.1, ?_⟩
    by_cases hover : t.isOverdue k e' = true
    · rw [if_pos hover]
      simp only [Timer.isOverdue, Bool.and_eq_true, decide_eq_true_eq] at hover
      exact hover.2
    · rw [if_neg hover]
      exact hold.2
  cases hmove with
  | stayed => exact h
  | issued k e hkey hbytes hnew =>
      refine ⟨?_, ?_, fun k' e' he' => ?_, fun sent hsent b hb => ?_⟩
      · rw [List.map_append, List.nodup_append]
        refine ⟨h.keys, List.nodup_singleton _, ?_⟩
        intro a ha b hb
        rcases List.mem_map.mp ha with ⟨i, hi, rfl⟩
        rw [List.mem_singleton.mp hb]
        exact hkey i hi
      · rw [List.map_append, List.nodup_append]
        refine ⟨h.bytes, List.nodup_singleton _, ?_⟩
        intro a ha b hb
        rcases List.mem_map.mp ha with ⟨i, hi, rfl⟩
        rw [List.mem_singleton.mp hb]
        exact hbytes i hi
      · rw [Dict.get?_set] at he'
        by_cases hk : k' = k
        · rw [if_pos hk, Option.some.injEq] at he'
          rw [hk, ← he', hnew]
          exact ⟨List.mem_append_right _ (List.mem_singleton_self _), Nat.zero_le _⟩
        · rw [if_neg hk] at he'
          have hold := h.box k' e' he'
          exact ⟨List.mem_append_left _ hold.1, hold.2⟩
      · rcases h.handed sent hsent b hb with ⟨k', hk'⟩
        exact ⟨k', List.mem_append_left _ hk'⟩
  | retired acked =>
      refine ⟨h.keys, h.bytes, fun k e he => ?_, h.handed⟩
      rw [Dict.get?_filter, Option.filter_eq_some_iff] at he
      exact h.box k e he.1
  | returned t hlost =>
      refine ⟨h.keys, h.bytes, hswept t, fun sent hsent b hb => ?_⟩
      rcases List.mem_append.mp hsent with hsent | hsent
      · exact h.handed sent hsent b hb
      · rw [List.mem_singleton.mp hsent, List.mem_map] at hb
        rcases hb with ⟨⟨k, e⟩, hmem, rfl⟩
        have hget := (Dict.get?_eq_some _ _ _).mpr hmem
        rw [Timer.overdue, Dict.get?_filter, Option.filter_eq_some_iff] at hget
        exact ⟨k, (h.box k e hget.1).1⟩
  | raised t hlost => exact ⟨h.keys, h.bytes, hswept t, h.handed⟩

/-- A key occurs at most once among those of a dictionary. -/
theorem count_keys_filter (box : Dict κ ε) (acked : κ → Bool) (k : κ) :
    (box.keys.filter acked).count k = if box.get? k ≠ none ∧ acked k = true then 1 else 0 := by
  have hmem : k ∈ box.keys.filter acked ↔ box.get? k ≠ none ∧ acked k = true := by
    rw [List.mem_filter, Dict.mem_keys, Option.ne_none_iff_exists']
  by_cases hk : box.get? k ≠ none ∧ acked k = true
  · rw [if_pos hk]
    exact List.count_eq_one_of_mem (box.nodup.filter _) (hmem.mpr hk)
  · rw [if_neg hk]
    exact List.count_eq_zero.mpr (fun h => hk (hmem.mp h))

/-- A report moves the lost keys from the box to the reports. -/
theorem tally_raised (l : Outbox κ ε β) (t : Timer κ S) (k : κ) :
    ({ l with box := t.swept l.box, reported := l.reported ++ [t.lost l.box] } :
      Outbox κ ε β).tally k = l.tally k := by
  simp only [tally, List.countP_append, List.countP_singleton, t.get?_swept, decide_eq_true_eq]
  by_cases hk : k ∈ t.lost l.box
  · rcases (t.mem_lost l.box k).mp hk with ⟨e, he, _⟩
    simp only [if_pos hk, he, reduceCtorEq, if_false, if_true]
    omega
  · simp only [if_neg hk, Option.map_eq_none_iff, Nat.add_zero]

theorem tally_returned (l : Outbox κ ε β) (t : Timer κ S) (hlost : t.lost l.box = [])
    (sent : List β) (k : κ) :
    ({ l with box := t.swept l.box, handed := l.handed ++ [sent] } : Outbox κ ε β).tally k
      = l.tally k := by
  simp only [tally, t.get?_swept, hlost, List.not_mem_nil, if_false, Option.map_eq_none_iff]

theorem tally_retired (l : Outbox κ ε β) (acked : κ → Bool) (k : κ) :
    ({ l with
        box := l.box.filter (fun k _ => !acked k)
        retired := l.retired ++ l.box.keys.filter acked } : Outbox κ ε β).tally k
      = l.tally k := by
  simp only [tally, List.count_append, count_keys_filter, Dict.get?_filter]
  cases hget : l.box.get? k with
  | none => simp only [Option.filter_none, if_true, ne_eq, not_true_eq_false, false_and, if_false,
      Nat.add_zero]
  | some e =>
      cases acked k with
      | true =>
          simp only [Option.filter_some, Bool.not_true, Bool.false_eq_true, if_false, if_true,
            ne_eq, reduceCtorEq, not_false_eq_true, true_and]
          omega
      | false =>
          simp only [Option.filter_some, Bool.not_false, if_true, reduceCtorEq, if_false,
            Bool.false_eq_true, and_false, Nat.add_zero]

/-- Every move keeps an outbox conserved. -/
theorem move_conserved (h : l.Conserved) (hmove : Move S l l') : l'.Conserved := by
  cases hmove with
  | stayed => exact h
  | issued k e hkey hbytes hnew =>
      -- The key was nowhere before, and is in the box now.
      have htally : ∀ k', ({ l with box := l.box.set k e, issued := l.issued ++ [(k, S.bytes e)] } :
          Outbox κ ε β).tally k' = if k' = k then 1 else l.tally k' := by
        intro k'
        by_cases hk : k' = k
        · have hzero := h.never k hkey
          simp only [tally] at hzero
          simp only [tally, hk, Dict.get?_set_self, reduceCtorEq, if_false, if_true]
          omega
        · simp only [tally, Dict.get?_set, if_neg hk]
      refine ⟨fun i hi => ?_, fun k' hk' => ?_⟩
      · rw [htally]
        rcases List.mem_append.mp hi with hi | hi
        · rw [if_neg (hkey i hi)]
          exact h.once i hi
        · rw [List.mem_singleton.mp hi, if_pos rfl]
      · have hne : k' ≠ k := fun heq =>
          hk' (k, S.bytes e) (List.mem_append_right _ (List.mem_singleton_self _)) heq.symm
        rw [htally, if_neg hne]
        exact h.never k' (fun i hi => hk' i (List.mem_append_left _ hi))
  | retired acked =>
      exact ⟨fun i hi => (tally_retired l acked i.1).trans (h.once i hi),
        fun k hk => (tally_retired l acked k).trans (h.never k hk)⟩
  | returned t hlost =>
      exact ⟨fun i hi => (tally_returned l t hlost _ i.1).trans (h.once i hi),
        fun k hk => (tally_returned l t hlost _ k).trans (h.never k hk)⟩
  | raised t hlost =>
      exact ⟨fun i hi => (tally_raised l t i.1).trans (h.once i hi),
        fun k hk => (tally_raised l t k).trans (h.never k hk)⟩

/-- What is reported is no longer in the box. -/
theorem Conserved.not_outstanding (h : l.Conserved) {i : κ × β} (hi : i ∈ l.issued)
    (hreport : ∃ report ∈ l.reported, i.1 ∈ report) : l.box.get? i.1 = none := by
  by_contra hsome
  have honce := h.once i hi
  have hpos : 0 < l.reported.countP (fun report => i.1 ∈ report) := by
    rw [List.countP_pos_iff]
    simpa only [decide_eq_true_eq] using hreport
  simp only [tally, if_neg hsome] at honce
  omega

/-- A key that was never issued is in no report. -/
theorem Conserved.not_reported (h : l.Conserved) {k : κ} (hk : ∀ i ∈ l.issued, i.1 ≠ k) :
    ¬ ∃ report ∈ l.reported, k ∈ report := by
  intro hreport
  have hzero := h.never k hk
  have hpos : 0 < l.reported.countP (fun report => k ∈ report) := by
    rw [List.countP_pos_iff]
    simpa only [decide_eq_true_eq] using hreport
  simp only [tally] at hzero
  omega

/-- The bytes of an entry are on the list of a poll exactly if the entry is
    overdue. -/
theorem mem_overdue_bytes (hs : l.Sound S) (t : Timer κ S) (i : κ × β) (hi : i ∈ l.issued) :
    i.2 ∈ (t.overdue l.box).entries.map (fun e => S.bytes e.2) ↔
      ∃ e, l.box.get? i.1 = some e ∧ t.isOverdue i.1 e = true := by
  rw [List.mem_map]
  constructor
  · rintro ⟨⟨k, e⟩, hmem, hbytes⟩
    have hget := (Dict.get?_eq_some _ _ _).mpr hmem
    rw [Timer.overdue, Dict.get?_filter, Option.filter_eq_some_iff] at hget
    -- Bytes are never used twice, so it is the same entry.
    have hsame := hs.eq_of_bytes (hs.box k e hget.1).1 hi hbytes
    rw [← hsame]
    exact ⟨e, hget⟩
  · rintro ⟨e, hget, hover⟩
    refine ⟨(i.1, e), (Dict.get?_eq_some _ _ _).mp ?_, ?_⟩
    · rw [Timer.overdue, Dict.get?_filter, Option.filter_eq_some_iff]
      exact ⟨hget, hover⟩
    · exact congrArg Prod.snd (List.inj_on_of_nodup_map hs.keys (hs.box i.1 e hget).1 hi rfl)

variable [DecidableEq β]

/-- What was never handed out has had no attempts. -/
theorem Honest.retries_eq_zero (h : l.Honest S) {k : κ} {e : ε} (he : l.box.get? k = some e)
    (hnever : ∀ sent ∈ l.handed, S.bytes e ∉ sent) : S.retries e = 0 := by
  rw [h.outstanding k e he, List.countP_eq_zero]
  intro sent hsent
  rw [decide_eq_true_eq]
  exact hnever sent hsent

/-- Something new has had no attempts, and its bytes were never handed out. -/
theorem issued_honest (hs : l.Sound S) (hc : l.Conserved) (h : l.Honest S) (k : κ) (e : ε)
    (hkey : ∀ i ∈ l.issued, i.1 ≠ k) (hbytes : ∀ i ∈ l.issued, i.2 ≠ S.bytes e)
    (hnew : S.retries e = 0) :
    ({ l with box := l.box.set k e, issued := l.issued ++ [(k, S.bytes e)] } :
      Outbox κ ε β).Honest S := by
  refine ⟨fun k' e' he' => ?_, fun i hi hreport => ?_⟩
  · rw [Dict.get?_set] at he'
    by_cases hk : k' = k
    · rw [if_pos hk, Option.some.injEq] at he'
      rw [← he', hnew]
      refine (List.countP_eq_zero.mpr (fun sent hsent => ?_)).symm
      rw [decide_eq_true_eq]
      intro hmem
      rcases hs.handed sent hsent _ hmem with ⟨k'', hk''⟩
      exact hbytes _ hk'' rfl
    · rw [if_neg hk] at he'
      exact h.outstanding k' e' he'
  · rcases List.mem_append.mp hi with hi | hi
    · exact h.reported i hi hreport
    · rw [List.mem_singleton.mp hi] at hreport
      exact absurd hreport (hc.not_reported hkey)

theorem retired_honest (h : l.Honest S) (acked : κ → Bool) :
    ({ l with
        box := l.box.filter (fun k _ => !acked k)
        retired := l.retired ++ l.box.keys.filter acked } : Outbox κ ε β).Honest S := by
  refine ⟨fun k e he => ?_, h.reported⟩
  rw [Dict.get?_filter, Option.filter_eq_some_iff] at he
  exact h.outstanding k e he.1

/-- A poll that returns its list counts for what is on the list. -/
theorem returned_honest (hs : l.Sound S) (hc : l.Conserved) (h : l.Honest S) (t : Timer κ S) :
    ({ l with
        box := t.swept l.box
        handed := l.handed ++ [(t.overdue l.box).entries.map (fun e => S.bytes e.2)] } :
      Outbox κ ε β).Honest S := by
  refine ⟨fun k e he => ?_, fun i hi hreport => ?_⟩
  · rcases t.swept_entry l.box k e he with ⟨e', he', _, hbytes, hretries⟩
    have hmem := mem_overdue_bytes hs t (k, S.bytes e') (hs.box k e' he').1
    simp only [he', Option.some.injEq, exists_eq_left'] at hmem
    simp only [List.countP_append, List.countP_singleton, decide_eq_true_eq, hbytes, hretries,
      h.outstanding k e' he', hmem]
  · have hnone := hc.not_outstanding hi hreport
    have hmem := mem_overdue_bytes hs t i hi
    simp only [hnone, reduceCtorEq, false_and, exists_false, iff_false] at hmem
    simp only [List.countP_append, List.countP_singleton, hmem, decide_false, Bool.false_eq_true,
      if_false, Nat.add_zero]
    exact h.reported i hi hreport

/-- A poll that reports a loss keeps the count honest exactly when nothing was
    overdue at the same time. -/
theorem raised_honest_iff (hs : l.Sound S) (h : l.Honest S) (t : Timer κ S) :
    ({ l with box := t.swept l.box, reported := l.reported ++ [t.lost l.box] } :
      Outbox κ ε β).Honest S ↔ (t.overdue l.box).keys = [] := by
  constructor
  · -- An overdue entry is counted and stays, while nothing is handed out.
    intro h'
    by_contra hne
    rcases List.exists_mem_of_ne_nil _ hne with ⟨k, hk⟩
    rcases (Dict.mem_keys _ _).mp hk with ⟨e, he⟩
    rw [Timer.overdue, Dict.get?_filter, Option.filter_eq_some_iff] at he
    have hkept : (t.swept l.box).get? k = some (t.again k e) := by
      have hnot : k ∉ t.lost l.box := t.not_mem_lost l.box k e he.1 he.2
      rw [t.get?_swept, if_neg hnot, he.1, Option.map_some, if_pos he.2]
    have hcount := h'.outstanding k (t.again k e) hkept
    rw [t.again_bytes, t.again_retries, h.outstanding k e he.1] at hcount
    exact Nat.succ_ne_self _ hcount
  · intro hnone
    have hover : ∀ k e, l.box.get? k = some e → ¬ t.isOverdue k e = true := by
      intro k e he hover
      have hmem : k ∈ (t.overdue l.box).keys := by
        rw [Dict.mem_keys, Timer.overdue]
        exact ⟨e, by rw [Dict.get?_filter, Option.filter_eq_some_iff]; exact ⟨he, hover⟩⟩
      rw [hnone] at hmem
      exact absurd hmem List.not_mem_nil
    refine ⟨fun k e he => ?_, fun i hi hreport => ?_⟩
    · rcases t.swept_entry l.box k e he with ⟨e', he', _, hbytes, hretries⟩
      rw [hbytes, hretries, if_neg (hover k e' he')]
      exact h.outstanding k e' he'
    · rcases hreport with ⟨report, hreport, hmem⟩
      rcases List.mem_append.mp hreport with hold | hnew
      · exact h.reported i hi ⟨report, hold, hmem⟩
      · -- What is lost has had at least all its attempts, and never more.
        rw [List.mem_singleton.mp hnew] at hmem
        rcases (t.mem_lost l.box i.1).mp hmem with ⟨e, he, hlost⟩
        simp only [Timer.isLost, Bool.and_eq_true, decide_eq_true_eq] at hlost
        have hbox := hs.box i.1 e he
        have hsame := List.inj_on_of_nodup_map hs.keys hbox.1 hi rfl
        rw [← congrArg Prod.snd hsame, ← h.outstanding i.1 e he]
        exact Nat.le_antisymm hbox.2 hlost.2

/-- A move that reports nothing keeps the count honest. -/
theorem move_honest (hs : l.Sound S) (hc : l.Conserved) (h : l.Honest S) (hmove : Move S l l')
    (hquiet : l'.reported = l.reported) : l'.Honest S := by
  cases hmove with
  | stayed => exact h
  | issued k e hkey hbytes hnew => exact issued_honest hs hc h k e hkey hbytes hnew
  | retired acked => exact retired_honest h acked
  | returned t hlost => exact returned_honest hs hc h t
  | raised t hlost =>
      have hlength := congrArg List.length hquiet
      simp only [List.length_append, List.length_singleton] at hlength
      omega

end Outbox

end Ztlnp
