import EpochClaims.Proofs.Manager.Conflict
import Mathlib.Data.List.Perm.Subperm

/-!
# A chain of disputes

A validator that does not endorse the current claim can win disputes with another
claim against those who do, one after the other. Each dispute vacates the slot of
its loser, `State.evictAll` is what a row of them leaves, and it does not depend
on their order. `Challenge.contest` is a dispute that leaves somebody who
endorses the current claim, and `Challenge.adopt` the one that leaves nobody, so
the claim is replaced by the last dispute of the chain and by none before it.
-/

namespace EpochClaims

theorem Mask.subperm_toList {n : Nat} {m : Mask n} {slots : List (Fin n)}
    (hnodup : slots.Nodup) (hmem : ∀ i ∈ slots, i ∈ m) : slots.Subperm m.toList :=
  List.subperm_of_subset hnodup fun i hi => mem_toList.2 (hmem i hi)

/-- Members of a mask that are as many as all of them are all of them. -/
theorem Mask.length_eq_size_iff {n : Nat} {m : Mask n} {slots : List (Fin n)}
    (hnodup : slots.Nodup) (hmem : ∀ i ∈ slots, i ∈ m) :
    slots.length = m.size ↔ ∀ i ∈ m, i ∈ slots := by
  have hsubperm := subperm_toList hnodup hmem
  constructor
  · intro hlength i hi
    have hperm := hsubperm.perm_of_length_le (Nat.le_of_eq hlength.symm)
    exact hperm.mem_iff.2 (mem_toList.2 hi)
  · intro hall
    have htoList : m.toList.Nodup := (List.nodup_finRange n).filter _
    have hback : m.toList.Subperm slots :=
      List.subperm_of_subset htoList fun i hi => hall i (mem_toList.1 hi)
    exact Nat.le_antisymm hsubperm.length_le hback.length_le

namespace State

variable {n : Nat} {s : State n} {gone gone' : List (Fin n)} {i w : Fin n} {a : Address}

/-- Takes the validators in a row of slots out of the epoch. -/
def evictAll (s : State n) (gone : List (Fin n)) : State n :=
  gone.foldl evict s

@[simp] theorem evictAll_nil (s : State n) : s.evictAll [] = s := rfl

theorem evictAll_concat (s : State n) (gone : List (Fin n)) (i : Fin n) :
    s.evictAll (gone ++ [i]) = (s.evictAll gone).evict i := by
  rw [evictAll, List.foldl_append]
  rfl

@[simp] theorem claim_evictAll (s : State n) (gone : List (Fin n)) :
    (s.evictAll gone).claim = s.claim := by
  induction gone using List.reverseRecOn with
  | nil => rfl
  | append_singleton gone j ih => rw [evictAll_concat, evict, ih]

theorem mem_agreement_evictAll :
    i ∈ (s.evictAll gone).agreement ↔ i ∈ s.agreement ∧ i ∉ gone := by
  induction gone using List.reverseRecOn with
  | nil => simp
  | append_singleton gone j ih =>
      rw [evictAll_concat, evict, Mask.mem_erase, ih, List.mem_append, List.mem_singleton, not_or]
      exact and_comm.trans and_assoc

theorem mem_goal_evictAll : i ∈ (s.evictAll gone).goal ↔ i ∈ s.goal ∧ i ∉ gone := by
  induction gone using List.reverseRecOn with
  | nil => simp
  | append_singleton gone j ih =>
      rw [evictAll_concat, evict, Mask.mem_erase, ih, List.mem_append, List.mem_singleton, not_or]
      exact and_comm.trans and_assoc

theorem slot_evictAll :
    (s.evictAll gone).roster.slot i = some a ↔ s.roster.slot i = some a ∧ i ∉ gone := by
  induction gone using List.reverseRecOn with
  | nil => simp
  | append_singleton gone j ih =>
      rw [evictAll_concat, evict, Roster.slot_remove, List.mem_append, List.mem_singleton, not_or,
        ← and_assoc, ← ih]
      by_cases hij : j = i
      · simp [hij]
      · simp [hij, Ne.symm hij]

/-- Who is taken out matters, and not in which order. -/
theorem evictAll_congr (h : ∀ i, i ∈ gone ↔ i ∈ gone') : s.evictAll gone = s.evictAll gone' := by
  refine ext ?_ ?_ ?_ ?_
  · refine Roster.ext fun i => Option.ext fun a => ?_
    rw [slot_evictAll, slot_evictAll, h]
  · apply Mask.ext
    intro i
    rw [mem_goal_evictAll, mem_goal_evictAll, h]
  · apply Mask.ext
    intro i
    rw [mem_agreement_evictAll, mem_agreement_evictAll, h]
  · rw [claim_evictAll, claim_evictAll]

/-- Evictions keep the invariant as long as somebody stays. -/
theorem Sound.evictAll (h : s.Sound) (hw : w ∈ s.goal) (hstays : w ∉ gone) :
    (s.evictAll gone).Sound := by
  induction gone using List.reverseRecOn with
  | nil => exact h
  | append_singleton gone j ih =>
      rw [List.mem_append, List.mem_singleton, not_or] at hstays
      rw [evictAll_concat]
      exact (ih hstays.1).evict (mem_goal_evictAll.2 ⟨hw, hstays.1⟩) (Ne.symm hstays.2)

end State

/-- The endorser that a conflict names. -/
def Verdict.endorser? : Verdict → Option Address
  | conflict _ _ endorser _ => some endorser
  | consensus _ _ => none
  | noConflict => none

theorem State.endorser?_settled {n : Nat} (s : State n) (claim : Claim) (a : Address) :
    (s.settled claim a).endorser? = none := by
  rw [settled, settle]
  split
  · rfl
  · rfl

namespace Manager

/-- A dispute by which the orchestrator lets the validator in slot `w` win with
the claim `y` against the one in slot `i`. -/
inductive Presses (m : Manager) (w : Fin m.capacity) (y : Claim) :
    Call → Fin m.capacity → Prop where
  | dispute {d : Dispute} {i : Fin m.capacity} {a b : Address}
      (hauth : m.IsOrchestrator d.account) (hclaim : Claim.ofArgument d.winningClaim = .ok y)
      (hslot : m.state.roster.slot w = some a) (hwinner : a.IsSpelledBy d.winner)
      (hslot' : m.state.roster.slot i = some b) (hloser : b.IsSpelledBy d.loser)
      (hmarked : Hex.IsMarked d.loser) :
      Presses m w y (.dispute d) i

/-- A claim `y` of the validator `a` in slot `w`, who does not endorse the
current claim `x`. -/
structure Challenge (m : Manager) (w : Fin m.capacity) (a : Address) (x y : Claim) : Prop where
  sound : m.state.Sound
  claim_eq : m.state.claim = some x
  ne : y ≠ x
  slot_eq : m.state.roster.slot w = some a
  notMem : w ∉ m.state.agreement

/-- The endorsers of the current claim in some order, and for each of them a
dispute that `w` wins against it. -/
structure Chain (m : Manager) (w : Fin m.capacity) (y : Claim) (press : Fin m.capacity → Call)
    (order : List (Fin m.capacity)) : Prop where
  nodup : order.Nodup
  mem_iff : ∀ i, i ∈ order ↔ i ∈ m.state.agreement
  presses : ∀ i ∈ order, m.Presses w y (press i) i

/-- Disputes that `w` wins with `y`, first against the endorser of the current
claim and then, each time, against the endorser that the last conflict names;
and the endorser that is named behind them. -/
inductive Pursuit (m : Manager) (w : Fin m.capacity) (y : Claim) :
    List Call → Option Address → Prop where
  | start {e : Address} (h : m.state.endorser = .ok e) : Pursuit m w y [] (some e)
  | press {row : List Call} {c : Call} {e : Address} {i : Fin m.capacity} {m' : Manager}
      {v : Verdict} (h : Pursuit m w y row (some e)) (hslot : m.state.roster.slot i = some e)
      (hc : m.Presses w y c i) (hperform : (m.run row).perform c = .ok (m', .judged v)) :
      Pursuit m w y (row ++ [c]) v.endorser?

variable {m : Manager} {w i : Fin m.capacity} {x y : Claim} {a : Address} {c : Call}
  {gone order order' : List (Fin m.capacity)} {press press' : Fin m.capacity → Call}

/-- A conflict names the endorser of the manager that it leaves. -/
theorem endorser_of_conflict {before : Manager} {r : Reply} {v : Verdict} {e : Address}
    (hperform : before.perform c = .ok (m, r)) (hverdict : r.verdict? = some v)
    (he : v.endorser? = some e) : m.state.endorser = .ok e := by
  obtain ⟨s, rfl, hcommit⟩ := perform_eq_ok_iff.1 hperform
  cases v with
  | conflict current rival e' o =>
      obtain rfl := Option.some.inj he
      exact (hcommit.conflicting hverdict).1.endorser_eq
  | consensus _ _ => contradiction
  | noConflict => contradiction

namespace Challenge

theorem mem_goal (h : m.Challenge w a x y) : w ∈ m.state.goal :=
  h.sound.mem_goal_iff.2 ⟨a, h.slot_eq⟩

theorem claim_ne (h : m.Challenge w a x y) (gone : List (Fin m.capacity)) :
    (m.state.evictAll gone).claim ≠ some y := by
  rw [State.claim_evictAll, h.claim_eq]
  exact fun heq => h.ne (Option.some.inj heq).symm

/-- As long as winner and loser are there, the dispute between them passes all
checks. -/
theorem exists_judge (h : m.Challenge w a x y) (hc : m.Presses w y c i)
    (hw : w ∉ gone ++ [i]) (hi : i ∉ gone) :
    ∃ d, c = .dispute d ∧
      (m.withState (m.state.evictAll gone)).judge d = .ok ⟨y, w, a, some i⟩ := by
  rw [List.mem_append, List.mem_singleton, not_or] at hw
  cases hc with
  | @dispute d _ a' b hauth hclaim hslot hwinner hslot' hloser hmarked =>
      obtain rfl := Option.some.inj (hslot.symm.trans h.slot_eq)
      have hdistinct := (h.sound.evictAll h.mem_goal hw.1).distinct
      have hslots := State.slot_evictAll.2 ⟨hslot, hw.1⟩
      have hslots' := State.slot_evictAll.2 ⟨hslot', hi⟩
      have hwins := (Roster.indexOf_eq_some_iff hdistinct).2 ⟨a', hslots, hwinner.symm⟩
      have hloses := (Roster.indexOf_eq_some_iff hdistinct).2 ⟨b, hslots', hloser.symm⟩
      refine ⟨d, rfl, judge_eq_ok_iff.2 ⟨hauth, hclaim, hwins, hslots, ?_, ?_⟩⟩
      · rw [(Address.ofText?_eq_some_iff_of_isMarked hmarked).2 hloser]
        intro hba
        obtain rfl := Option.some.inj hba
        exact hw.2 (h.sound.distinct w i b hslot hslot')
      · exact loserSlot_eq_ok_iff.2 ⟨hloses, nofun⟩

/-- A dispute that leaves somebody who endorses the current claim is a conflict
with the one of them in the lowest slot. -/
theorem contest (h : m.Challenge w a x y) (hc : m.Presses w y c i)
    (hw : w ∉ gone ++ [i]) (hi : i ∉ gone) (hleft : ∃ k ∈ m.state.agreement, k ∉ gone ++ [i]) :
    ∃ e, (m.state.evictAll (gone ++ [i])).endorser = .ok e ∧
      (m.withState (m.state.evictAll gone)).perform c =
        .ok (m.withState (m.state.evictAll (gone ++ [i])), .judged (.conflict (some x) y e a)) := by
  obtain ⟨d, rfl, hjudge⟩ := h.exists_judge hc hw hi
  obtain ⟨k, hk, hkgone⟩ := hleft
  have hsome : (m.state.evictAll (gone ++ [i])).agreement ≠ Mask.empty :=
    Mask.ne_empty_iff.2 ⟨k, State.mem_agreement_evictAll.2 ⟨hk, hkgone⟩⟩
  obtain ⟨e, he⟩ := (h.sound.evictAll h.mem_goal hw).exists_endorser hsome
  refine ⟨e, he, perform_eq_ok_iff.2 ⟨_, rfl, ?_⟩⟩
  rw [State.evictAll_concat] at hsome he ⊢
  rw [← h.claim_eq, ← State.claim_evictAll m.state gone]
  exact Committed.contested hjudge (h.claim_ne gone) hsome he

/-- A dispute that leaves nobody who endorses the current claim replaces it. -/
theorem adopt (h : m.Challenge w a x y) (hc : m.Presses w y c i)
    (hw : w ∉ gone ++ [i]) (hi : i ∉ gone) (hall : ∀ k ∈ m.state.agreement, k ∈ gone ++ [i]) :
    (m.withState (m.state.evictAll gone)).perform c =
      .ok (m.withState ((m.state.evictAll (gone ++ [i])).endorse y w),
        .judged (((m.state.evictAll (gone ++ [i])).endorse y w).settled y a)) := by
  obtain ⟨d, rfl, hjudge⟩ := h.exists_judge hc hw hi
  have hempty : (m.state.evictAll (gone ++ [i])).agreement = Mask.empty := by
    rw [Mask.eq_empty_iff]
    intro k hk
    obtain ⟨hmem, hnot⟩ := State.mem_agreement_evictAll.1 hk
    exact hnot (hall k hmem)
  refine perform_eq_ok_iff.2 ⟨_, rfl, ?_⟩
  rw [State.evictAll_concat] at hempty ⊢
  exact Committed.adopted hjudge (h.claim_ne gone) hempty

/-- Whoever has evicted only endorsers of the current claim is still there. -/
theorem notMem_of_subset (h : m.Challenge w a x y) (hmem : ∀ k ∈ gone, k ∈ m.state.agreement) :
    w ∉ gone :=
  fun hw => h.notMem (hmem w hw)

end Challenge

namespace Chain

variable {left : List (Fin m.capacity)}

/-- Behind the beginning of a chain come all endorsers that are not in it. -/
theorem mem_left_iff (h : m.Chain w y press (gone ++ left)) {k : Fin m.capacity} :
    k ∈ left ↔ k ∈ m.state.agreement ∧ k ∉ gone := by
  rw [← h.mem_iff, List.mem_append]
  constructor
  · intro hk
    exact ⟨.inr hk, fun hgone => (List.nodup_append'.1 h.nodup).2.2 hgone hk⟩
  · rintro ⟨hk, hnot⟩
    exact hk.resolve_left hnot

/-- Each dispute of a chain is one against an endorser that is still there. -/
theorem presses_next (h : m.Chain w y press (gone ++ i :: left)) :
    m.Presses w y (press i) i ∧ i ∉ gone ∧ ∀ k ∈ gone ++ [i], k ∈ m.state.agreement := by
  refine ⟨h.presses i (List.mem_append_right gone List.mem_cons_self),
    (h.mem_left_iff.1 List.mem_cons_self).2, fun k hk => (h.mem_iff k).1 ?_⟩
  rw [List.append_cons]
  exact List.mem_append_left left hk

/-- Behind a chain its winner alone endorses the current claim. -/
theorem mem_agreement_adopted (h : m.Chain w y press order) {k : Fin m.capacity} :
    k ∈ ((m.state.evictAll order).endorse y w).agreement ↔ k = w := by
  rw [State.endorse, Mask.mem_insert, State.mem_agreement_evictAll, h.mem_iff]
  exact or_iff_left fun hk => hk.2 hk.1

end Chain

namespace Challenge

variable {left : List (Fin m.capacity)}

/-- In front of the last dispute of a chain only evictions have happened. -/
theorem run_eq (h : m.Challenge w a x y) (hchain : m.Chain w y press (gone ++ left))
    (hleft : left ≠ []) : m.run (gone.map press) = m.withState (m.state.evictAll gone) := by
  -- The last dispute of the beginning is the first one behind a shorter beginning.
  induction gone using List.reverseRecOn generalizing left with
  | nil => rfl
  | append_singleton gone i ih =>
      obtain ⟨k, hk⟩ := List.exists_mem_of_ne_nil left hleft
      have hbefore : m.Chain w y press (gone ++ i :: left) := by
        rwa [List.append_assoc] at hchain
      obtain ⟨hc, hi, hgone⟩ := hbefore.presses_next
      obtain ⟨e, -, hperform⟩ := h.contest hc (h.notMem_of_subset hgone) hi
        ⟨k, hchain.mem_left_iff.1 hk⟩
      rw [List.map_append, List.map_singleton, run_concat, ih hbefore (List.cons_ne_nil _ _),
        after, hperform]

/-- Every dispute of a chain but the last is a conflict with the lowest endorser
that is left. -/
theorem conflict_of_chain (h : m.Challenge w a x y)
    (hchain : m.Chain w y press (gone ++ i :: left)) (hleft : left ≠ []) :
    ∃ s l e, (m.run (gone.map press)).perform (press i) =
        .ok (m.withState s, .judged (.conflict (some x) y e a)) ∧
      s.claim = some x ∧ (∀ k, k ∈ s.agreement ↔ k ∈ left) ∧
      l ∈ left ∧ (∀ k ∈ left, l ≤ k) ∧ m.state.roster.slot l = some e := by
  obtain ⟨hc, hi, hgone⟩ := hchain.presses_next
  have hfront : m.Chain w y press ((gone ++ [i]) ++ left) := by
    rwa [← List.append_cons]
  have hmem : ∀ k, k ∈ (m.state.evictAll (gone ++ [i])).agreement ↔ k ∈ left :=
    fun k => State.mem_agreement_evictAll.trans hfront.mem_left_iff.symm
  obtain ⟨k, hk⟩ := List.exists_mem_of_ne_nil left hleft
  obtain ⟨e, he, hperform⟩ := h.contest hc (h.notMem_of_subset hgone) hi
    ⟨k, hfront.mem_left_iff.1 hk⟩
  obtain ⟨l, hl, hslot⟩ := State.endorser_eq_ok_iff.1 he
  refine ⟨m.state.evictAll (gone ++ [i]), l, e, ?_, ?_, hmem, ?_, ?_, ?_⟩
  · rw [h.run_eq hchain (List.cons_ne_nil _ _), hperform]
  · rw [State.claim_evictAll, h.claim_eq]
  · exact (hmem l).1 (Mask.mem_of_least? hl)
  · exact fun k hk => Mask.le_of_least? hl ((hmem k).2 hk)
  · exact (State.slot_evictAll.1 hslot).1

theorem sound_adopted (h : m.Challenge w a x y) (hchain : m.Chain w y press order) :
    ((m.state.evictAll order).endorse y w).Sound := by
  have hw : w ∉ order := h.notMem_of_subset fun k => (hchain.mem_iff k).1
  exact (h.sound.evictAll h.mem_goal hw).endorse (State.mem_goal_evictAll.2 ⟨h.mem_goal, hw⟩) y

/-- Whoever wins a chain is alone in the agreement, so that there is consensus if
and only if no other validator is left. -/
theorem settled_adopted (h : m.Challenge w a x y) (hchain : m.Chain w y press order) :
    let s := (m.state.evictAll order).endorse y w
    ((∀ k b, s.roster.slot k = some b → k = w) → s.settled y a = .consensus y a) ∧
      ((∃ k b, s.roster.slot k = some b ∧ k ≠ w) → s.settled y a = .noConflict) := by
  intro s
  have hsound : s.Sound := h.sound_adopted hchain
  constructor
  · intro honly
    refine settle_eq_consensus_iff.2 ⟨Mask.ext fun k => ?_, rfl, rfl⟩
    refine ⟨fun hk => hsound.agreement_le k hk, fun hk => ?_⟩
    obtain ⟨b, hb⟩ := hsound.mem_goal_iff.1 hk
    exact hchain.mem_agreement_adopted.2 (honly k b hb)
  · rintro ⟨k, b, hb, hk⟩
    refine if_neg fun heq => hk ?_
    have hgoal : k ∈ s.goal := hsound.mem_goal_iff.2 ⟨b, hb⟩
    rw [← heq] at hgoal
    exact hchain.mem_agreement_adopted.1 hgoal

/-- The last dispute of a chain replaces the current claim. -/
theorem adopt_of_chain (h : m.Challenge w a x y) (hchain : m.Chain w y press (gone ++ [i])) :
    (m.run (gone.map press)).perform (press i) =
      .ok (m.withState ((m.state.evictAll (gone ++ [i])).endorse y w),
        .judged (((m.state.evictAll (gone ++ [i])).endorse y w).settled y a)) := by
  obtain ⟨hc, hi, hgone⟩ := hchain.presses_next
  rw [h.run_eq hchain (List.cons_ne_nil _ _),
    h.adopt hc (h.notMem_of_subset hgone) hi fun k => (hchain.mem_iff k).2]

/-- A chain leaves the same behind in any order. -/
theorem run_chain (h : m.Challenge w a x y) (hchain : m.Chain w y press order)
    (hsome : order ≠ []) :
    m.run (order.map press) = m.withState ((m.state.evictAll order).endorse y w) := by
  obtain ⟨gone, i, rfl⟩ := (List.eq_nil_or_concat' order).resolve_left hsome
  rw [List.map_append, List.map_singleton, run_concat, after, h.adopt_of_chain hchain]

/-- The dispute against the endorser of the current claim evicts one more of those
who endorsed it. -/
theorem pursue (h : m.Challenge w a x y) {row : List Call} {e : Address}
    (hgone : ∀ k ∈ gone, k ∈ m.state.agreement)
    (hrun : m.run row = m.withState (m.state.evictAll gone))
    (he : (m.state.evictAll gone).endorser = .ok e) (hslot : m.state.roster.slot i = some e)
    (hc : m.Presses w y c i) :
    i ∉ gone ∧ (∀ k ∈ gone ++ [i], k ∈ m.state.agreement) ∧
      ((∃ e', (m.state.evictAll (gone ++ [i])).endorser = .ok e' ∧
          (m.run row).perform c = .ok (m.withState (m.state.evictAll (gone ++ [i])),
            .judged (.conflict (some x) y e' a))) ∨
        (∀ k ∈ m.state.agreement, k ∈ gone ++ [i]) ∧ ∃ m' v,
          (m.run row).perform c = .ok (m', .judged v) ∧ v.endorser? = none) := by
  obtain ⟨l, hl, hl'⟩ := State.endorser_eq_ok_iff.1 he
  obtain rfl := h.sound.distinct i l e hslot (State.slot_evictAll.1 hl').1
  obtain ⟨hi, hnot⟩ := State.mem_agreement_evictAll.1 (Mask.mem_of_least? hl)
  have hnext : ∀ k ∈ gone ++ [i], k ∈ m.state.agreement := by
    intro k hk
    rcases List.mem_append.1 hk with hk | hk
    · exact hgone k hk
    · rwa [List.mem_singleton.1 hk]
  have hw := h.notMem_of_subset hnext
  refine ⟨hnot, hnext, ?_⟩
  rw [hrun]
  by_cases hall : ∀ k ∈ m.state.agreement, k ∈ gone ++ [i]
  · exact .inr ⟨hall, _, _, h.adopt hc hw hnot hall, State.endorser?_settled _ _ _⟩
  · simp only [not_forall, exists_prop] at hall
    exact .inl (h.contest hc hw hnot hall)

/-- A pursuit has evicted one endorser in each dispute; the next one is named if
there is one, and otherwise all are gone. -/
theorem exists_gone (h : m.Challenge w a x y) {row : List Call} {next : Option Address}
    (hrow : m.Pursuit w y row next) :
    ∃ gone : List (Fin m.capacity), gone.Nodup ∧ (∀ k ∈ gone, k ∈ m.state.agreement) ∧
      row.length = gone.length ∧
      ((∃ e, next = some e ∧ m.run row = m.withState (m.state.evictAll gone) ∧
          (m.state.evictAll gone).endorser = .ok e) ∨
        next = none ∧ ∀ k ∈ m.state.agreement, k ∈ gone) := by
  induction hrow with
  | @start e he => exact ⟨[], List.nodup_nil, nofun, rfl, .inl ⟨e, rfl, rfl, he⟩⟩
  | @press row c e i m' v _ hslot hc hperform ih =>
      obtain ⟨gone, hnodup, hgone, hlength, ⟨e', hee', hrun, he⟩ | ⟨hnone, -⟩⟩ := ih
      · obtain rfl := Option.some.inj hee'
        obtain ⟨hnot, hnext, hcase⟩ := h.pursue hgone hrun he hslot hc
        refine ⟨gone ++ [i], ?_, hnext, ?_, ?_⟩
        · exact List.nodup_append'.2 ⟨hnodup, List.nodup_singleton i, by simpa using hnot⟩
        · rw [List.length_append, List.length_append, hlength, List.length_singleton,
            List.length_singleton]
        · rcases hcase with ⟨e', he', hconflict⟩ | ⟨hall, m'', v', hlast, hnone⟩
          · rw [hperform] at hconflict
            cases hconflict
            refine .inl ⟨e', rfl, ?_, he'⟩
            rw [run_concat, after, hperform]
          · rw [hperform] at hlast
            cases hlast
            exact .inr ⟨hnone, hall⟩
      · contradiction

/-- A pursuit ends when it is as long as there were endorsers. -/
theorem length_of_pursuit (h : m.Challenge w a x y) {row : List Call} {next : Option Address}
    (hrow : m.Pursuit w y row next) :
    row.length ≤ m.state.agreement.size ∧
      (next = none ↔ row.length = m.state.agreement.size) := by
  obtain ⟨gone, hnodup, hgone, hlength, hcase⟩ := h.exists_gone hrow
  rw [hlength, Mask.length_eq_size_iff hnodup hgone]
  refine ⟨(Mask.subperm_toList hnodup hgone).length_le, ?_⟩
  rcases hcase with ⟨e, rfl, -, he⟩ | ⟨rfl, hnone⟩
  · obtain ⟨l, hl, -⟩ := State.endorser_eq_ok_iff.1 he
    obtain ⟨hmem, hnot⟩ := State.mem_agreement_evictAll.1 (Mask.mem_of_least? hl)
    exact iff_of_false (Option.some_ne_none e) fun hall => hnot (hall l hmem)
  · exact iff_of_true rfl hnone

/-- A pursuit that has an endorser to name goes on. -/
theorem exists_pursuit (h : m.Challenge w a x y) {row : List Call} {e : Address}
    (hrow : m.Pursuit w y row (some e)) (hslot : m.state.roster.slot i = some e)
    (hc : m.Presses w y c i) : ∃ next, m.Pursuit w y (row ++ [c]) next := by
  obtain ⟨gone, -, hgone, -, ⟨e', he', hrun, he⟩ | ⟨hnone, -⟩⟩ := h.exists_gone hrow
  · obtain rfl := Option.some.inj he'
    obtain ⟨-, -, ⟨_, -, hperform⟩ | ⟨-, _, _, hperform, -⟩⟩ := h.pursue hgone hrun he hslot hc
    · exact ⟨_, .press hrow hslot hc hperform⟩
    · exact ⟨_, .press hrow hslot hc hperform⟩
  · contradiction

end Challenge

/-- A validator that wins disputes with another claim against the endorsers of
the current claim, in any order, evicts them all. Every dispute but the last is a
conflict about both claims between the lowest endorser that is left and the
winner, and keeps the current claim. The last one replaces it, with the winner
alone in the agreement and the endorsers out of roster and goal; this is
consensus if nobody else is left. The order of the disputes does not matter. A
dispute against the endorser that the last conflict names is possible as long as
one is named, and none is after exactly as many disputes as there were
endorsers. -/
theorem chain_evicts_endorsers {setup : Setup} (hm : ofSetup setup = .ok m)
    {calls : List Call} (hcalls : ∀ c ∈ calls, c.IsMarked)
    (hclaim : (m.run calls).state.claim = some x)
    (hsome : ∃ i, i ∈ (m.run calls).state.agreement) {w : Fin (m.run calls).capacity}
    (hslot : (m.run calls).state.roster.slot w = some a)
    (hnot : w ∉ (m.run calls).state.agreement) (hne : y ≠ x) :
    (∀ press order, (m.run calls).Chain w y press order →
      (∀ gone i left, order = gone ++ i :: left → left ≠ [] →
        ∃ s l e, ((m.run calls).run (gone.map press)).perform (press i) =
            .ok ((m.run calls).withState s, .judged (.conflict (some x) y e a)) ∧
          s.claim = some x ∧ (∀ k, k ∈ s.agreement ↔ k ∈ left) ∧
          l ∈ left ∧ (∀ k ∈ left, l ≤ k) ∧ (m.run calls).state.roster.slot l = some e) ∧
      (∀ gone i, order = gone ++ [i] →
        ∃ s v, ((m.run calls).run (gone.map press)).perform (press i) =
            .ok ((m.run calls).withState s, .judged v) ∧
          (m.run calls).run (order.map press) = (m.run calls).withState s ∧
          s.claim = some y ∧ (∀ k, k ∈ s.agreement ↔ k = w) ∧
          (∀ k, k ∈ s.goal ↔
            k ∈ (m.run calls).state.goal ∧ k ∉ (m.run calls).state.agreement) ∧
          (∀ k b, s.roster.slot k = some b ↔
            (m.run calls).state.roster.slot k = some b ∧ k ∉ (m.run calls).state.agreement) ∧
          ((∀ k b, s.roster.slot k = some b → k = w) → v = .consensus y a) ∧
          ((∃ k b, s.roster.slot k = some b ∧ k ≠ w) → v = .noConflict)) ∧
      ∀ press' order', (m.run calls).Chain w y press' order' →
        (m.run calls).run (order'.map press') = (m.run calls).run (order.map press)) ∧
      (∃ e, (m.run calls).Pursuit w y [] (some e)) ∧
      (∀ (before : Manager) (c : Call) (r : Reply) (v : Verdict) (e : Address),
        before.perform c = .ok (m.run calls, r) → r.verdict? = some v → v.endorser? = some e →
          (m.run calls).Pursuit w y [] (some e)) ∧
      ∀ row next, (m.run calls).Pursuit w y row next →
        row.length ≤ (m.run calls).state.agreement.size ∧
          (next = none ↔ row.length = (m.run calls).state.agreement.size) ∧
          ∀ e i c, next = some e → (m.run calls).state.roster.slot i = some e →
            (m.run calls).Presses w y c i →
              ∃ next', (m.run calls).Pursuit w y (row ++ [c]) next' := by
  obtain ⟨addresses, hadmissible, rfl⟩ := exists_admissible_of_ofSetup hm
  have hsound := sound_run (sound_start setup hadmissible) hcalls
  generalize (start setup (SizedRoster.ofAddresses addresses)).run calls = m' at *
  have h : m'.Challenge w a x y := ⟨hsound, hclaim, hne, hslot, hnot⟩
  have hnonempty : ∀ {press order}, m'.Chain w y press order → order ≠ [] := by
    rintro press order hchain rfl
    obtain ⟨i, hi⟩ := hsome
    exact List.not_mem_nil ((hchain.mem_iff i).2 hi)
  refine ⟨fun press order hchain => ⟨?_, ?_, ?_⟩, ?_, ?_, ?_⟩
  · rintro gone i left rfl hleft
    exact h.conflict_of_chain hchain hleft
  · rintro gone i rfl
    obtain ⟨hconsensus, hnoConflict⟩ := h.settled_adopted hchain
    refine ⟨_, _, h.adopt_of_chain hchain, h.run_chain hchain (hnonempty hchain), rfl,
      fun k => hchain.mem_agreement_adopted, fun k => ?_, fun k b => ?_, hconsensus, hnoConflict⟩
    · rw [← hchain.mem_iff]
      exact State.mem_goal_evictAll
    · rw [← hchain.mem_iff]
      exact State.slot_evictAll
  · intro press' order' hchain'
    have hsame : m'.state.evictAll order' = m'.state.evictAll order :=
      State.evictAll_congr fun k => (hchain'.mem_iff k).trans (hchain.mem_iff k).symm
    rw [h.run_chain hchain (hnonempty hchain), h.run_chain hchain' (hnonempty hchain'), hsame]
  · obtain ⟨e, he⟩ := hsound.exists_endorser (Mask.ne_empty_iff.2 hsome)
    exact ⟨e, .start he⟩
  · intro before c r v e hperform hverdict he
    exact .start (endorser_of_conflict hperform hverdict he)
  · intro row next hrow
    obtain ⟨hle, hnone⟩ := h.length_of_pursuit hrow
    refine ⟨hle, hnone, ?_⟩
    rintro e i c rfl hslot' hc
    exact h.exists_pursuit hrow hslot' hc

end Manager

/-- Three validators under an orchestrator who is none of them. -/
def Config.trio : Config :=
  ⟨.ofDigit 9, [.ofDigit 1, .ofDigit 2, .ofDigit 3], .skip⟩

theorem SizedRoster.admissible_trio : Admissible Config.trio.validators where
  length_pos := by decide
  length_le := by decide
  zero_notMem := by decide
  nodup := by decide

/-- The setup of the three validators, the orchestrator in lower case. -/
def Setup.trio : Setup :=
  { Config.trio.setup with orchestrator := .text (Address.ofDigit 9).plain }

/-- The first two validators agree. -/
def Call.agreed : List Call :=
  [.sent 1 .ones, .sent 2 .ones]

/-- The dispute that the third validator wins against the one in slot `k`, whose
address repeats the digit `k + 1`. -/
def Call.pressing (k : Nat) : Call :=
  .dispute ⟨.text (Address.ofDigit 9).plain, (Address.ofDigit 3).plain,
    (Address.ofDigit (.ofNat 16 (k + 1))).plain, .text Claim.twos.text⟩

namespace Manager

def trio : Manager :=
  .start .trio (SizedRoster.ofAddresses Config.trio.validators)

/-- Three validators, of whom the third has not endorsed the claim of the others. -/
def outvoted : Manager :=
  trio.run Call.agreed

theorem capacity_outvoted : outvoted.capacity = 3 :=
  capacity_run trio Call.agreed

def outvotedSlot : Fin 3 → Fin outvoted.capacity :=
  Fin.cast capacity_outvoted.symm

theorem state_outvoted :
    outvoted.state.claim = some .ones ∧
      (∀ i, outvoted.state.roster.slot i = some (.ofDigit (.ofNat 16 (i.val + 1)))) ∧
      (∀ i, i ∈ outvoted.state.agreement ↔ i.val < 2) := by
  decide +kernel

theorem chain_outvoted {order : List (Fin outvoted.capacity)}
    (h : order.Perm [outvotedSlot 0, outvotedSlot 1]) :
    outvoted.Chain (outvotedSlot 2) .twos (fun i => .pressing i.val) order where
  nodup := h.nodup_iff.2 (by simp [outvotedSlot, Fin.ext_iff])
  mem_iff := by
    intro i
    rw [h.mem_iff, state_outvoted.2.2, List.mem_pair, Fin.ext_iff, Fin.ext_iff]
    simp only [outvotedSlot, Fin.val_cast]
    omega
  presses := by
    intro i _
    have hauth : outvoted.IsOrchestrator (.text (Address.ofDigit 9).plain) :=
      ⟨.ofDigit 9, by decide +kernel, by decide +kernel⟩
    exact .dispute hauth (Claim.ofArgument_text _) (state_outvoted.2.1 _)
      (Address.isSpelledBy_plain _) (state_outvoted.2.1 i) (Address.isSpelledBy_plain _)
      (Address.isMarked_plain _)

/-- The third validator wins its disputes with the others in both orders. -/
theorem chain_evicts_endorsers_trio :
    ofSetup .trio = .ok trio ∧ (∀ c ∈ Call.agreed, c.IsMarked) ∧
      outvoted.state.claim = some .ones ∧ (∃ i, i ∈ outvoted.state.agreement) ∧
      outvoted.state.roster.slot (outvotedSlot 2) = some (.ofDigit 3) ∧
      outvotedSlot 2 ∉ outvoted.state.agreement ∧ Claim.twos ≠ .ones ∧
      outvoted.run [.pressing 1, .pressing 0] = outvoted.run [.pressing 0, .pressing 1] := by
  obtain ⟨hclaim, hslots, hmem⟩ := state_outvoted
  have hm : ofSetup .trio = .ok trio := ofSetup_of_admissible SizedRoster.admissible_trio rfl
  have hcalls : ∀ c ∈ Call.agreed, c.IsMarked := by
    simp [Call.agreed]
  have hsome : ∃ i, i ∈ outvoted.state.agreement :=
    ⟨outvotedSlot 0, (hmem _).2 (by decide)⟩
  have hnot : outvotedSlot 2 ∉ outvoted.state.agreement :=
    mt (hmem _).1 (by decide)
  have hne : Claim.twos ≠ .ones := by
    decide
  obtain ⟨hchains, -⟩ := chain_evicts_endorsers hm hcalls hclaim hsome (hslots _) hnot hne
  obtain ⟨-, -, horder⟩ := hchains _ _ (chain_outvoted (.refl _))
  exact ⟨hm, hcalls, hclaim, hsome, hslots _, hnot, hne,
    horder _ _ (chain_outvoted (.swap (outvotedSlot 0) (outvotedSlot 1) []))⟩

end Manager

end EpochClaims
