import EpochClaims.Proofs.Manager.Consensus
import EpochClaims.Proofs.Manager.Endorsement

/-!
# An eviction is permanent

A slot becomes vacant in one way: a dispute is committed whose loser spells the
validator in that slot. `slot?_after` and `testBit_goal_after` say what one call
does to the slots and to the goal, however its arguments are spelled. Since no
call fills a slot, a validator that was evicted never speaks again. If the
losers are written with the marker it is not spoken of either, because whoever
a verdict names holds a slot in the state that the call leaves.

Slots are numbered here, since the managers along a run have the same number of
slots only by a theorem.
-/

namespace EpochClaims

/-- A text stands among the validators of an outcome. -/
def Outcome.Names (o : Outcome) (s : String) : Prop :=
  ∃ entries, o.validators = .list entries ∧ .text s ∈ entries

namespace Verdict

/-- The validators that a verdict is about. -/
def validators : Verdict → List Address
  | noConflict => []
  | consensus _ validator => [validator]
  | conflict _ _ endorser challenger => [endorser, challenger]

/-- Apart from the zero address in its empty places, an outcome names the
validators that its verdict is about. -/
theorem names_outcome_iff {v : Verdict} {s : String} (hs : s ≠ Address.zero.text) :
    v.outcome.Names s ↔ ∃ a ∈ v.validators, s = a.text := by
  cases v with
  | noConflict => simp [outcome, Outcome.of, Outcome.Names, validators, hs]
  | consensus claim a => simp [outcome, Outcome.of, Outcome.Names, validators, hs]
  | conflict current rival e o => simp [outcome, Outcome.of, Outcome.Names, validators]

end Verdict

namespace State

variable {n : Nat} {s : State n}

theorem endorser_eq_ok_iff {e : Address} :
    s.endorser = .ok e ↔ ∃ i, s.agreement.least? = some i ∧ s.roster.slot i = some e := by
  rw [endorser]
  cases s.agreement.least? with
  | none => simp
  | some i =>
      cases hslot : s.roster.slot i with
      | none => simp [hslot]
      | some a => simp [hslot]

theorem mem_validators_settled {claim : Claim} {a b : Address}
    (h : b ∈ (s.settled claim a).validators) : b = a := by
  rw [settled, settle] at h
  split at h
  · exact List.mem_singleton.1 h
  · contradiction

end State

namespace Manager

variable {m : Manager} {c : Call} {s : State m.capacity} {r : Reply} {a : Address} {k : Nat}

/-- The validator in slot `k`; none if the slot is vacant or there is no such
slot. -/
def slot? (m : Manager) (k : Nat) : Option Address :=
  if h : k < m.capacity then m.state.roster.slot ⟨k, h⟩ else none

theorem slot?_eq_some_iff :
    m.slot? k = some a ↔ ∃ i : Fin m.capacity, i.val = k ∧ m.state.roster.slot i = some a :=
  Roster.slot?_eq_some_iff

theorem slot?_val (m : Manager) (i : Fin m.capacity) : m.slot? i.val = m.state.roster.slot i :=
  Roster.slot?_val m.state.roster i

theorem slot?_injective (hm : m.state.roster.Distinct) {j : Nat} (hj : m.slot? j = some a)
    (hk : m.slot? k = some a) : j = k :=
  Roster.distinct_iff_slot?.1 hm j k a hj hk

/-- A call vacates slot `k` if it is a dispute that is committed and whose loser
spells the validator in that slot. -/
def Vacates (m : Manager) (c : Call) (k : Nat) : Prop :=
  ∃ d r a, c = .dispute d ∧ m.perform c = .ok r ∧ m.slot? k = some a ∧ a.IsSpelledBy d.loser

theorem not_vacates_of_refused {e : Refusal} (h : m.perform c = .error e) : ¬ m.Vacates c k := by
  rintro ⟨d, r, a, -, hperform, -⟩
  rw [h] at hperform
  contradiction

/-- A call vacates one slot at most. -/
theorem Vacates.unique (hm : m.state.roster.Distinct) {j : Nat} (hj : m.Vacates c j)
    (hk : m.Vacates c k) : j = k := by
  obtain ⟨d, -, a, rfl, -, ha, haloser⟩ := hj
  obtain ⟨d', -, b, hd, -, hb, hbloser⟩ := hk
  cases hd
  have hab : a = b := Address.key_injective (haloser.symm.trans hbloser)
  exact slot?_injective hm ha (hab ▸ hb)

/-- The slot that a committed call vacates is the one where its loser is found. -/
theorem Committed.vacates_iff (h : Committed m c s r) (hm : m.state.roster.Distinct)
    {i : Fin m.capacity} : m.Vacates c i.val ↔ m.Evicts c i := by
  constructor
  · rintro ⟨d, -, a, rfl, -, ha, hloser⟩
    rw [slot?_val] at ha
    exact ⟨d, rfl, (Roster.indexOf_eq_some_iff hm).2 ⟨a, ha, hloser.symm⟩⟩
  · rintro ⟨d, rfl, hindex⟩
    obtain ⟨a, ha, hkey⟩ := Roster.slot_of_indexOf hindex
    refine ⟨d, _, a, rfl, perform_eq_ok_iff.2 ⟨s, rfl, h⟩, ?_, hkey.symm⟩
    rw [slot?_val, ha]

/-- A committed call makes the slot of its loser vacant, if it has a loser with a
slot, and no other. -/
theorem Committed.slot_eq_some_iff (h : Committed m c s r) {i : Fin m.capacity} :
    s.roster.slot i = some a ↔ m.state.roster.slot i = some a ∧ ¬ m.Evicts c i := by
  cases c with
  | submit _ =>
      cases h with
      | endorsed _ _ => simp [Evicts, State.endorse]
      | contradicted _ _ _ => simp [Evicts]
  | dispute d =>
      obtain ⟨j, hj, hroster, -⟩ := h.exists_judge
      obtain ⟨-, -, -, -, -, hloser⟩ := judge_eq_ok_iff.1 hj
      rw [hroster, slot_afterEviction_eq_some_iff, ← (loserSlot_eq_ok_iff.1 hloser).1]
      simp [Evicts, and_comm]
  | advance _ =>
      cases h with
      | closed _ => simp [Evicts, State.close]

/-- A call leaves all slots as they are but the one that it vacates. -/
theorem slot?_after (hm : m.state.roster.Distinct) (c : Call) :
    (m.after c).slot? k = some a ↔ m.slot? k = some a ∧ ¬ m.Vacates c k := by
  rcases committed_or_refused m c with ⟨s, r, h⟩ | ⟨e, h⟩
  · rw [after_of_committed h, slot?_eq_some_iff, slot?_eq_some_iff]
    constructor
    · rintro ⟨i, rfl, hi⟩
      obtain ⟨hslot, hnot⟩ := h.slot_eq_some_iff.1 hi
      exact ⟨⟨i, rfl, hslot⟩, mt (h.vacates_iff hm).1 hnot⟩
    · rintro ⟨⟨i, rfl, hi⟩, hnot⟩
      exact ⟨i, rfl, h.slot_eq_some_iff.2 ⟨hi, mt (h.vacates_iff hm).2 hnot⟩⟩
  · rw [after_of_refused h, and_iff_left (not_vacates_of_refused h)]

/-- A call takes the slot that it vacates out of the goal, and no other. -/
theorem testBit_goal_after (hm : m.state.roster.Distinct) (c : Call) :
    (m.after c).state.goal.toNat.testBit k = true ↔
      m.state.goal.toNat.testBit k = true ∧ ¬ m.Vacates c k := by
  rcases committed_or_refused m c with ⟨s, r, h⟩ | ⟨e, h⟩
  · rw [after_of_committed h, Mask.testBit_toNat, Mask.testBit_toNat]
    constructor
    · rintro ⟨i, rfl, hi⟩
      obtain ⟨hmem, hnot⟩ := h.mem_goal.1 hi
      exact ⟨⟨i, rfl, hmem⟩, mt (h.vacates_iff hm).1 hnot⟩
    · rintro ⟨⟨i, rfl, hi⟩, hnot⟩
      exact ⟨i, rfl, h.mem_goal.2 ⟨hi, mt (h.vacates_iff hm).2 hnot⟩⟩
  · rw [after_of_refused h, and_iff_left (not_vacates_of_refused h)]

theorem slot?_of_run {calls : List Call} (h : (m.run calls).slot? k = some a) :
    m.slot? k = some a := by
  revert h
  refine run_induction (P := fun _ m' => m'.slot? k = some a → m.slot? k = some a)
    (Q := fun _ => True) id ?_ ?_ calls (fun _ _ => trivial)
  · intro calls c s r ih _ hcommit h
    obtain ⟨i, hik, hi⟩ := slot?_eq_some_iff.1 h
    exact ih (slot?_eq_some_iff.2 ⟨i, hik, hcommit.slot_of_slot hi⟩)
  · intro calls c e ih _ _
    exact ih

/-- However losers are spelled, the goal stays the occupied slots. -/
theorem Committed.goal_eq (h : Committed m c s r)
    (hm : m.state.goal = m.state.roster.occupied) : s.goal = s.roster.occupied := by
  apply Mask.ext
  intro i
  rw [h.mem_goal, hm, Roster.mem_occupied, Roster.mem_occupied, Option.isSome_iff_exists,
    Option.isSome_iff_exists, ← exists_and_right]
  exact exists_congr fun a => h.slot_eq_some_iff.symm

theorem goal_run (hm : m.state.goal = m.state.roster.occupied) (calls : List Call) :
    (m.run calls).state.goal = (m.run calls).state.roster.occupied :=
  run_induction (P := fun _ m' => m'.state.goal = m'.state.roster.occupied)
    (Q := fun _ => True) hm (fun _ _ _ _ ih _ hcommit => hcommit.goal_eq ih)
    (fun _ _ _ ih _ _ => ih) calls (fun _ _ => trivial)

theorem testBit_goal_iff (hm : m.state.goal = m.state.roster.occupied) (k : Nat) :
    m.state.goal.toNat.testBit k = true ↔ ∃ a, m.slot? k = some a := by
  rw [Mask.testBit_toNat, hm]
  constructor
  · rintro ⟨i, rfl, hi⟩
    rw [slot?_val]
    exact Option.isSome_iff_exists.1 (Roster.mem_occupied.1 hi)
  · rintro ⟨a, ha⟩
    obtain ⟨i, hik, hi⟩ := slot?_eq_some_iff.1 ha
    exact ⟨i, hik, Roster.mem_occupied.2 (Option.isSome_iff_exists.2 ⟨a, hi⟩)⟩

/-- The sender of a submission that is committed holds a slot. -/
theorem Committed.isMember_sender {s : Submission} {next : State m.capacity}
    (h : Committed m (.submit s) next r) (ha : a.IsSpelledBy s.validator) : m.IsMember a := by
  obtain ⟨heard, hear⟩ : ∃ heard, m.hear s = .ok heard := by
    cases h with
    | endorsed hear _ => exact ⟨_, hear⟩
    | contradicted hear _ _ => exact ⟨_, hear⟩
  obtain ⟨-, -, hindex, -⟩ := hear_eq_ok_iff.1 hear
  exact ⟨heard.slot, (slot_eq_some_iff_isSpelledBy hindex).2 ha⟩

/-- The winner of a dispute that is committed holds a slot. -/
theorem Committed.isMember_winner {d : Dispute} {next : State m.capacity}
    (h : Committed m (.dispute d) next r) (ha : a.IsSpelledBy d.winner) : m.IsMember a := by
  obtain ⟨j, hj, -⟩ := h.exists_judge
  obtain ⟨-, -, hindex, -⟩ := judge_eq_ok_iff.1 hj
  exact ⟨j.slot, (slot_eq_some_iff_isSpelledBy hindex).2 ha⟩

/-- Whoever a verdict is about holds a slot in the state that the call leaves. -/
theorem Committed.isMember_of_mem_validators (h : Committed m c s r) (hc : c.IsMarked)
    {v : Verdict} (hv : r.verdict? = some v) (ha : a ∈ v.validators) :
    (m.withState s).IsMember a := by
  have hwinner : ∀ {d : Dispute} {j : Judged m.capacity}, m.judge d = .ok j →
      Hex.IsMarked d.loser → (m.afterEviction j.loser).roster.slot j.slot = some j.winner := by
    intro d j judge hmarked
    obtain ⟨-, -, -, hslot, -⟩ := judge_eq_ok_iff.1 judge
    exact (m.slot_afterEviction_eq_some_iff j.loser).2 ⟨loser_ne_of_judge judge hmarked, hslot⟩
  cases h with
  | @endorsed _ heard hear _ =>
      cases hv
      obtain ⟨-, -, -, hslot⟩ := hear_eq_ok_iff.1 hear
      exact ⟨heard.slot, State.mem_validators_settled ha ▸ hslot⟩
  | @contradicted _ heard e hear _ hendorser =>
      cases hv
      obtain ⟨i, -, hi⟩ := State.endorser_eq_ok_iff.1 hendorser
      obtain ⟨-, -, -, hslot⟩ := hear_eq_ok_iff.1 hear
      rcases List.mem_pair.1 ha with rfl | rfl
      · exact ⟨i, hi⟩
      · exact ⟨heard.slot, hslot⟩
  | @upheld _ j judge _ =>
      cases hv
      exact ⟨j.slot, State.mem_validators_settled ha ▸ hwinner judge hc⟩
  | @adopted _ j judge _ _ =>
      cases hv
      exact ⟨j.slot, State.mem_validators_settled ha ▸ hwinner judge hc⟩
  | @contested _ j e judge _ _ hendorser =>
      cases hv
      obtain ⟨i, -, hi⟩ := State.endorser_eq_ok_iff.1 hendorser
      rcases List.mem_pair.1 ha with rfl | rfl
      · exact ⟨i, hi⟩
      · exact ⟨j.slot, hwinner judge hc⟩
  | closed _ => contradiction

/-- A validator whose slot was vacated holds no other slot. -/
theorem not_isMember_of_vacant (hm : m.state.roster.Distinct) {calls : List Call}
    (ha : m.slot? k = some a) (hvacant : (m.run calls).slot? k = none) :
    ¬ (m.run calls).IsMember a := by
  rintro ⟨i, hi⟩
  have hnow : (m.run calls).slot? i.val = some a := slot?_eq_some_iff.2 ⟨i, rfl, hi⟩
  rw [slot?_injective hm ha (slot?_of_run hnow), hnow] at hvacant
  contradiction

theorem exists_error_of_submit {s : Submission} (hnot : ¬ m.IsMember a)
    (hs : a.IsSpelledBy s.validator) : ∃ e, m.perform (.submit s) = .error e := by
  apply (committed_or_refused _ _).resolve_left
  rintro ⟨next, r, h⟩
  exact hnot (h.isMember_sender hs)

theorem exists_error_of_dispute {d : Dispute} (hnot : ¬ m.IsMember a)
    (hd : a.IsSpelledBy d.winner) : ∃ e, m.perform (.dispute d) = .error e := by
  apply (committed_or_refused _ _).resolve_left
  rintro ⟨next, r, h⟩
  exact hnot (h.isMember_winner hd)

/-- At the start the slots hold the validators of the setup in their order. -/
theorem slot?_start (setup : Setup) (addresses : List Address) (k : Nat) :
    (start setup (SizedRoster.ofAddresses addresses)).slot? k = addresses[k]? := by
  rw [slot?]
  split
  · next hk =>
    have hslot := SizedRoster.slot_ofAddresses addresses ⟨k, hk⟩
    exact hslot.trans (List.getElem?_eq_getElem hk).symm
  · next hk => exact (List.getElem?_eq_none_iff.2 (Nat.not_lt.1 hk)).symm

/-- Every slot holds its first validator or nobody, and nobody for good once it
was vacated. A call vacates one slot at most, as a dispute whose loser spells
the validator there, and takes the same slot out of the goal, which is the
occupied slots throughout. From then on no call is committed in which the
validator sends a claim or wins a dispute; and if the loser of a call is written
with the marker, its outcome names only validators that hold a slot in the state
it leaves, hence none that was evicted. -/
theorem eviction_is_permanent {setup : Setup} (hm : ofSetup setup = .ok m) (calls : List Call) :
    (m.run calls).capacity = m.capacity ∧
      (∀ k < m.capacity, ∃ a, m.slot? k = some a ∧
        ((m.run calls).slot? k = some a ∨ (m.run calls).slot? k = none)) ∧
      (∀ more k, (m.run calls).slot? k = none → (m.run (calls ++ more)).slot? k = none) ∧
      (∀ c, (∀ k a, ((m.run calls).after c).slot? k = some a ↔
            (m.run calls).slot? k = some a ∧ ¬ (m.run calls).Vacates c k) ∧
          (∀ k, ((m.run calls).after c).state.goal.toNat.testBit k = true ↔
            (m.run calls).state.goal.toNat.testBit k = true ∧ ¬ (m.run calls).Vacates c k) ∧
          ∀ j k, (m.run calls).Vacates c j → (m.run calls).Vacates c k → j = k) ∧
      (∀ k, (m.run calls).state.goal.toNat.testBit k = true ↔
        ∃ a, (m.run calls).slot? k = some a) ∧
      (∀ k a, m.slot? k = some a → (m.run calls).slot? k = none →
        (∀ s, a.IsSpelledBy s.validator → ∃ e, (m.run calls).perform (.submit s) = .error e) ∧
          ∀ d, a.IsSpelledBy d.winner → ∃ e, (m.run calls).perform (.dispute d) = .error e) ∧
      ∀ c m' r v, c.IsMarked → (m.run calls).perform c = .ok (m', r) → r.verdict? = some v →
        (∀ s, v.outcome.Names s → s ≠ Address.zero.text →
            ∃ k a, m'.slot? k = some a ∧ s = a.text) ∧
          ∀ k a, m.slot? k = some a → (m.run calls).slot? k = none →
            ¬ v.outcome.Names a.text := by
  obtain ⟨addresses, hadmissible, rfl⟩ := exists_admissible_of_ofSetup hm
  have hstart := sound_start setup hadmissible
  have hdistinct := distinct_run hstart.distinct calls
  have hgoal := testBit_goal_iff (goal_run hstart.goal_eq calls)
  refine ⟨capacity_run _ calls, ?_, ?_, ?_, hgoal, ?_, ?_⟩
  · intro k hk
    have hfirst := (slot?_start setup addresses k).trans (List.getElem?_eq_getElem hk)
    refine ⟨_, hfirst, ?_⟩
    cases hnow : (run (start setup (SizedRoster.ofAddresses addresses)) calls).slot? k with
    | none => exact .inr rfl
    | some a => exact .inl ((slot?_of_run hnow).symm.trans hfirst)
  · intro more k hvacant
    rw [run_append, Option.eq_none_iff_forall_ne_some]
    intro a ha
    rw [slot?_of_run ha] at hvacant
    contradiction
  · intro c
    exact ⟨fun k a => slot?_after hdistinct c, fun k => testBit_goal_after hdistinct c,
      fun j k => Vacates.unique hdistinct⟩
  · intro k a ha hvacant
    have hnot := not_isMember_of_vacant hstart.distinct ha hvacant
    exact ⟨fun _ => exists_error_of_submit hnot, fun _ => exists_error_of_dispute hnot⟩
  · intro c m' r v hc hperform hv
    obtain ⟨s, rfl, hcommit⟩ := perform_eq_ok_iff.1 hperform
    constructor
    · intro t ht hzero
      obtain ⟨a, ha, rfl⟩ := (Verdict.names_outcome_iff hzero).1 ht
      obtain ⟨i, hi⟩ := hcommit.isMember_of_mem_validators hc hv ha
      exact ⟨i.val, a, slot?_eq_some_iff.2 ⟨i, rfl, hi⟩, rfl⟩
    · intro k a ha hvacant hnames
      have hzero : a.text ≠ Address.zero.text := by
        intro h
        rw [Address.text_injective h, slot?_start] at ha
        exact hadmissible.zero_notMem (List.mem_of_getElem? ha)
      obtain ⟨b, hb, htext⟩ := (Verdict.names_outcome_iff hzero).1 hnames
      obtain ⟨i, hi⟩ := hcommit.isMember_of_mem_validators hc hv hb
      rw [← Address.text_injective htext] at hi
      exact not_isMember_of_vacant hstart.distinct ha hvacant ⟨i, hcommit.slot_of_slot hi⟩

/-- The quarrel vacates the slot of the first validator, which from then on
sends no claim. -/
theorem eviction_is_permanent_quarrel :
    ofSetup .duo = .ok duo ∧ (duo.run Call.quarrel).slot? 0 = none ∧
      ∀ s, (Address.ofDigit 1).IsSpelledBy s.validator →
        ∃ e, (duo.run Call.quarrel).perform (.submit s) = .error e := by
  have hvacant : (duo.run Call.quarrel).slot? 0 = none := by decide +kernel
  obtain ⟨-, -, -, -, -, hrefused, -⟩ := eviction_is_permanent ofSetup_duo Call.quarrel
  exact ⟨ofSetup_duo, hvacant, (hrefused 0 (.ofDigit 1) (by decide +kernel) hvacant).1⟩

end Manager

end EpochClaims
