import EpochClaims.Manager.Call
import EpochClaims.Proofs.Roster.Lookup
import EpochClaims.Proofs.Sequence

/-!
# When the checks of a call pass

Each check of a call is described by the condition under which it passes, and
`hear_eq_ok_iff` and `judge_eq_ok_iff` collect the conditions of a submission
and of a dispute. A dispute compares its loser with its winner as addresses
and then looks its loser up, so the two can be the same slot in spite of the
comparison only if the loser is not written with the marker:
`loser_ne_of_judge`.
-/

namespace EpochClaims

/-- The address that a value spells, if it is a text. -/
def Argument.address? (v : Argument) : Option Address :=
  v.chars?.bind Address.ofText?

/-- A call whose loser, if it has one, is written with the marker. All other
validators are only looked up, so that they may be spelled anyhow. -/
def Call.IsMarked : Call → Prop
  | .submit _ => True
  | .dispute d => Hex.IsMarked d.loser
  | .advance _ => True

instance : (c : Call) → Decidable c.IsMarked
  | .submit _ => isTrue trivial
  | .dispute d => inferInstanceAs (Decidable (Hex.IsMarked d.loser))
  | .advance _ => isTrue trivial

namespace Manager

/-- An account that spells the address of the orchestrator. -/
def IsOrchestrator (m : Manager) (account : Argument) : Prop :=
  ∃ a, account.address? = some a ∧ m.orchestrator.address? = some a

theorem authorize_eq_ok_iff {m : Manager} {account : Argument} :
    m.authorize account = .ok () ↔ m.IsOrchestrator account := by
  rw [authorize, IsOrchestrator, Argument.address?, Argument.address?]
  cases account.chars?.bind Address.ofText? with
  | none => simp
  | some caller =>
      cases m.orchestrator.chars?.bind Address.ofText? with
      | none => simp
      | some orchestrator =>
          by_cases h : caller = orchestrator
          · simp [h]
          · simp [h, Ne.symm h]

theorem readClaim_eq_ok_iff {given : Argument} {c : Claim} :
    readClaim given = .ok c ↔ Claim.ofArgument given = .ok c := by
  rw [readClaim]
  cases Claim.ofArgument given <;> simp

theorem holder_eq_ok_iff {m : Manager} {role : Role} {validator : String}
    {i : Fin m.capacity} {a : Address} :
    m.holder role validator = .ok (i, a) ↔
      m.state.roster.indexOf validator = some i ∧ m.state.roster.slot i = some a := by
  rw [holder]
  cases m.state.roster.indexOf validator with
  | none => simp
  | some j =>
      constructor
      · intro h
        cases hslot : m.state.roster.slot j with
        | none =>
            simp only [hslot, reduceCtorEq] at h
        | some b =>
            simp only [hslot, Except.ok.injEq, Prod.mk.injEq] at h
            obtain ⟨rfl, rfl⟩ := h
            exact ⟨rfl, hslot⟩
      · rintro ⟨hj, hslot⟩
        cases hj
        simp only [hslot]

theorem loserSlot_eq_ok_iff {m : Manager} {loser : String} {slot : Option (Fin m.capacity)} :
    m.loserSlot loser = .ok slot ↔
      m.state.roster.indexOf loser = slot ∧
        (slot = none → m.rejectsUnknownLosers = false) := by
  rw [loserSlot]
  cases m.state.roster.indexOf loser with
  | some i =>
      cases slot with
      | none => simp
      | some j => simp
  | none =>
      cases m.rejectsUnknownLosers with
      | true =>
          simp only [if_true, reduceCtorEq, false_iff]
          rintro ⟨rfl, h⟩
          exact absurd (h rfl) (by decide)
      | false => simp

theorem hear_eq_ok_iff {m : Manager} {s : Submission} {h : Heard m.capacity} :
    m.hear s = .ok h ↔
      m.IsOrchestrator s.account ∧ Claim.ofArgument s.claim = .ok h.claim ∧
        m.state.roster.indexOf s.validator = some h.slot ∧
        m.state.roster.slot h.slot = some h.sender := by
  rw [hear, bind_eq_ok_iff]
  simp only [bind_eq_ok_iff, readClaim_eq_ok_iff]
  constructor
  · rintro ⟨⟨⟩, hauth, claim, hclaim, ⟨slot, sender⟩, hholder, hh⟩
    cases hh
    exact ⟨authorize_eq_ok_iff.1 hauth, hclaim, holder_eq_ok_iff.1 hholder⟩
  · rintro ⟨hauth, hclaim, hholder⟩
    exact ⟨(), authorize_eq_ok_iff.2 hauth, h.claim, hclaim, (h.slot, h.sender),
      holder_eq_ok_iff.2 hholder, rfl⟩

theorem judge_eq_ok_iff {m : Manager} {d : Dispute} {j : Judged m.capacity} :
    m.judge d = .ok j ↔
      m.IsOrchestrator d.account ∧ Claim.ofArgument d.winningClaim = .ok j.claim ∧
        m.state.roster.indexOf d.winner = some j.slot ∧
        m.state.roster.slot j.slot = some j.winner ∧
        Address.ofText? d.loser.toList ≠ some j.winner ∧
        m.loserSlot d.loser = .ok j.loser := by
  rw [judge, bind_eq_ok_iff]
  simp only [bind_eq_ok_iff, readClaim_eq_ok_iff]
  constructor
  · rintro ⟨⟨⟩, hauth, claim, hclaim, ⟨slot, winner⟩, hholder, hj⟩
    by_cases hself : Address.ofText? d.loser.toList = some winner
    · simp only [if_pos hself, bind_eq_ok_iff, throw, throwThe, MonadExceptOf.throw,
        reduceCtorEq, false_and, exists_false] at hj
    · simp only [if_neg hself, bind_eq_ok_iff] at hj
      obtain ⟨loser, hloser, hj⟩ := hj
      cases hj
      obtain ⟨hindex, hslot⟩ := holder_eq_ok_iff.1 hholder
      exact ⟨authorize_eq_ok_iff.1 hauth, hclaim, hindex, hslot, hself, hloser⟩
  · rintro ⟨hauth, hclaim, hindex, hslot, hself, hloser⟩
    refine ⟨(), authorize_eq_ok_iff.2 hauth, j.claim, hclaim, (j.slot, j.winner),
      holder_eq_ok_iff.2 ⟨hindex, hslot⟩, ?_⟩
    simp only [if_neg hself, bind_eq_ok_iff]
    exact ⟨j.loser, hloser, rfl⟩

/-- A loser written with the marker is told apart from the winner. -/
theorem loser_ne_of_judge {m : Manager} {d : Dispute} {j : Judged m.capacity}
    (hj : m.judge d = .ok j) (hmarked : Hex.IsMarked d.loser) : j.loser ≠ some j.slot := by
  intro hsame
  obtain ⟨-, -, -, hslot, hself, hloser⟩ := judge_eq_ok_iff.1 hj
  rw [hsame] at hloser
  exact hself (Roster.ofText?_of_indexOf hmarked (loserSlot_eq_ok_iff.1 hloser).1 hslot)

end Manager

end EpochClaims
