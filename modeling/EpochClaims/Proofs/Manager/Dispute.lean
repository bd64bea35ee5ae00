import EpochClaims.Proofs.Manager.Invariant

/-!
# A dispute does not evict its winner

A dispute tells its loser from its winner by reading the loser as an address,
and it finds the slot to vacate by the loser's spelling. On texts that begin
with the marker the reader and the lookup agree, so a dispute of a validator
against itself is refused. On other texts only the lookup succeeds:
`self_dispute_committed` is a dispute that a validator wins against itself and
that vacates its slot.
-/

namespace EpochClaims

/-- Among the addresses of a roster, a text with the marker is found in the slot
whose address it reads as. -/
theorem Roster.indexOf_eq_some_iff_ofText? {n : Nat} {r : Roster n} (hr : r.Distinct)
    {s : String} (hs : Hex.IsMarked s) {a : Address} {i : Fin n} (hi : r.slot i = some a) :
    r.indexOf s = some i ↔ Address.ofText? s.toList = some a := by
  constructor
  · intro h
    exact ofText?_of_indexOf hs h hi
  · intro h
    exact indexOf_of_ofText? hr h hi

/-- A dispute that the first of two validators wins against a given loser. -/
def Dispute.wonByFirst (loser : String) : Dispute :=
  ⟨.text (Address.ofDigit 9).plain, (Address.ofDigit 1).plain, loser, .text Claim.twos.text⟩

namespace Manager

variable {m : Manager}

/-- A dispute of a validator against itself is refused. -/
theorem perform_self_dispute {d : Dispute} (hmarked : Hex.IsMarked d.loser)
    (hauth : m.IsOrchestrator d.account) {x : Claim}
    (hclaim : Claim.ofArgument d.winningClaim = .ok x) {i : Fin m.capacity}
    (hwinner : m.state.roster.indexOf d.winner = some i)
    (hloser : m.state.roster.indexOf d.loser = some i) :
    ∃ a, m.state.roster.slot i = some a ∧
      m.perform (.dispute d) = .error (.selfDispute a) := by
  obtain ⟨a, ha, -⟩ := Roster.slot_of_indexOf hwinner
  have hread := Roster.ofText?_of_indexOf hmarked hloser ha
  have hjudge : m.judge d = .error (.selfDispute a) := by
    rw [judge, authorize_eq_ok_iff.2 hauth, readClaim_eq_ok_iff.2 hclaim,
      holder_eq_ok_iff.2 ⟨hwinner, ha⟩]
    simp only [bind, Except.bind, if_pos hread]
    rfl
  refine ⟨a, ha, ?_⟩
  rw [perform, resolve, hjudge]
  rfl

/-- The winner of a committed dispute keeps its slot. -/
theorem Committed.slot_winner {d : Dispute} {s : State m.capacity} {r : Reply}
    (h : Committed m (.dispute d) s r) (hmarked : Hex.IsMarked d.loser) :
    ∃ i a, m.state.roster.indexOf d.winner = some i ∧ m.state.roster.slot i = some a ∧
      s.roster.slot i = some a := by
  obtain ⟨j, hj, hroster, -⟩ := h.exists_judge
  obtain ⟨-, -, hindex, hslot, -⟩ := judge_eq_ok_iff.1 hj
  refine ⟨j.slot, j.winner, hindex, hslot, ?_⟩
  rw [hroster, slot_afterEviction_eq_some_iff]
  exact ⟨loser_ne_of_judge hj hmarked, hslot⟩

/-- Whatever calls were made before, a dispute whose loser is written with the
marker does not evict its winner: against itself it is refused and changes
nothing, and otherwise the winner keeps its slot. If all losers are written so,
the roster never becomes empty and the agreement never marks a vacant slot. -/
theorem winner_is_not_evicted {document : Option Document} (hm : ofDocument document = .ok m)
    (calls : List Call) :
    (∀ s a i, Hex.IsMarked s → (m.run calls).state.roster.slot i = some a →
        ((m.run calls).state.roster.indexOf s = some i ↔
          Address.ofText? s.toList = some a)) ∧
      (∀ d i x, Hex.IsMarked d.loser → (m.run calls).IsOrchestrator d.account →
        Claim.ofArgument d.winningClaim = .ok x →
        (m.run calls).state.roster.indexOf d.winner = some i →
        (m.run calls).state.roster.indexOf d.loser = some i →
          ∃ a, (m.run calls).state.roster.slot i = some a ∧
            (m.run calls).perform (.dispute d) = .error (.selfDispute a) ∧
            (m.run calls).after (.dispute d) = m.run calls) ∧
      (∀ d m' r, Hex.IsMarked d.loser → (m.run calls).perform (.dispute d) = .ok (m', r) →
        ∃ s i a, m' = (m.run calls).withState s ∧
          (m.run calls).state.roster.indexOf d.winner = some i ∧
          (m.run calls).state.roster.slot i = some a ∧ s.roster.slot i = some a) ∧
      ((∀ c ∈ calls, c.IsMarked) →
        (∃ i a, (m.run calls).state.roster.slot i = some a) ∧
          ∀ i ∈ (m.run calls).state.agreement,
            ∃ a, (m.run calls).state.roster.slot i = some a) := by
  obtain ⟨config, -, hadmissible, rfl⟩ := ofDocument_eq_ok_iff.1 hm
  have hstart := sound_ofRoster hadmissible
  refine ⟨?_, ?_, ?_, ?_⟩
  · intro s a i hs hi
    exact Roster.indexOf_eq_some_iff_ofText? (distinct_run hstart.distinct calls) hs hi
  · intro d i x hmarked hauth hclaim hwinner hloser
    obtain ⟨a, ha, hperform⟩ := perform_self_dispute hmarked hauth hclaim hwinner hloser
    exact ⟨a, ha, hperform, after_of_refused hperform⟩
  · intro d m' r hmarked hperform
    obtain ⟨s, rfl, hcommit⟩ := perform_eq_ok_iff.1 hperform
    obtain ⟨i, a, hindex, hslot, hkept⟩ := hcommit.slot_winner hmarked
    exact ⟨s, i, a, rfl, hindex, hslot, hkept⟩
  · intro hcalls
    have hsound := sound_run hstart hcalls
    constructor
    · obtain ⟨i, hi⟩ := hsound.goal_nonempty
      exact ⟨i, hsound.mem_goal_iff.1 hi⟩
    · intro i hi
      exact hsound.mem_goal_iff.1 (hsound.agreement_le i hi)

/-- Of two validators, one that disputes with itself is refused, and the one
that wins the quarrel keeps its slot. -/
theorem winner_is_not_evicted_quarrel :
    ofDocument (some Config.duo.toDocument) = .ok (ofRoster Config.duo) ∧
      (∃ a, (ofRoster Config.duo).perform (.dispute (.wonByFirst (Address.ofDigit 1).plain)) =
        .error (.selfDispute a)) ∧
      ∀ i ∈ ((ofRoster Config.duo).run Call.quarrel).state.agreement,
        ∃ a, ((ofRoster Config.duo).run Call.quarrel).state.roster.slot i = some a := by
  obtain ⟨-, hself, -⟩ := winner_is_not_evicted ofDocument_duo []
  obtain ⟨a, -, hrefused, -⟩ := hself (.wonByFirst (Address.ofDigit 1).plain) ⟨0, by decide⟩ .twos
    (by decide +kernel) isOrchestrator_duo (Claim.ofArgument_text _) (by decide +kernel)
    (by decide +kernel)
  obtain ⟨-, -, -, hstate⟩ := winner_is_not_evicted ofDocument_duo Call.quarrel
  exact ⟨ofDocument_duo, ⟨a, hrefused⟩, (hstate Call.isMarked_quarrel).2⟩

/-- Without the marker, a validator is not recognised as its own opponent: the
dispute is committed, its slot is vacated and yet marked in the agreement. -/
theorem self_dispute_committed :
    ∃ d i, d = Dispute.wonByFirst "0X1111111111111111111111111111111111111111" ∧
      (ofRoster Config.duo).IsOrchestrator d.account ∧
      Claim.ofArgument d.winningClaim = .ok .twos ∧
      (ofRoster Config.duo).state.roster.indexOf d.winner = some i ∧
      (ofRoster Config.duo).state.roster.indexOf d.loser = some i ∧
      ∃ s r, (ofRoster Config.duo).perform (.dispute d) =
          .ok ((ofRoster Config.duo).withState s, r) ∧
        s.roster.slot i = none ∧ i ∈ s.agreement := by
  have hjudge : (ofRoster Config.duo).judge
      (.wonByFirst "0X1111111111111111111111111111111111111111") =
      .ok ⟨.twos, ⟨0, by decide⟩, .ofDigit 1, some ⟨0, by decide⟩⟩ := by
    rw [judge_eq_ok_iff, loserSlot_eq_ok_iff]
    refine ⟨isOrchestrator_duo, Claim.ofArgument_text _, ?_, ?_, ?_, ?_, nofun⟩
    all_goals decide +kernel
  obtain ⟨hauth, hclaim, hwinner, -, -, hloser⟩ := judge_eq_ok_iff.1 hjudge
  refine ⟨_, ⟨0, by decide⟩, rfl, hauth, hclaim, hwinner, (loserSlot_eq_ok_iff.1 hloser).1, _, _,
    perform_eq_ok_iff.2 ⟨_, rfl, .adopted hjudge ?_ ?_⟩, ?_, ?_⟩
  all_goals decide +kernel

end Manager

end EpochClaims
