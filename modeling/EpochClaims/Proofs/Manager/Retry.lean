import EpochClaims.Proofs.Manager.Isolation

/-!
# Making a call again

The state that a committed claim or dispute leaves is one in which the same call
has nothing left to do, although it often takes another way: a first claim is
then the current one, an evicted loser holds no slot any more, and a dispute that
replaced the claim is one about the current claim. `Committed.submit_again` and
`Committed.dispute_again` say that the state and the reply are the same
nevertheless. Where disputes with unknown losers are refused, the second dispute
is refused for that reason.
-/

namespace EpochClaims

theorem State.endorse_endorse {n : Nat} (s : State n) (claim : Claim) (i : Fin n) :
    (s.endorse claim i).endorse claim i = s.endorse claim i := by
  have hinsert : (s.agreement.insert i).insert i = s.agreement.insert i :=
    Mask.insert_of_mem (Mask.mem_insert.2 (.inl rfl))
  rw [endorse, endorse, hinsert]

namespace Manager

variable {m : Manager} {s : State m.capacity} {r : Reply}

/-- The checks of a submission look at nothing that an endorsement changes. -/
theorem hear_withState {sub : Submission} {h : Heard m.capacity} (hear : m.hear sub = .ok h)
    (hroster : s.roster = m.state.roster) : (m.withState s).hear sub = .ok h := by
  obtain ⟨hauth, hclaim, hindex, hslot⟩ := hear_eq_ok_iff.1 hear
  refine hear_eq_ok_iff.2 ⟨hauth, hclaim, ?_, ?_⟩
  · change s.roster.indexOf sub.validator = some h.slot
    rw [hroster, hindex]
  · change s.roster.slot h.slot = some h.sender
    rw [hroster, hslot]

/-- Once heard, a claim is heard again with the same result. -/
theorem Committed.submit_again {sub : Submission} (h : Committed m (.submit sub) s r) :
    Committed (m.withState s) (.submit sub) s r := by
  cases h with
  | @endorsed _ heard hear _ =>
      have hagain := hear_withState (s := m.state.endorse heard.claim heard.slot) hear rfl
      have hsame : (m.withState (m.state.endorse heard.claim heard.slot)).state.endorse
          heard.claim heard.slot = m.state.endorse heard.claim heard.slot :=
        State.endorse_endorse m.state heard.claim heard.slot
      have hcommit := Committed.endorsed hagain (.inr rfl)
      rwa [hsame] at hcommit
  | contradicted hear hclaim hendorser => exact .contradicted hear hclaim hendorser

/-- Behind a dispute its winner is found in its slot, and its loser nowhere. -/
theorem lookups_again (hm : m.state.roster.Distinct) {d : Dispute} {j : Judged m.capacity}
    (hj : m.judge d = .ok j) (hmarked : Hex.IsMarked d.loser)
    (hroster : s.roster = (m.afterEviction j.loser).roster) :
    s.roster.indexOf d.winner = some j.slot ∧ s.roster.slot j.slot = some j.winner ∧
      s.roster.indexOf d.loser = none := by
  obtain ⟨-, -, hindex, hslot, -, hloser⟩ := judge_eq_ok_iff.1 hj
  have hslots : ∀ i b, s.roster.slot i = some b ↔
      j.loser ≠ some i ∧ m.state.roster.slot i = some b := by
    intro i b
    rw [hroster, slot_afterEviction_eq_some_iff]
  have hdistinct : s.roster.Distinct := fun i k b hi hk =>
    hm i k b ((hslots i b).1 hi).2 ((hslots k b).1 hk).2
  have hkept := (hslots j.slot j.winner).2 ⟨loser_ne_of_judge hj hmarked, hslot⟩
  have hwinner := (slot_eq_some_iff_isSpelledBy hindex).1 hslot
  refine ⟨(Roster.indexOf_eq_some_iff hdistinct).2 ⟨j.winner, hkept, hwinner.symm⟩, hkept, ?_⟩
  rw [Roster.indexOf_eq_none_iff]
  intro k b hk hb
  obtain ⟨hne, hk'⟩ := (hslots k b).1 hk
  have hfound := (Roster.indexOf_eq_some_iff hm).2 ⟨b, hk', hb.symm⟩
  exact hne ((loserSlot_eq_ok_iff.1 hloser).1.symm.trans hfound)

/-- Where unknown losers are no obstacle, a dispute that was committed passes its
checks again and evicts nobody. -/
theorem judge_again (hm : m.state.roster.Distinct) {d : Dispute} {j : Judged m.capacity}
    (hj : m.judge d = .ok j) (hmarked : Hex.IsMarked d.loser)
    (hroster : s.roster = (m.afterEviction j.loser).roster)
    (hskip : m.rejectsUnknownLosers = false) :
    (m.withState s).judge d = .ok ⟨j.claim, j.slot, j.winner, none⟩ := by
  obtain ⟨hauth, hclaim, -, -, hself, -⟩ := judge_eq_ok_iff.1 hj
  obtain ⟨hwinner, hslot, hloser⟩ := lookups_again hm hj hmarked hroster
  exact judge_eq_ok_iff.2 ⟨hauth, hclaim, hwinner, hslot, hself,
    loserSlot_eq_ok_iff.2 ⟨hloser, fun _ => hskip⟩⟩

/-- Once committed, a dispute is committed again with the same result. -/
theorem Committed.dispute_again (hm : m.state.roster.Distinct) {d : Dispute}
    (h : Committed m (.dispute d) s r) (hmarked : Hex.IsMarked d.loser)
    (hskip : m.rejectsUnknownLosers = false) : Committed (m.withState s) (.dispute d) s r := by
  cases h with
  | @upheld _ j judge hclaim =>
      have hagain := judge_again (s := m.afterEviction j.loser) hm judge hmarked rfl hskip
      exact .upheld hagain ((m.claim_afterEviction j.loser).trans hclaim)
  | @adopted _ j judge hclaim hempty =>
      -- The claim is the current one by now, so the second dispute is upheld.
      have hagain := judge_again (s := (m.afterEviction j.loser).endorse j.claim j.slot) hm judge
        hmarked rfl hskip
      exact .upheld hagain rfl
  | @contested _ j e judge hclaim hsome hendorser =>
      have hagain := judge_again (s := m.afterEviction j.loser) hm judge hmarked rfl hskip
      rw [← m.claim_afterEviction j.loser] at hclaim ⊢
      exact .contested hagain hclaim hsome hendorser

/-- Where unknown losers are refused, a dispute that was committed is refused when
it is brought again. -/
theorem Committed.perform_dispute_again (hm : m.state.roster.Distinct) {d : Dispute}
    (h : Committed m (.dispute d) s r) (hmarked : Hex.IsMarked d.loser)
    (hreject : m.rejectsUnknownLosers = true) :
    (m.withState s).perform (.dispute d) = .error (.unknownValidator d.loser .loser) := by
  obtain ⟨j, hj, hroster, -⟩ := h.exists_judge
  obtain ⟨hauth, hclaim, -, -, hself, -⟩ := judge_eq_ok_iff.1 hj
  obtain ⟨hwinner, hslot, hloser⟩ := lookups_again hm hj hmarked hroster
  have hunknown : (m.withState s).loserSlot d.loser =
      .error (.unknownValidator d.loser .loser) := by
    have hreject' : (m.withState s).rejectsUnknownLosers = true := hreject
    have hloser' : (m.withState s).state.roster.indexOf d.loser = none := hloser
    rw [loserSlot, hloser']
    exact if_pos hreject'
  have hauth' : (m.withState s).authorize d.account = .ok () := authorize_eq_ok_iff.2 hauth
  have hholder : (m.withState s).holder .winner d.winner = .ok (j.slot, j.winner) :=
    holder_eq_ok_iff.2 ⟨hwinner, hslot⟩
  have hjudge : (m.withState s).judge d = .error (.unknownValidator d.loser .loser) := by
    rw [judge, hauth', readClaim_eq_ok_iff.2 hclaim, hholder]
    simp only [bind, Except.bind, if_neg hself, hunknown]
  rw [perform, resolve, hjudge]
  rfl

theorem rejectsUnknownLosers_run (m : Manager) (calls : List Call) :
    (m.run calls).rejectsUnknownLosers = m.rejectsUnknownLosers := by
  obtain ⟨s, hs⟩ := exists_run_eq_withState m calls
  rw [hs]
  rfl

/-- A claim that was committed can be sent again: it is committed with the same
result and leaves the same manager. So does a dispute whose loser is written with
the marker, unless unknown losers are refused: then it is refused since its loser
holds no slot any more, and changes nothing. -/
theorem retry_is_safe {setup : Setup} (hm : ofSetup setup = .ok m) (calls : List Call) :
    (∀ sub m' r, (m.run calls).perform (.submit sub) = .ok (m', r) →
        m'.perform (.submit sub) = .ok (m', r)) ∧
      ∀ d m' r, Hex.IsMarked d.loser → (m.run calls).perform (.dispute d) = .ok (m', r) →
        (setup.unknownLoserPolicy ≠ .text UnknownLoserPolicy.reject.text →
            m'.perform (.dispute d) = .ok (m', r)) ∧
          (setup.unknownLoserPolicy = .text UnknownLoserPolicy.reject.text →
            m'.perform (.dispute d) = .error (.unknownValidator d.loser .loser) ∧
              m'.after (.dispute d) = m') := by
  obtain ⟨addresses, hadmissible, rfl⟩ := exists_admissible_of_ofSetup hm
  have hdistinct := distinct_run (sound_start setup hadmissible).distinct calls
  have hpolicy := rejectsUnknownLosers_run (start setup (SizedRoster.ofAddresses addresses)) calls
  constructor
  · intro sub m' r hperform
    obtain ⟨s, rfl, hcommit⟩ := perform_eq_ok_iff.1 hperform
    exact perform_eq_ok_iff.2 ⟨s, rfl, hcommit.submit_again⟩
  · intro d m' r hmarked hperform
    obtain ⟨s, rfl, hcommit⟩ := perform_eq_ok_iff.1 hperform
    constructor
    · intro hskip
      have hskip' := hpolicy.trans (beq_eq_false_iff_ne.2 hskip)
      exact perform_eq_ok_iff.2 ⟨s, rfl, hcommit.dispute_again hdistinct hmarked hskip'⟩
    · intro hreject
      have hreject' := hpolicy.trans (beq_iff_eq.2 hreject)
      have hrefused := hcommit.perform_dispute_again hdistinct hmarked hreject'
      exact ⟨hrefused, after_of_refused hrefused⟩

/-- The dispute of the quarrel replaces the claim, and confirms it if it is brought
again. -/
theorem retry_is_safe_duo :
    ofSetup .duo = .ok duo ∧ ∃ m' v, (duo.run []).perform Call.verdict = .ok (m', .judged v) ∧
      m'.perform Call.verdict = .ok (m', .judged v) ∧ v = .consensus .twos (.ofDigit 2) := by
  have hreply : ((duo.run []).perform Call.verdict).map Prod.snd =
      .ok (.judged (.consensus .twos (.ofDigit 2))) := by
    decide +kernel
  obtain ⟨⟨m', r⟩, hperform, rfl⟩ := map_eq_ok_iff.1 hreply
  obtain ⟨-, hdispute⟩ := retry_is_safe ofSetup_duo []
  have hmarked : Call.verdict.IsMarked := by
    decide +kernel
  exact ⟨ofSetup_duo, m', _, hperform, (hdispute _ _ _ hmarked hperform).1 (by decide), rfl⟩

end Manager

end EpochClaims
