import EpochClaims.Proofs.Manager.Arrival
import EpochClaims.Proofs.Manager.Chain

/-!
# What a conflict is evidence of

A conflict puts four things on record: the current claim, the claim that was
brought against it, a validator that endorses the former and the one that speaks
for the latter. `Evidence` says where in the states before and after the call each
of them is found. A claim that leads to a conflict changes nothing, and a dispute
that does changes nothing but the slot of its loser (`DropsLoser`).

A conflict arises whenever it can: among calls that pass their checks it depends
only on the current claim and on the slots that endorse it besides the loser's.
-/

namespace EpochClaims

namespace Manager

variable {m : Manager} {c : Call} {s : State m.capacity} {r : Reply} {v : Verdict}
  {x y : Claim} {e o : Address}

/-- Where the claims and the validators of a conflict come from: `x` is the claim
before and after the call, `y` another one that the call hands in, `e` the
validator in the lowest slot that endorses `x` after the call, and `o` the one in
whose name the call is made. -/
structure Evidence (m : Manager) (c : Call) (s : State m.capacity) (x y : Claim)
    (e o : Address) : Prop where
  claim_before : m.state.claim = some x
  claim_after : s.claim = some x
  claim_brought : c.claim? = some y
  text_ne : y.text ≠ x.text
  endorser : ∃ i ∈ s.agreement, (∀ j ∈ s.agreement, i ≤ j) ∧ s.roster.slot i = some e
  speaker : ∃ t i, c.speaker? = some t ∧ m.state.roster.indexOf t = some i ∧
    m.state.roster.slot i = some o

/-- A state that differs from the one of a manager in the slot of a loser only,
which is vacant in it and marked in neither mask. -/
structure DropsLoser (m : Manager) (loser : String) (s : State m.capacity) : Prop where
  claim_eq : s.claim = m.state.claim
  kept : ∀ i, m.state.roster.indexOf loser ≠ some i →
    s.roster.slot i = m.state.roster.slot i ∧ (i ∈ s.goal ↔ i ∈ m.state.goal) ∧
      (i ∈ s.agreement ↔ i ∈ m.state.agreement)
  dropped : ∀ i, m.state.roster.indexOf loser = some i →
    s.roster.slot i = none ∧ i ∉ s.goal ∧ i ∉ s.agreement

theorem dropsLoser_afterEviction (m : Manager) (loser : String) :
    m.DropsLoser loser (m.afterEviction (m.state.roster.indexOf loser)) where
  claim_eq := claim_afterEviction ..
  kept := by
    intro i hi
    rw [slot_afterEviction, if_neg hi, mem_goal_afterEviction, mem_agreement_afterEviction]
    exact ⟨rfl, and_iff_right hi, and_iff_right hi⟩
  dropped := by
    intro i hi
    rw [slot_afterEviction, if_pos hi, mem_goal_afterEviction, mem_agreement_afterEviction]
    exact ⟨rfl, fun h => h.1 hi, fun h => h.1 hi⟩

theorem exists_least_of_endorser {n : Nat} {t : State n} (h : t.endorser = .ok e) :
    ∃ i ∈ t.agreement, (∀ j ∈ t.agreement, i ≤ j) ∧ t.roster.slot i = some e := by
  obtain ⟨i, hleast, hi⟩ := State.endorser_eq_ok_iff.1 h
  exact ⟨i, Mask.mem_of_least? hleast, fun j hj => Mask.le_of_least? hleast hj, hi⟩

theorem text_ne_of_claim_ne (hx : m.state.claim = some x) (hy : m.state.claim ≠ some y) :
    y.text ≠ x.text := by
  intro h
  rw [Claim.text_injective h] at hy
  exact hy hx

theorem result_ne_conflict_of_settled {n : Nat} {t : State n} {a : Address}
    (hv : some (t.settled x a) = some v) : v.result ≠ .conflict := by
  rw [← Option.some.inj hv]
  exact result_settle_ne_conflict x a t.agreement t.goal

/-- A conflict between two claims is evidence of both, in each of the two ways in
which it arises. -/
theorem Committed.evidence (h : Committed m c s r)
    (hheld : ∀ i ∈ m.state.agreement, m.state.claim ≠ none) (hv : r.verdict? = some v)
    (hconflict : v.result = .conflict) :
    ∃ x y e o, v = .conflict (some x) y e o ∧ Evidence m c s x y e o := by
  obtain ⟨x, hx⟩ := Option.ne_none_iff_exists'.1 (h.claim_ne_none hheld hv)
  cases h with
  | endorsed _ _ =>
      exact absurd hconflict (result_ne_conflict_of_settled hv)
  | @contradicted _ heard e hear hclaim hendorser =>
      obtain ⟨-, hread, hindex, hslot⟩ := hear_eq_ok_iff.1 hear
      refine ⟨x, heard.claim, e, heard.sender, ?_, ?_⟩
      · rw [← Option.some.inj hv, hx]
      · refine ⟨hx, hx, ?_, text_ne_of_claim_ne hx hclaim.2, exists_least_of_endorser hendorser,
          _, heard.slot, rfl, hindex, hslot⟩
        rw [Call.claim?, hread]
        rfl
  | upheld _ _ =>
      exact absurd hconflict (result_ne_conflict_of_settled hv)
  | adopted _ _ _ =>
      exact absurd hconflict (result_ne_conflict_of_settled hv)
  | @contested _ j e judge hclaim _ hendorser =>
      obtain ⟨-, hread, hindex, hslot, -⟩ := judge_eq_ok_iff.1 judge
      have hbefore := (claim_afterEviction ..).symm.trans hx
      refine ⟨x, j.claim, e, j.winner, ?_, ?_⟩
      · rw [← Option.some.inj hv, hbefore]
      · refine ⟨hbefore, hx, ?_, text_ne_of_claim_ne hbefore hclaim,
          exists_least_of_endorser hendorser, _, j.slot, rfl, hindex, hslot⟩
        rw [Call.claim?, hread]
        rfl
  | closed _ => contradiction

/-- A claim that leads to a conflict leaves the state as it was. -/
theorem Committed.eq_of_conflict {sub : Submission} (h : Committed m (.submit sub) s r)
    (hv : r.verdict? = some v) (hconflict : v.result = .conflict) : s = m.state := by
  cases h with
  | endorsed _ _ =>
      exact absurd hconflict (result_ne_conflict_of_settled hv)
  | contradicted _ _ _ => rfl

/-- A dispute that leads to a conflict drops its loser and does nothing else. -/
theorem Committed.dropsLoser_of_conflict {d : Dispute} (h : Committed m (.dispute d) s r)
    (hv : r.verdict? = some v) (hconflict : v.result = .conflict) : m.DropsLoser d.loser s := by
  cases h with
  | upheld _ _ =>
      exact absurd hconflict (result_ne_conflict_of_settled hv)
  | adopted _ _ _ =>
      exact absurd hconflict (result_ne_conflict_of_settled hv)
  | contested judge _ _ _ =>
      obtain ⟨-, -, -, -, -, hloser⟩ := judge_eq_ok_iff.1 judge
      rw [← (loserSlot_eq_ok_iff.1 hloser).1]
      exact dropsLoser_afterEviction m d.loser

/-- Against a claim that somebody endorses, any other claim is a conflict. -/
theorem exists_conflict_of_hear (hm : m.state.Sound) {sub : Submission} {h : Heard m.capacity}
    (hear : m.hear sub = .ok h) (hclaim : m.state.claim ≠ some h.claim) {i : Fin m.capacity}
    (hi : i ∈ m.state.agreement) :
    ∃ m' v, m.perform (.submit sub) = .ok (m', .claimed v) ∧ v.result = .conflict := by
  obtain ⟨e, he⟩ := hm.exists_endorser (Mask.ne_empty_iff.2 ⟨i, hi⟩)
  have hcommit := Committed.contradicted hear ⟨hm.claim_ne_none i hi, hclaim⟩ he
  exact ⟨_, _, perform_eq_ok_iff.2 ⟨_, rfl, hcommit⟩, rfl⟩

/-- Against a claim that somebody besides the loser endorses, a dispute won with
another claim is a conflict. -/
theorem exists_conflict_of_judge (hm : m.state.Sound) {d : Dispute} {j : Judged m.capacity}
    (judge : m.judge d = .ok j) (hmarked : Hex.IsMarked d.loser)
    (hclaim : m.state.claim ≠ some j.claim) {i : Fin m.capacity} (hi : i ∈ m.state.agreement)
    (hloser : m.state.roster.indexOf d.loser ≠ some i) :
    ∃ m' v, m.perform (.dispute d) = .ok (m', .judged v) ∧ v.result = .conflict := by
  obtain ⟨-, -, -, -, -, hslot⟩ := judge_eq_ok_iff.1 judge
  rw [(loserSlot_eq_ok_iff.1 hslot).1] at hloser
  have hsome : (m.afterEviction j.loser).agreement ≠ Mask.empty :=
    Mask.ne_empty_iff.2 ⟨i, (m.mem_agreement_afterEviction j.loser).2 ⟨hloser, hi⟩⟩
  obtain ⟨e, he⟩ := (sound_afterEviction hm judge hmarked).1.exists_endorser hsome
  have hcommit := Committed.contested judge hclaim hsome he
  exact ⟨_, _, perform_eq_ok_iff.2 ⟨_, rfl, hcommit⟩, rfl⟩

/-- Whatever calls were made before, a call that leads to a conflict names the
current claim, the claim that it hands in, the lowest endorser of the former and
the validator that it speaks for; a claim leaves the whole manager as it was, and
a dispute drops its loser and changes nothing else. If all losers are written with
the marker, a claim that passes its checks leads to a conflict whenever somebody
endorses another one, and a dispute whenever it is won with another claim than the
current one and somebody besides its loser endorses that. -/
theorem conflict_carries_evidence {setup : Setup} (hm : ofSetup setup = .ok m)
    (calls : List Call) :
    (∀ c m' r v, (m.run calls).perform c = .ok (m', r) → r.verdict? = some v →
        v.result = .conflict →
          ∃ s x y e o, m' = (m.run calls).withState s ∧
            v.outcome = .of .conflict [x.text, y.text] [e.text, o.text] ∧
            x.text ≠ Claim.noneText ∧ Evidence (m.run calls) c s x y e o ∧
            (∀ sub, c = .submit sub → m' = m.run calls) ∧
            ∀ d, c = .dispute d → (m.run calls).DropsLoser d.loser s) ∧
      ((∀ c ∈ calls, c.IsMarked) →
        (∀ sub h x i, (m.run calls).hear sub = .ok h → (m.run calls).state.claim = some x →
            x ≠ h.claim → i ∈ (m.run calls).state.agreement →
              ∃ m' v, (m.run calls).perform (.submit sub) = .ok (m', .claimed v) ∧
                v.result = .conflict) ∧
          ∀ d j i, Hex.IsMarked d.loser → (m.run calls).judge d = .ok j →
            (m.run calls).state.claim ≠ some j.claim → i ∈ (m.run calls).state.agreement →
              (m.run calls).state.roster.indexOf d.loser ≠ some i →
                ∃ m' v, (m.run calls).perform (.dispute d) = .ok (m', .judged v) ∧
                  v.result = .conflict) := by
  obtain ⟨addresses, hadmissible, rfl⟩ := exists_admissible_of_ofSetup hm
  have hstart := sound_start setup hadmissible
  constructor
  · intro c m' r v hperform hv hconflict
    obtain ⟨s, rfl, hcommit⟩ := perform_eq_ok_iff.1 hperform
    obtain ⟨x, y, e, o, rfl, hevidence⟩ :=
      hcommit.evidence (held_run hstart.claim_ne_none calls) hv hconflict
    refine ⟨s, x, y, e, o, rfl, rfl, x.text_ne_noneText, hevidence, ?_, ?_⟩
    · rintro sub rfl
      rw [hcommit.eq_of_conflict hv hconflict]
      rfl
    · rintro d rfl
      exact hcommit.dropsLoser_of_conflict hv hconflict
  · intro hcalls
    have hsound := sound_run hstart hcalls
    constructor
    · intro sub h x i hear hx hne hi
      refine exists_conflict_of_hear hsound hear ?_ hi
      rw [hx]
      exact fun hsame => hne (Option.some.inj hsame)
    · intro d j i hmarked hjudge hclaim hi hloser
      exact exists_conflict_of_judge hsound hjudge hmarked hclaim hi hloser

/-- The dispute of the third validator with the first names the second as the
endorser of the claim that stays, and drops the first. Its claim alone is a
conflict as well. -/
theorem conflict_carries_evidence_trio :
    ofSetup .trio = .ok trio ∧ (∀ c ∈ Call.agreed, c.IsMarked) ∧
      (∃ m' s v, (trio.run Call.agreed).perform (.pressing 0) = .ok (m', .judged v) ∧
        v = .conflict (some .ones) .twos (.ofDigit 2) (.ofDigit 3) ∧
        m' = (trio.run Call.agreed).withState s ∧
        (trio.run Call.agreed).DropsLoser (Address.ofDigit 1).plain s) ∧
      ∃ m' v, (trio.run Call.agreed).perform (.sent 3 .twos) = .ok (m', .claimed v) ∧
        v.result = .conflict := by
  have hm : ofSetup .trio = .ok trio := ofSetup_of_admissible SizedRoster.admissible_trio rfl
  have hcalls : ∀ c ∈ Call.agreed, c.IsMarked := by
    simp [Call.agreed]
  have hreply : ((trio.run Call.agreed).perform (.pressing 0)).map Prod.snd =
      .ok (.judged (.conflict (some .ones) .twos (.ofDigit 2) (.ofDigit 3))) := by
    decide +kernel
  obtain ⟨⟨m', r⟩, hperform, rfl⟩ := map_eq_ok_iff.1 hreply
  have hheard : ((trio.run Call.agreed).hear ⟨.text (Address.ofDigit 9).plain,
      (Address.ofDigit 3).plain, .text Claim.twos.text⟩).map Heard.claim = .ok .twos := by
    decide +kernel
  obtain ⟨h, hear, hclaim⟩ := map_eq_ok_iff.1 hheard
  obtain ⟨hevidence, hconverse⟩ := conflict_carries_evidence hm Call.agreed
  obtain ⟨s, -, -, -, -, hs, -, -, -, -, hdropped⟩ := hevidence _ _ _ _ hperform rfl rfl
  obtain ⟨hagreed, -, hmem⟩ := state_outvoted
  have hne : Claim.ones ≠ h.claim := by
    rw [hclaim]
    decide
  exact ⟨hm, hcalls, ⟨m', s, _, hperform, rfl, hs, hdropped _ rfl⟩,
    (hconverse hcalls).1 _ h _ (outvotedSlot 0) hear hagreed hne ((hmem _).2 (by decide))⟩

end Manager

end EpochClaims
