import EpochClaims.Proofs.Manager.Dispute
import EpochClaims.Proofs.Manager.Eviction

/-!
# From a conflict to a dispute

A conflict names two validators: the one in the lowest slot that endorses the
current claim, and the one that the call speaks for. A dispute between them can
follow in either direction, provided that they are two. They need not be:
nothing keeps a validator from endorsing the first claim of an epoch and sending
another one afterwards, and `conflict_with_oneself` is the conflict that it has
with itself then.
-/

namespace EpochClaims

theorem Address.isMarked_text (a : Address) : Hex.IsMarked a.text :=
  Hex.isMarked_iff.2 ⟨_, String.toList_ofList⟩

/-- The validator that a claim or a dispute speaks for: its sender or its winner. -/
def Call.speaker? : Call → Option String
  | .submit s => some s.validator
  | .dispute d => some d.winner
  | .advance _ => none

namespace Manager

variable {m : Manager} {c : Call} {s : State m.capacity} {r : Reply} {current : Option Claim}
  {rival : Claim} {e o : Address}

theorem settled_ne_conflict {n : Nat} (s : State n) (claim : Claim) (a : Address) :
    s.settled claim a ≠ .conflict current rival e o := by
  intro h
  exact result_settle_ne_conflict claim a s.agreement s.goal (congrArg Verdict.result h)

/-- What a conflict tells of the state that it leaves. -/
structure Conflicting (s : State m.capacity) (current : Option Claim) (rival : Claim)
    (e : Address) : Prop where
  claim_eq : s.claim = current
  current_ne : current ≠ some rival
  endorser_eq : s.endorser = .ok e

theorem Committed.conflicting (h : Committed m c s r)
    (hv : r.verdict? = some (.conflict current rival e o)) :
    Conflicting s current rival e ∧ ¬ m.Closes c ∧ ∀ a x, ¬ m.Endorses c a x := by
  have hopen : ¬ m.Closes c := by
    rw [closes_iff h]
    rintro ⟨claim, rfl⟩
    contradiction
  cases h with
  | endorsed _ _ => exact absurd (Option.some.inj hv) (settled_ne_conflict _ _ _)
  | contradicted hear hclaim hendorser =>
      have hcommit := Committed.contradicted hear hclaim hendorser
      cases hv
      exact ⟨⟨rfl, hclaim.2, hendorser⟩, hopen, fun a x => not_endorses_of_conflict hcommit⟩
  | upheld _ _ => exact absurd (Option.some.inj hv) (settled_ne_conflict _ _ _)
  | adopted _ _ _ => exact absurd (Option.some.inj hv) (settled_ne_conflict _ _ _)
  | contested judge hclaim hsome hendorser =>
      have hcommit := Committed.contested judge hclaim hsome hendorser
      cases hv
      refine ⟨⟨claim_afterEviction _ _, hclaim, hendorser⟩, hopen, fun a x => ?_⟩
      exact not_endorses_of_claim_eq hcommit (claim_afterEviction _ _)
  | closed _ => contradiction

/-- The second validator of a conflict is the one that the call speaks for. -/
theorem Committed.speaker_of_conflict (h : Committed m c s r)
    (hv : r.verdict? = some (.conflict current rival e o)) :
    ∃ t, c.speaker? = some t ∧ o.IsSpelledBy t := by
  cases h with
  | endorsed _ _ => exact absurd (Option.some.inj hv) (settled_ne_conflict _ _ _)
  | @contradicted s heard _ hear _ _ =>
      cases hv
      obtain ⟨-, -, hindex, hslot⟩ := hear_eq_ok_iff.1 hear
      exact ⟨s.validator, rfl, (slot_eq_some_iff_isSpelledBy hindex).1 hslot⟩
  | upheld _ _ => exact absurd (Option.some.inj hv) (settled_ne_conflict _ _ _)
  | adopted _ _ _ => exact absurd (Option.some.inj hv) (settled_ne_conflict _ _ _)
  | @contested d j _ judge _ _ _ =>
      cases hv
      obtain ⟨-, -, hindex, hslot, -⟩ := judge_eq_ok_iff.1 judge
      exact ⟨d.winner, rfl, (slot_eq_some_iff_isSpelledBy hindex).1 hslot⟩
  | closed _ => contradiction

/-- The orchestrator can bring a dispute between any two validators that hold
slots. -/
theorem exists_perform_dispute (hm : m.state.Sound) {account : Argument}
    (hauth : m.IsOrchestrator account) {a b : Address} (ha : m.IsMember a) (hb : m.IsMember b)
    (hab : a ≠ b) (x : Claim) :
    ∃ m' r, m.perform (.dispute ⟨account, a.text, b.text, .text x.text⟩) = .ok (m', r) := by
  obtain ⟨i, hi⟩ := ha
  obtain ⟨j, hj⟩ := hb
  have hwinner := Roster.indexOf_of_ofText? hm.distinct (Address.ofText?_text a) hi
  have hloser := Roster.indexOf_of_ofText? hm.distinct (Address.ofText?_text b) hj
  have hjudge : m.judge ⟨account, a.text, b.text, .text x.text⟩ = .ok ⟨x, i, a, some j⟩ := by
    rw [judge_eq_ok_iff, loserSlot_eq_ok_iff]
    refine ⟨hauth, Claim.ofArgument_text x, hwinner, hi, ?_, hloser, nofun⟩
    rw [Address.ofText?_text]
    intro hba
    exact hab (Option.some.inj hba).symm
  obtain ⟨s, r, hcommit⟩ := committed_of_judge hm hjudge (Address.isMarked_text b)
  exact ⟨_, r, perform_eq_ok_iff.2 ⟨s, rfl, hcommit⟩⟩

/-- A conflict is one with the current claim. It names the validator in the lowest
slot that endorsed this claim, and the one that the call speaks for. They are two
unless the latter endorsed the current claim itself, and whenever they are two
the orchestrator can bring the dispute between them in either direction. -/
theorem conflict_leads_to_dispute {setup : Setup} (hm : ofSetup setup = .ok m)
    {calls : List Call} (hcalls : ∀ c ∈ calls, c.IsMarked) (hc : c.IsMarked) {m' : Manager}
    (hperform : (m.run calls).perform c = .ok (m', r))
    (hverdict : r.verdict? = some (.conflict current rival e o)) :
    ∃ x, current = some x ∧ m'.state.claim = some x ∧ x ≠ rival ∧
      (∃ t, c.speaker? = some t ∧ o.IsSpelledBy t) ∧
      (∃ i, m'.state.roster.slot i = some e ∧ m.Endorsed calls e x ∧
        ∀ j a, j < i → m'.state.roster.slot j = some a → ¬ m.Endorsed calls a x) ∧
      (¬ m.Endorsed calls o x → e ≠ o) ∧
      (e ≠ o → ∀ account, m'.IsOrchestrator account →
        (∃ m'' r', m'.perform (.dispute ⟨account, e.text, o.text, .text x.text⟩) =
            .ok (m'', r')) ∧
          ∃ m'' r', m'.perform (.dispute ⟨account, o.text, e.text, .text rival.text⟩) =
            .ok (m'', r')) := by
  obtain ⟨addresses, hadmissible, rfl⟩ := exists_admissible_of_ofSetup hm
  obtain ⟨s, rfl, hcommit⟩ := perform_eq_ok_iff.1 hperform
  obtain ⟨hsound, hrec⟩ := records_run (sound_start setup hadmissible) rfl hcalls
  obtain ⟨hconflict, hopen, hendorses⟩ := hcommit.conflicting hverdict
  have hsound' := hcommit.sound hsound hc
  -- The call endorses nothing, so its state records what the calls before it endorsed.
  have hrec' : ∀ i a x, s.roster.slot i = some a →
      ((start setup (SizedRoster.ofAddresses addresses)).Endorsed calls a x ↔
        s.claim = some x ∧ i ∈ s.agreement) := by
    intro i a x hi
    rw [← hrec.committed hsound hc hcommit i a x hi, endorsed_concat,
      or_iff_left (hendorses a x), and_iff_left hopen]
  obtain ⟨i, hleast, hi⟩ := State.endorser_eq_ok_iff.1 hconflict.endorser_eq
  have hmem := Mask.mem_of_least? hleast
  obtain ⟨x, hx⟩ := Option.ne_none_iff_exists'.1 (hsound'.claim_ne_none i hmem)
  have hcurrent : current = some x := hconflict.claim_eq.symm.trans hx
  have hendorsed := (hrec' i e x hi).2 ⟨hx, hmem⟩
  refine ⟨x, hcurrent, hx, ?_, hcommit.speaker_of_conflict hverdict, ⟨i, hi, hendorsed, ?_⟩, ?_, ?_⟩
  · rintro rfl
    exact hconflict.current_ne hcurrent
  · intro j a hji hj hendorsed'
    have hle := Mask.le_of_least? hleast ((hrec' j a x hj).1 hendorsed').2
    exact absurd hji (Nat.not_lt.2 hle)
  · rintro hnot rfl
    exact hnot hendorsed
  · intro hne account hauth
    have he : e ∈ (Verdict.conflict current rival e o).validators := List.mem_cons_self
    have ho : o ∈ (Verdict.conflict current rival e o).validators :=
      List.mem_cons_of_mem e List.mem_cons_self
    have he' := hcommit.isMember_of_mem_validators hc hverdict he
    have ho' := hcommit.isMember_of_mem_validators hc hverdict ho
    exact ⟨exists_perform_dispute hsound' hauth he' ho' hne x,
      exists_perform_dispute hsound' hauth ho' he' hne.symm rival⟩

end Manager

/-- One of the two validators sends a claim. -/
def Call.sent (d : Hex.Digit) (x : Claim) : Call :=
  .submit ⟨.text (Address.ofDigit 9).plain, (Address.ofDigit d).plain, .text x.text⟩

@[simp] theorem Call.isMarked_sent (d : Hex.Digit) (x : Claim) : (Call.sent d x).IsMarked :=
  trivial

namespace Manager

/-- If the second validator contradicts the first, their dispute can follow. -/
theorem conflict_leads_to_dispute_duo :
    ∃ m' r, (duo.run [.sent 1 .ones]).perform (.sent 2 .twos) = .ok (m', r) ∧
      r.verdict? = some (.conflict (some .ones) .twos (.ofDigit 1) (.ofDigit 2)) ∧
      ∀ account, m'.IsOrchestrator account →
        ∃ m'' r', m'.perform (.dispute ⟨account, (Address.ofDigit 1).text,
          (Address.ofDigit 2).text, .text Claim.ones.text⟩) = .ok (m'', r') := by
  have hreply : ((duo.run [.sent 1 .ones]).perform (.sent 2 .twos)).map Prod.snd =
      .ok (.claimed (.conflict (some .ones) .twos (.ofDigit 1) (.ofDigit 2))) := by
    decide +kernel
  obtain ⟨⟨m', r⟩, hperform, rfl⟩ := map_eq_ok_iff.1 hreply
  obtain ⟨x, hx, -, -, -, -, -, hdisputes⟩ := conflict_leads_to_dispute ofSetup_duo
    (by simp) (by simp) hperform rfl
  obtain rfl := Option.some.inj hx
  exact ⟨m', _, hperform, rfl, fun account hauth => (hdisputes (by decide) account hauth).1⟩

/-- Both validators endorse a claim and the first then sends another one. The
conflict names the first validator twice, since it is the lowest endorser, and
no dispute can follow, since winner and loser would be the same. -/
theorem conflict_with_oneself :
    (∀ c ∈ [Call.sent 1 .ones, .sent 2 .ones, .sent 1 .twos], c.IsMarked) ∧
      ∃ m' r, (duo.run [.sent 1 .ones, .sent 2 .ones]).perform (.sent 1 .twos) = .ok (m', r) ∧
        r.verdict? = some (.conflict (some .ones) .twos (.ofDigit 1) (.ofDigit 1)) ∧
        ∀ account x, m'.IsOrchestrator account →
          m'.perform (.dispute ⟨account, (Address.ofDigit 1).text, (Address.ofDigit 1).text,
            .text (Claim.text x)⟩) = .error (.selfDispute (.ofDigit 1)) := by
  have hreply : ((duo.run [.sent 1 .ones, .sent 2 .ones]).perform (.sent 1 .twos)).map Prod.snd =
      .ok (.claimed (.conflict (some .ones) .twos (.ofDigit 1) (.ofDigit 1))) := by
    decide +kernel
  obtain ⟨⟨m', r⟩, hperform, rfl⟩ := map_eq_ok_iff.1 hreply
  have hm' : m' = duo.run ([.sent 1 .ones, .sent 2 .ones] ++ [.sent 1 .twos]) := by
    rw [run_concat, after, hperform]
  have hslot : (duo.run ([.sent 1 .ones, .sent 2 .ones] ++ [.sent 1 .twos])).slot? 0 =
      some (.ofDigit 1) := by
    decide +kernel
  rw [← hm'] at hslot
  have hdistinct : m'.state.roster.Distinct := by
    rw [hm']
    exact distinct_run (sound_start .duo SizedRoster.admissible_duo).distinct _
  refine ⟨by simp, m', _, hperform, rfl, fun account x hauth => ?_⟩
  obtain ⟨i, -, hi⟩ := slot?_eq_some_iff.1 hslot
  have hindex := Roster.indexOf_of_ofText? hdistinct (Address.ofText?_text (.ofDigit 1)) hi
  obtain ⟨a, ha, hrefused⟩ := perform_self_dispute
    (d := ⟨account, _, _, .text (Claim.text x)⟩) (Address.isMarked_text _) hauth
    (Claim.ofArgument_text x) hindex hindex
  obtain rfl := Option.some.inj (ha.symm.trans hi)
  exact hrefused

end Manager

end EpochClaims
