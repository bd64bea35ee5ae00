import EpochClaims.Proofs.Manager.Run
import EpochClaims.Proofs.Roster.Creation

/-!
# The invariant of a manager

The roster, the goal and the agreement are three records of the same slots.
`State.Sound` says how they hang together, and every call whose loser is
written with the marker keeps it: an eviction takes its slot out of all three,
and an award sets a bit only in a slot that was not evicted just before.
-/

namespace EpochClaims

namespace State

variable {n : Nat}

/-- The goal is the occupied slots and not empty, and the agreement lies inside
it and belongs to a claim. -/
structure Sound (s : State n) : Prop where
  distinct : s.roster.Distinct
  goal_eq : s.goal = s.roster.occupied
  agreement_le : ∀ i ∈ s.agreement, i ∈ s.goal
  goal_nonempty : ∃ i, i ∈ s.goal
  claim_ne_none : ∀ i ∈ s.agreement, s.claim ≠ none

theorem Sound.mem_goal_iff {s : State n} (h : s.Sound) {i : Fin n} :
    i ∈ s.goal ↔ ∃ a, s.roster.slot i = some a := by
  rw [h.goal_eq, Roster.mem_occupied, Option.isSome_iff_exists]

/-- Where somebody agrees, an endorser can be named. -/
theorem Sound.exists_endorser {s : State n} (h : s.Sound) (hsome : s.agreement ≠ Mask.empty) :
    ∃ e, s.endorser = .ok e := by
  obtain ⟨i, hi⟩ := Mask.ne_empty_iff.1 hsome
  obtain ⟨j, hj⟩ := Mask.exists_least? hi
  obtain ⟨a, ha⟩ := h.mem_goal_iff.1 (h.agreement_le j (Mask.mem_of_least? hj))
  refine ⟨a, ?_⟩
  rw [State.endorser, hj]
  simp only [ha]

theorem Sound.endorse {s : State n} (h : s.Sound) {i : Fin n} (hi : i ∈ s.goal)
    (claim : Claim) : (s.endorse claim i).Sound where
  distinct := h.distinct
  goal_eq := h.goal_eq
  agreement_le := by
    intro j hj
    rcases Mask.mem_insert.1 hj with rfl | hj
    · exact hi
    · exact h.agreement_le j hj
  goal_nonempty := h.goal_nonempty
  claim_ne_none := by
    intro j _
    exact Option.some_ne_none claim

theorem Sound.evict {s : State n} (h : s.Sound) {i j : Fin n} (hi : i ∈ s.goal)
    (hij : j ≠ i) : (s.evict j).Sound where
  distinct := Roster.distinct_remove h.distinct j
  goal_eq := by
    apply Mask.ext
    intro k
    rw [State.evict, Mask.mem_erase, h.goal_eq, Roster.mem_occupied, Roster.mem_occupied,
      Roster.slot_remove]
    by_cases hk : j = k
    · simp [hk]
    · simp [hk, Ne.symm hk]
  agreement_le := by
    intro k hk
    obtain ⟨hkj, hmem⟩ := Mask.mem_erase.1 hk
    exact Mask.mem_erase.2 ⟨hkj, h.agreement_le k hmem⟩
  goal_nonempty := ⟨i, Mask.mem_erase.2 ⟨Ne.symm hij, hi⟩⟩
  claim_ne_none := by
    intro k hk
    exact h.claim_ne_none k (Mask.mem_erase.1 hk).2

theorem Sound.close {s : State n} (h : s.Sound) : s.close.Sound where
  distinct := h.distinct
  goal_eq := h.goal_eq
  agreement_le := by
    intro i hi
    exact absurd hi Mask.mem_empty
  goal_nonempty := h.goal_nonempty
  claim_ne_none := by
    intro i hi
    exact absurd hi Mask.mem_empty

end State

namespace Manager

theorem sound_start (setup : Setup) {addresses : List Address}
    (h : SizedRoster.Admissible addresses) :
    (start setup (SizedRoster.ofAddresses addresses)).state.Sound where
  distinct := SizedRoster.distinct_ofAddresses h.nodup
  goal_eq := rfl
  agreement_le := by
    intro i hi
    exact absurd hi Mask.mem_empty
  goal_nonempty := by
    have hslot := SizedRoster.slot_ofAddresses addresses ⟨0, h.length_pos⟩
    exact ⟨⟨0, h.length_pos⟩, Roster.mem_occupied.2 (Option.isSome_iff_exists.2 ⟨_, hslot⟩)⟩
  claim_ne_none := by
    intro i hi
    exact absurd hi Mask.mem_empty

theorem sound_ofRoster {c : Config} (h : SizedRoster.Admissible c.validators) :
    (ofRoster c).state.Sound :=
  sound_start c.setup h

/-- Whoever spells the orchestrator of the configuration is the orchestrator. -/
theorem isOrchestrator_ofRoster {c : Config} {account : Argument} :
    (ofRoster c).IsOrchestrator account ↔ account.address? = some c.orchestrator := by
  have hread : (ofRoster c).orchestrator.address? = some c.orchestrator := by
    rw [ofRoster, start, Config.setup, Argument.address?, Argument.chars?, Option.bind_some,
      Address.ofText?_text]
  rw [IsOrchestrator, hread]
  constructor
  · rintro ⟨a, ha, ho⟩
    rw [ha, ho]
  · intro h
    exact ⟨_, h, rfl⟩

variable {m : Manager}

/-- The eviction that a dispute begins with leaves its winner in place. -/
theorem sound_afterEviction (hm : m.state.Sound) {d : Dispute} {j : Judged m.capacity}
    (hj : m.judge d = .ok j) (hmarked : Hex.IsMarked d.loser) :
    (m.afterEviction j.loser).Sound ∧ j.slot ∈ (m.afterEviction j.loser).goal := by
  obtain ⟨-, -, -, hslot, -⟩ := judge_eq_ok_iff.1 hj
  have hgoal : j.slot ∈ m.state.goal := hm.mem_goal_iff.2 ⟨j.winner, hslot⟩
  cases hloser : j.loser with
  | none => exact ⟨hm, hgoal⟩
  | some k =>
      have hk : k ≠ j.slot := by
        rintro rfl
        exact loser_ne_of_judge hj hmarked hloser
      exact ⟨hm.evict hgoal hk, Mask.mem_erase.2 ⟨Ne.symm hk, hgoal⟩⟩

theorem mem_goal_of_hear (hm : m.state.Sound) {s : Submission} {h : Heard m.capacity}
    (hear : m.hear s = .ok h) : h.slot ∈ m.state.goal := by
  obtain ⟨-, -, -, hslot⟩ := hear_eq_ok_iff.1 hear
  exact hm.mem_goal_iff.2 ⟨h.sender, hslot⟩

/-- Every way through a call keeps the invariant. -/
theorem Committed.sound {c : Call} {s : State m.capacity} {r : Reply}
    (h : Committed m c s r) (hm : m.state.Sound) (hc : c.IsMarked) : s.Sound := by
  cases h with
  | endorsed hear _ => exact hm.endorse (mem_goal_of_hear hm hear) _
  | contradicted _ _ _ => exact hm
  | upheld judge _ => exact (sound_afterEviction hm judge hc).1
  | adopted judge _ _ =>
      obtain ⟨hsound, hslot⟩ := sound_afterEviction hm judge hc
      exact hsound.endorse hslot _
  | contested judge _ _ _ => exact (sound_afterEviction hm judge hc).1
  | closed _ => exact hm.close

/-- A dispute whose checks pass is committed. A submission need not be: it fails
if it differs from a claim whose endorsers were all evicted. -/
theorem committed_of_judge (hm : m.state.Sound) {d : Dispute} {j : Judged m.capacity}
    (hj : m.judge d = .ok j) (hmarked : Hex.IsMarked d.loser) :
    ∃ s r, Committed m (.dispute d) s r := by
  by_cases hclaim : m.state.claim = some j.claim
  · exact ⟨_, _, .upheld hj hclaim⟩
  · by_cases hempty : (m.afterEviction j.loser).agreement = Mask.empty
    · exact ⟨_, _, .adopted hj hclaim hempty⟩
    · obtain ⟨e, he⟩ := (sound_afterEviction hm hj hmarked).1.exists_endorser hempty
      exact ⟨_, _, .contested hj hclaim hempty he⟩

theorem sound_run {calls : List Call} (hm : m.state.Sound)
    (hcalls : ∀ c ∈ calls, c.IsMarked) : (m.run calls).state.Sound :=
  run_induction (P := fun _ m => m.state.Sound) hm
    (fun _ _ _ _ hsound hc h => h.sound hsound hc) (fun _ _ _ hsound _ _ => hsound)
    calls hcalls

theorem capacity_run (m : Manager) (calls : List Call) :
    (m.run calls).capacity = m.capacity :=
  run_induction (P := fun _ m' => m'.capacity = m.capacity) (Q := fun _ => True) rfl
    (fun _ _ _ _ h _ _ => h) (fun _ _ _ h _ _ => h) calls (fun _ _ => trivial)

/-- A consensus is announced only if the agreement is the goal afterwards, and
the lack of a conflict only if it is not. -/
theorem Committed.verdict {c : Call} {s : State m.capacity} {r : Reply} {v : Verdict}
    (h : Committed m c s r) (hv : r.verdict? = some v) :
    (v.result = .consensus → s.agreement = s.goal) ∧
      (v.result = .noConflict → s.agreement ≠ s.goal) := by
  have hsettled : ∀ (t : State m.capacity) (claim : Claim) (a : Address),
      ((t.settled claim a).result = .consensus → t.agreement = t.goal) ∧
        ((t.settled claim a).result = .noConflict → t.agreement ≠ t.goal) := by
    intro t claim a
    rw [State.settled, result_settle]
    by_cases hmasks : t.agreement = t.goal <;> simp [hmasks]
  cases h with
  | endorsed _ _ =>
      cases hv
      exact hsettled _ _ _
  | contradicted _ _ _ =>
      cases hv
      exact ⟨nofun, nofun⟩
  | upheld _ _ =>
      cases hv
      exact hsettled _ _ _
  | adopted _ _ _ =>
      cases hv
      exact hsettled _ _ _
  | contested _ _ _ _ =>
      cases hv
      exact ⟨nofun, nofun⟩
  | closed _ => contradiction

/-- A consensus is one about the claim that is current afterwards. -/
theorem Committed.claim_of_consensus {c : Call} {s : State m.capacity} {r : Reply} {x : Claim}
    {b : Address} (h : Committed m c s r) (hv : r.verdict? = some (.consensus x b)) :
    s.claim = some x := by
  cases h with
  | endorsed _ _ =>
      obtain ⟨-, rfl, -⟩ := settle_eq_consensus_iff.1 (Option.some.inj hv)
      rfl
  | contradicted _ _ _ => cases hv
  | upheld _ hclaim =>
      obtain ⟨-, rfl, -⟩ := settle_eq_consensus_iff.1 (Option.some.inj hv)
      rw [claim_afterEviction, hclaim]
  | adopted _ _ _ =>
      obtain ⟨-, rfl, -⟩ := settle_eq_consensus_iff.1 (Option.some.inj hv)
      rfl
  | contested _ _ _ _ => cases hv
  | closed _ => cases hv

/-- A claim or a dispute leaves a state with a claim. -/
theorem Committed.claim_ne_none {c : Call} {s : State m.capacity} {r : Reply} {v : Verdict}
    (h : Committed m c s r) (hm : ∀ i ∈ m.state.agreement, m.state.claim ≠ none)
    (hv : r.verdict? = some v) : s.claim ≠ none := by
  cases h with
  | endorsed _ _ => exact Option.some_ne_none _
  | contradicted _ hclaim _ => exact hclaim.1
  | @upheld _ j _ hclaim =>
      rw [claim_afterEviction, hclaim]
      exact Option.some_ne_none _
  | adopted _ _ _ => exact Option.some_ne_none _
  | @contested _ j _ _ _ hsome _ =>
      rw [claim_afterEviction]
      obtain ⟨i, hi⟩ := Mask.ne_empty_iff.1 hsome
      exact hm i ((m.mem_agreement_afterEviction j.loser).1 hi).2
  | closed _ => contradiction

/-- However losers are spelled, an agreement belongs to a claim. -/
theorem Committed.held {c : Call} {s : State m.capacity} {r : Reply} (h : Committed m c s r)
    (hm : ∀ i ∈ m.state.agreement, m.state.claim ≠ none) :
    ∀ i ∈ s.agreement, s.claim ≠ none := by
  intro i hi
  cases h with
  | endorsed _ _ => exact Option.some_ne_none _
  | contradicted _ hclaim _ => exact hclaim.1
  | @upheld _ j _ _ =>
      rw [claim_afterEviction]
      exact hm i ((m.mem_agreement_afterEviction j.loser).1 hi).2
  | adopted _ _ _ => exact Option.some_ne_none _
  | @contested _ j _ _ _ _ _ =>
      rw [claim_afterEviction]
      exact hm i ((m.mem_agreement_afterEviction j.loser).1 hi).2
  | closed _ => exact absurd hi Mask.mem_empty

end Manager

/-! A quarrel between two validators: they claim different things, and the second
one wins the dispute. -/

/-- An address in lower case. -/
def Address.plain (a : Address) : String :=
  String.ofList a.key

theorem Address.isMarked_plain (a : Address) : Hex.IsMarked a.plain :=
  Hex.isMarked_iff.2 ⟨_, String.toList_ofList⟩

theorem Address.isSpelledBy_plain (a : Address) : a.IsSpelledBy a.plain := by
  apply lookupKey_of_ofText?
  rw [plain, String.toList_ofList, ofText?_key]

/-- The claim that repeats the digit one. -/
def Claim.ones : Claim :=
  ⟨List.replicate 64 1, .inr List.length_replicate, by decide⟩

/-- The claim that repeats the digit two. -/
def Claim.twos : Claim :=
  ⟨List.replicate 64 2, .inr List.length_replicate, by decide⟩

/-- The setup of the two validators, the orchestrator in lower case. -/
def Setup.duo : Setup :=
  { Config.duo.setup with orchestrator := .text (Address.ofDigit 9).plain }

def Manager.duo : Manager :=
  .start .duo (SizedRoster.ofAddresses Config.duo.validators)

theorem Manager.ofSetup_duo : Manager.ofSetup .duo = .ok .duo :=
  ofSetup_of_admissible SizedRoster.admissible_duo rfl

namespace Call

/-- The dispute of the quarrel, which the second validator wins. -/
def verdict : Call :=
  .dispute ⟨.text (Address.ofDigit 9).plain, (Address.ofDigit 2).plain,
    (Address.ofDigit 1).plain, .text Claim.twos.text⟩

/-- The calls of the quarrel, made by the orchestrator. -/
def quarrel : List Call :=
  [.submit ⟨.text (Address.ofDigit 9).plain, (Address.ofDigit 1).plain, .text Claim.ones.text⟩,
    .submit ⟨.text (Address.ofDigit 9).plain, (Address.ofDigit 2).plain, .text Claim.twos.text⟩,
    verdict]

theorem isMarked_quarrel : ∀ c ∈ quarrel, c.IsMarked := by
  decide +kernel

theorem ne_advance_quarrel : ∀ c ∈ quarrel, ∀ account, c ≠ .advance account := by
  simp [quarrel, verdict]

end Call

namespace Manager

variable {m : Manager}

theorem ofDocument_duo :
    ofDocument (some Config.duo.toDocument) = .ok (ofRoster Config.duo) :=
  ofDocument_toDocument SizedRoster.admissible_duo

theorem isOrchestrator_duo :
    (ofRoster Config.duo).IsOrchestrator (.text (Address.ofDigit 9).plain) :=
  isOrchestrator_ofRoster.2 (by decide +kernel)

theorem isOrchestrator_start_duo : duo.IsOrchestrator (.text (Address.ofDigit 9).plain) :=
  ⟨.ofDigit 9, by decide +kernel, by decide +kernel⟩

/-- In front of the quarrel its dispute is committed and ends with a consensus,
since the loser is out and only the winner is left. -/
theorem committed_verdict :
    ∃ s r, (ofRoster Config.duo).Committed Call.verdict s r ∧
      r.verdict? = some (.consensus .twos (.ofDigit 2)) := by
  have hjudge : (ofRoster Config.duo).judge
      ⟨.text (Address.ofDigit 9).plain, (Address.ofDigit 2).plain, (Address.ofDigit 1).plain,
        .text Claim.twos.text⟩ =
      .ok ⟨.twos, ⟨1, by decide⟩, .ofDigit 2, some ⟨0, by decide⟩⟩ := by
    rw [judge_eq_ok_iff, loserSlot_eq_ok_iff]
    refine ⟨isOrchestrator_duo, Claim.ofArgument_text _, ?_, ?_, ?_, ?_, nofun⟩
    all_goals decide +kernel
  refine ⟨_, _, .adopted hjudge ?_ ?_, ?_⟩
  all_goals decide +kernel

/-- In every state that calls lead to, the goal is the occupied slots and never
empty, the agreement lies inside it and belongs to a claim, and both masks have
as many slots as there were validators; and the verdict of a claim or a dispute
agrees with the masks that it leaves. -/
theorem masks_follow_roster {d : Option Document} (hm : ofDocument d = .ok m)
    {calls : List Call} (hcalls : ∀ c ∈ calls, c.IsMarked) :
    (∃ config, Config.read d = .ok config ∧
        (m.run calls).capacity = config.validators.length) ∧
      (m.run calls).state.goal = (m.run calls).state.roster.occupied ∧
      (m.run calls).state.agreement.isSubsetOf (m.run calls).state.goal = true ∧
      (m.run calls).state.goal.isEmpty = false ∧
      ((m.run calls).state.agreement.isEmpty = false → (m.run calls).state.claim ≠ none) ∧
      ((m.run calls).state.claim = none ∨ ∃ given x, Claim.ofArgument given = .ok x ∧
        (m.run calls).state.claim = some x) ∧
      ∀ c m' r v, c.IsMarked → (m.run calls).perform c = .ok (m', r) → r.verdict? = some v →
        (v.result = .consensus → m'.state.agreement = m'.state.goal) ∧
          (v.result = .noConflict → m'.state.agreement ≠ m'.state.goal) ∧
          m'.state.claim ≠ none := by
  obtain ⟨config, hread, hadmissible, rfl⟩ := ofDocument_eq_ok_iff.1 hm
  have hsound := sound_run (sound_ofRoster hadmissible) hcalls
  refine ⟨⟨config, hread, capacity_run _ calls⟩, hsound.goal_eq,
    Mask.isSubsetOf_iff.2 hsound.agreement_le,
    Mask.isEmpty_eq_false_iff.2 hsound.goal_nonempty, ?_, ?_, ?_⟩
  · intro hagreement
    obtain ⟨i, hi⟩ := Mask.isEmpty_eq_false_iff.1 hagreement
    exact hsound.claim_ne_none i hi
  · cases hclaim : ((ofRoster config).run calls).state.claim with
    | none => exact .inl rfl
    | some x => exact .inr ⟨.text x.text, x, Claim.ofArgument_text x, rfl⟩
  · intro c m' r v _ hperform hv
    obtain ⟨s, rfl, hcommit⟩ := perform_eq_ok_iff.1 hperform
    obtain ⟨hconsensus, hnoConflict⟩ := hcommit.verdict hv
    exact ⟨hconsensus, hnoConflict, hcommit.claim_ne_none hsound.claim_ne_none hv⟩

/-- The invariant after a quarrel that ends with the winner's claim adopted. -/
theorem masks_follow_roster_quarrel :
    ofDocument (some Config.duo.toDocument) = .ok (ofRoster Config.duo) ∧
      (∀ c ∈ Call.quarrel, c.IsMarked) ∧
      ((ofRoster Config.duo).run Call.quarrel).state.goal =
        ((ofRoster Config.duo).run Call.quarrel).state.roster.occupied :=
  ⟨ofDocument_duo, Call.isMarked_quarrel,
    (masks_follow_roster ofDocument_duo Call.isMarked_quarrel).2.1⟩

end Manager

end EpochClaims
