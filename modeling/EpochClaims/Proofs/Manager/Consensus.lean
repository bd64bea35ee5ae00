import EpochClaims.Proofs.Manager.Invariant

/-!
# A consensus is final

Once the agreement is the goal it stays so until the epoch is closed: a claim
that agrees sets no new bit, one that differs is a conflict, and an eviction
takes the same slot out of both masks. A dispute could only replace the claim
if the agreement were empty, but the winner keeps its slot, so the goal has a
member and the agreement has the same one.
-/

namespace EpochClaims

/-- A verdict that upholds a claim: consensus on it, or a conflict in which
another claim stands against it. -/
def Verdict.StandsBy (x : Claim) : Verdict → Prop
  | .noConflict => False
  | .consensus claim _ => claim = x
  | .conflict current rival _ _ => current = some x ∧ rival ≠ x

/-- A reply that upholds a claim, or closes the epoch with it. -/
def Reply.StandsBy (x : Claim) : Reply → Prop
  | .claimed v => v.StandsBy x
  | .judged v => v.StandsBy x
  | .closed claim => claim = some x

namespace State

variable {n : Nat} {s : State n} {x : Claim}

/-- A state in which all occupied slots endorse a claim. -/
structure Agreed (s : State n) (x : Claim) : Prop where
  claim_eq : s.claim = some x
  agreement_eq : s.agreement = s.goal

theorem Agreed.settled (h : s.Agreed x) (a : Address) : s.settled x a = .consensus x a :=
  settle_eq_consensus_iff.2 ⟨h.agreement_eq, rfl, rfl⟩

/-- Endorsing once more what all endorse changes nothing. -/
theorem Agreed.endorse (h : s.Agreed x) {i : Fin n} (hi : i ∈ s.goal) :
    s.endorse x i = s := by
  have hinsert : s.agreement.insert i = s.agreement := by
    apply Mask.insert_of_mem
    rw [h.agreement_eq]
    exact hi
  rw [State.endorse, hinsert, ← h.claim_eq]

theorem Agreed.agreement_ne_empty (h : s.Agreed x) (hs : s.Sound) :
    s.agreement ≠ Mask.empty := by
  rw [h.agreement_eq]
  exact Mask.ne_empty_iff.2 hs.goal_nonempty

end State

namespace Manager

variable {m : Manager} {x : Claim}

theorem agreed_afterEviction (h : m.state.Agreed x) (loser : Option (Fin m.capacity)) :
    (m.afterEviction loser).Agreed x where
  claim_eq := by rw [claim_afterEviction, h.claim_eq]
  agreement_eq := by
    apply Mask.ext
    intro i
    rw [mem_agreement_afterEviction, mem_goal_afterEviction, h.agreement_eq]

theorem agreed_of_consensus {c : Call} {s : State m.capacity} {r : Reply} {b : Address}
    (h : Committed m c s r) (hv : r.verdict? = some (.consensus x b)) : s.Agreed x :=
  ⟨h.claim_of_consensus hv, (h.verdict hv).1 rfl⟩

/-- A dispute over an agreed state leaves somebody in the agreement: its winner. -/
theorem agreement_ne_empty_of_judge (hm : m.state.Sound) (hx : m.state.Agreed x) {d : Dispute}
    {j : Judged m.capacity} (hj : m.judge d = .ok j) (hmarked : Hex.IsMarked d.loser) :
    (m.afterEviction j.loser).agreement ≠ Mask.empty :=
  (agreed_afterEviction hx j.loser).agreement_ne_empty (sound_afterEviction hm hj hmarked).1

/-- Every way through a call upholds the claim of an agreed state, and all but
closing the epoch leave an agreed state. -/
theorem Committed.upholds {c : Call} {s : State m.capacity} {r : Reply}
    (h : Committed m c s r) (hm : m.state.Sound) (hx : m.state.Agreed x) (hc : c.IsMarked) :
    r.StandsBy x ∧ (¬ m.Closes c → s.Agreed x) := by
  have hrival : ∀ y, m.state.claim ≠ some y → y ≠ x := by
    rintro y hy rfl
    exact hy hx.claim_eq
  cases h with
  | @endorsed _ heard hear hclaim =>
      rw [hx.claim_eq, or_iff_right (Option.some_ne_none x), Option.some.injEq] at hclaim
      rw [← hclaim, hx.endorse (mem_goal_of_hear hm hear), hx.settled]
      exact ⟨rfl, fun _ => hx⟩
  | contradicted _ hclaim _ => exact ⟨⟨hx.claim_eq, hrival _ hclaim.2⟩, fun _ => hx⟩
  | @upheld _ j _ hclaim =>
      have hagreed := agreed_afterEviction hx j.loser
      rw [hx.claim_eq, Option.some.injEq] at hclaim
      rw [← hclaim, hagreed.settled]
      exact ⟨rfl, fun _ => hagreed⟩
  | adopted judge _ hempty =>
      -- This is where the winner has to be another slot than the loser's.
      exact absurd hempty (agreement_ne_empty_of_judge hm hx judge hc)
  | contested _ hclaim _ _ =>
      exact ⟨⟨hx.claim_eq, hrival _ hclaim⟩, fun _ => agreed_afterEviction hx _⟩
  | closed hauth =>
      refine ⟨hx.claim_eq, fun hopen => ?_⟩
      exact absurd ((closes_iff (.closed hauth)).2 ⟨_, rfl⟩) hopen

theorem agreed_run {calls : List Call} (hm : m.state.Sound) (hx : m.state.Agreed x)
    (hcalls : ∀ c ∈ calls, c.IsMarked) (hopen : m.StaysOpen calls) :
    (m.run calls).state.Agreed x := by
  revert hopen
  refine (run_induction
    (P := fun calls m' => m'.state.Sound ∧ (m.StaysOpen calls → m'.state.Agreed x))
    ⟨hm, fun _ => hx⟩ ?_ ?_ calls hcalls).2
  · intro calls c s r ih hc h
    refine ⟨h.sound ih.1 hc, fun hopen => ?_⟩
    obtain ⟨hbefore, hc'⟩ := (m.staysOpen_concat calls c).1 hopen
    exact (h.upholds ih.1 (ih.2 hbefore) hc).2 hc'
  · intro calls c e ih _ _
    refine ⟨ih.1, fun hopen => ?_⟩
    exact ih.2 ((m.staysOpen_concat calls c).1 hopen).1

/-- A call that names a slot as the loser's. -/
def Evicts (m : Manager) (c : Call) (i : Fin m.capacity) : Prop :=
  ∃ d, c = .dispute d ∧ m.state.roster.indexOf d.loser = some i

/-- A committed call takes the slot of its loser out of the goal, if it has a
loser with a slot, and nothing else. -/
theorem Committed.mem_goal {c : Call} {s : State m.capacity} {r : Reply}
    (h : Committed m c s r) {i : Fin m.capacity} :
    i ∈ s.goal ↔ i ∈ m.state.goal ∧ ¬ m.Evicts c i := by
  cases c with
  | submit _ =>
      cases h with
      | endorsed _ _ => simp [Evicts, State.endorse]
      | contradicted _ _ _ => simp [Evicts]
  | dispute d =>
      obtain ⟨j, hj, -, hgoal⟩ := h.exists_judge
      obtain ⟨-, -, -, -, -, hloser⟩ := judge_eq_ok_iff.1 hj
      rw [hgoal, mem_goal_afterEviction, ← (loserSlot_eq_ok_iff.1 hloser).1]
      simp [Evicts, and_comm]
  | advance _ =>
      cases h with
      | closed _ => simp [Evicts, State.close]

/-- A consensus is final: until the epoch is closed its claim stays current and
the agreement stays the goal, which loses the slots of the losers only; every
reply upholds the claim, and the epoch is closed with it. -/
theorem consensus_is_final {d : Option Document} (hm : ofDocument d = .ok m)
    {calls : List Call} (hcalls : ∀ c ∈ calls, c.IsMarked) {c : Call} (hc : c.IsMarked)
    {m₁ : Manager} {r : Reply} {b : Address} (hperform : (m.run calls).perform c = .ok (m₁, r))
    (hverdict : r.verdict? = some (.consensus x b)) {rest : List Call}
    (hrest : ∀ c ∈ rest, c.IsMarked) (hopen : m₁.StaysOpen rest) :
    (m₁.run rest).state.claim = some x ∧
      (m₁.run rest).state.agreement = (m₁.run rest).state.goal ∧
      ∀ next m₂ r', next.IsMarked → (m₁.run rest).perform next = .ok (m₂, r') →
        r'.StandsBy x ∧ ∃ s, m₂ = (m₁.run rest).withState s ∧
          (∀ i, i ∈ s.goal ↔ i ∈ (m₁.run rest).state.goal ∧ ¬ (m₁.run rest).Evicts next i) ∧
          (¬ (m₁.run rest).Closes next → s.claim = some x ∧ s.agreement = s.goal) := by
  obtain ⟨config, -, hadmissible, rfl⟩ := ofDocument_eq_ok_iff.1 hm
  obtain ⟨s₁, rfl, hcommit⟩ := perform_eq_ok_iff.1 hperform
  have hsound := hcommit.sound (sound_run (sound_ofRoster hadmissible) hcalls) hc
  have hconsensus := agreed_of_consensus hcommit hverdict
  have hagreed := agreed_run hsound hconsensus hrest hopen
  refine ⟨hagreed.claim_eq, hagreed.agreement_eq, ?_⟩
  intro next m₂ r' hnext hperform'
  obtain ⟨s, rfl, hcommit'⟩ := perform_eq_ok_iff.1 hperform'
  obtain ⟨hstands, hkept⟩ := hcommit'.upholds (sound_run hsound hrest) hagreed hnext
  refine ⟨hstands, s, rfl, fun i => hcommit'.mem_goal, fun hcloses => ?_⟩
  exact ⟨(hkept hcloses).claim_eq, (hkept hcloses).agreement_eq⟩

/-- The whole quarrel over again does not change the consensus. -/
theorem consensus_is_final_quarrel :
    ∃ m₁ r, (ofRoster Config.duo).perform Call.verdict = .ok (m₁, r) ∧
      r.verdict? = some (.consensus .twos (.ofDigit 2)) ∧ m₁.StaysOpen Call.quarrel ∧
      (m₁.run Call.quarrel).state.claim = some .twos := by
  obtain ⟨s, r, hcommit, hverdict⟩ := committed_verdict
  have hcalls : ∀ c ∈ ([] : List Call), c.IsMarked := List.forall_mem_nil _
  have hmarked : Call.verdict.IsMarked :=
    Call.isMarked_quarrel _ (List.mem_of_getLast? rfl)
  have hperform := perform_eq_ok_iff.2 ⟨s, rfl, hcommit⟩
  have hopen := staysOpen_of_forall_ne Call.ne_advance_quarrel ((ofRoster Config.duo).withState s)
  exact ⟨_, r, hperform, hverdict, hopen,
    (consensus_is_final ofDocument_duo hcalls hmarked hperform hverdict Call.isMarked_quarrel
      hopen).1⟩

end Manager

end EpochClaims
