import EpochClaims.Proofs.Manager.Checks
import EpochClaims.Proofs.Mask.Membership

/-!
# Committed calls

`Committed m c s r` lists what a call that is not refused can do: the state `s`
that it leaves and what it returns, with one constructor for each way through
the call. `perform_eq_ok_iff` says that these are all the ways, so an invariant
of the manager needs one case for each of them and never looks into the calls
again. `run_induction` turns a fact about single calls into one about runs.
-/

namespace EpochClaims

/-- The verdict that a reply carries. -/
def Reply.verdict? : Reply → Option Verdict
  | claimed v => some v
  | judged v => some v
  | closed _ => none

theorem settle_eq_consensus_iff {n : Nat} {claim c : Claim} {validator a : Address}
    {agreement goal : Mask n} :
    settle claim validator agreement goal = .consensus c a ↔
      agreement = goal ∧ c = claim ∧ a = validator := by
  rw [settle]
  by_cases h : agreement = goal
  · simp [h, eq_comm]
  · simp [h]

theorem result_settle {n : Nat} (claim : Claim) (validator : Address) (agreement goal : Mask n) :
    (settle claim validator agreement goal).result =
      if agreement = goal then .consensus else .noConflict := by
  rw [settle]
  split <;> rfl

theorem result_settle_ne_conflict {n : Nat} (claim : Claim) (validator : Address)
    (agreement goal : Mask n) :
    (settle claim validator agreement goal).result ≠ .conflict := by
  rw [result_settle]
  split
  · exact nofun
  · exact nofun

namespace State

variable {n : Nat}

theorem ext {s t : State n} (hroster : s.roster = t.roster) (hgoal : s.goal = t.goal)
    (hagreement : s.agreement = t.agreement) (hclaim : s.claim = t.claim) : s = t := by
  cases s
  cases t
  simp_all

/-- The state in which slot `i` endorses a claim, which becomes the current
one. -/
def endorse (s : State n) (claim : Claim) (i : Fin n) : State n :=
  { s with agreement := s.agreement.insert i, claim := some claim }

/-- What a claim or a dispute that leaves a state and agrees with its claim
amounts to. -/
def settled (s : State n) (claim : Claim) (validator : Address) : Verdict :=
  settle claim validator s.agreement s.goal

theorem submit_eq_ok_iff {s s' : State n} {claim : Claim} {i : Fin n} {sender : Address}
    {v : Verdict} :
    s.submit claim i sender = .ok (s', v) ↔
      ((s.claim = none ∨ s.claim = some claim) ∧ s' = s.endorse claim i ∧
          v = (s.endorse claim i).settled claim sender) ∨
        ((s.claim ≠ none ∧ s.claim ≠ some claim) ∧ s' = s ∧
          ∃ e, s.endorser = .ok e ∧ v = .conflict s.claim claim e sender) := by
  rw [submit]
  by_cases h : s.claim = none ∨ s.claim = some claim
  · rw [if_pos h]
    constructor
    · intro hr
      cases hr
      exact .inl ⟨h, rfl, rfl⟩
    · rintro (⟨-, rfl, rfl⟩ | ⟨hclaim, -⟩)
      · rfl
      · exact absurd h (not_or.2 hclaim)
  · rw [if_neg h, map_eq_ok_iff]
    constructor
    · rintro ⟨e, he, hr⟩
      cases hr
      exact .inr ⟨not_or.1 h, rfl, e, he, rfl⟩
    · rintro (⟨hclaim, -⟩ | ⟨-, rfl, e, he, rfl⟩)
      · exact absurd hclaim h
      · exact ⟨e, he, rfl⟩

theorem award_eq_ok_iff {s s' : State n} {claim : Claim} {i : Fin n} {winner : Address}
    {v : Verdict} :
    s.award claim i winner = .ok (s', v) ↔
      (s.claim = some claim ∧ s' = s ∧ v = s.settled claim winner) ∨
        (s.claim ≠ some claim ∧ s.agreement = Mask.empty ∧ s' = s.endorse claim i ∧
          v = (s.endorse claim i).settled claim winner) ∨
        (s.claim ≠ some claim ∧ s.agreement ≠ Mask.empty ∧ s' = s ∧
          ∃ e, s.endorser = .ok e ∧ v = .conflict s.claim claim e winner) := by
  rw [award]
  by_cases h : s.claim = some claim
  · rw [if_pos h]
    constructor
    · intro hr
      cases hr
      exact .inl ⟨h, rfl, rfl⟩
    · rintro (⟨-, rfl, rfl⟩ | ⟨hclaim, -⟩ | ⟨hclaim, -⟩)
      · rfl
      · exact absurd h hclaim
      · exact absurd h hclaim
  · rw [if_neg h]
    by_cases hempty : s.agreement = Mask.empty
    · rw [if_pos (Mask.isEmpty_iff.2 hempty)]
      constructor
      · intro hr
        cases hr
        exact .inr (.inl ⟨h, hempty, rfl, rfl⟩)
      · rintro (⟨hclaim, -⟩ | ⟨-, -, rfl, rfl⟩ | ⟨-, hsome, -⟩)
        · exact absurd hclaim h
        · rfl
        · exact absurd hempty hsome
    · rw [if_neg (mt Mask.isEmpty_iff.1 hempty), map_eq_ok_iff]
      constructor
      · rintro ⟨e, he, hr⟩
        cases hr
        exact .inr (.inr ⟨h, hempty, rfl, e, he, rfl⟩)
      · rintro (⟨hclaim, -⟩ | ⟨-, hnone, -⟩ | ⟨-, -, rfl, e, he, rfl⟩)
        · exact absurd hclaim h
        · exact absurd hnone hempty
        · exact ⟨e, he, rfl⟩

end State

namespace Manager

@[simp] theorem claim_afterEviction (m : Manager) (loser : Option (Fin m.capacity)) :
    (m.afterEviction loser).claim = m.state.claim := by
  cases loser <;> rfl

theorem slot_afterEviction (m : Manager) (loser : Option (Fin m.capacity))
    (i : Fin m.capacity) :
    (m.afterEviction loser).roster.slot i =
      if loser = some i then none else m.state.roster.slot i := by
  cases loser with
  | none => rfl
  | some j =>
      rw [afterEviction, State.evict, Roster.slot_remove]
      simp

theorem slot_afterEviction_eq_some_iff (m : Manager) (loser : Option (Fin m.capacity))
    {i : Fin m.capacity} {a : Address} :
    (m.afterEviction loser).roster.slot i = some a ↔
      loser ≠ some i ∧ m.state.roster.slot i = some a := by
  rw [slot_afterEviction]
  by_cases h : loser = some i
  · simp [h]
  · simp [h]

theorem mem_agreement_afterEviction (m : Manager) (loser : Option (Fin m.capacity))
    {i : Fin m.capacity} :
    i ∈ (m.afterEviction loser).agreement ↔ loser ≠ some i ∧ i ∈ m.state.agreement := by
  cases loser with
  | none => simp [afterEviction]
  | some j =>
      rw [afterEviction, State.evict, Mask.mem_erase]
      simp [eq_comm]

theorem mem_goal_afterEviction (m : Manager) (loser : Option (Fin m.capacity))
    {i : Fin m.capacity} :
    i ∈ (m.afterEviction loser).goal ↔ loser ≠ some i ∧ i ∈ m.state.goal := by
  cases loser with
  | none => simp [afterEviction]
  | some j =>
      rw [afterEviction, State.evict, Mask.mem_erase]
      simp [eq_comm]

/-- The ways through the calls: the state that a call leaves and what it
returns. -/
inductive Committed (m : Manager) : Call → State m.capacity → Reply → Prop where
  | endorsed {s : Submission} {h : Heard m.capacity} (hear : m.hear s = .ok h)
      (hclaim : m.state.claim = none ∨ m.state.claim = some h.claim) :
      Committed m (.submit s) (m.state.endorse h.claim h.slot)
        (.claimed ((m.state.endorse h.claim h.slot).settled h.claim h.sender))
  | contradicted {s : Submission} {h : Heard m.capacity} {e : Address} (hear : m.hear s = .ok h)
      (hclaim : m.state.claim ≠ none ∧ m.state.claim ≠ some h.claim)
      (hendorser : m.state.endorser = .ok e) :
      Committed m (.submit s) m.state
        (.claimed (.conflict m.state.claim h.claim e h.sender))
  | upheld {d : Dispute} {j : Judged m.capacity} (judge : m.judge d = .ok j)
      (hclaim : m.state.claim = some j.claim) :
      Committed m (.dispute d) (m.afterEviction j.loser)
        (.judged ((m.afterEviction j.loser).settled j.claim j.winner))
  | adopted {d : Dispute} {j : Judged m.capacity} (judge : m.judge d = .ok j)
      (hclaim : m.state.claim ≠ some j.claim)
      (hempty : (m.afterEviction j.loser).agreement = Mask.empty) :
      Committed m (.dispute d) ((m.afterEviction j.loser).endorse j.claim j.slot)
        (.judged (((m.afterEviction j.loser).endorse j.claim j.slot).settled j.claim j.winner))
  | contested {d : Dispute} {j : Judged m.capacity} {e : Address} (judge : m.judge d = .ok j)
      (hclaim : m.state.claim ≠ some j.claim)
      (hsome : (m.afterEviction j.loser).agreement ≠ Mask.empty)
      (hendorser : (m.afterEviction j.loser).endorser = .ok e) :
      Committed m (.dispute d) (m.afterEviction j.loser)
        (.judged (.conflict m.state.claim j.claim e j.winner))
  | closed {account : Argument} (hauth : m.IsOrchestrator account) :
      Committed m (.advance account) m.state.close (.closed m.state.claim)

/-- Whatever a dispute ends with, roster and goal are those without its loser. -/
theorem Committed.exists_judge {m : Manager} {d : Dispute} {s : State m.capacity} {r : Reply}
    (h : Committed m (.dispute d) s r) :
    ∃ j, m.judge d = .ok j ∧ s.roster = (m.afterEviction j.loser).roster ∧
      s.goal = (m.afterEviction j.loser).goal := by
  cases h with
  | upheld judge _ => exact ⟨_, judge, rfl, rfl⟩
  | adopted judge _ _ => exact ⟨_, judge, rfl, rfl⟩
  | contested judge _ _ _ => exact ⟨_, judge, rfl, rfl⟩

theorem commit_eq_ok_iff {m m' : Manager} {x : Except Breach (State m.capacity × Verdict)}
    {v : Verdict} :
    m.commit x = .ok (m', v) ↔ ∃ s, x = .ok (s, v) ∧ m' = m.withState s := by
  cases x with
  | error b => simp [commit]
  | ok r =>
      obtain ⟨s, w⟩ := r
      simp only [commit, Except.ok.injEq, Prod.mk.injEq]
      constructor
      · rintro ⟨rfl, rfl⟩
        exact ⟨s, ⟨rfl, rfl⟩, rfl⟩
      · rintro ⟨t, ⟨rfl, rfl⟩, rfl⟩
        exact ⟨rfl, rfl⟩

theorem submit_eq_ok_iff {m m' : Manager} {s : Submission} {v : Verdict} :
    m.submit s = .ok (m', v) ↔
      ∃ next, m' = m.withState next ∧ Committed m (.submit s) next (.claimed v) := by
  rw [submit, bind_eq_ok_iff]
  simp only [commit_eq_ok_iff, State.submit_eq_ok_iff]
  constructor
  · rintro ⟨h, hear, next, ⟨hclaim, rfl, rfl⟩ | ⟨hclaim, rfl, e, he, rfl⟩, rfl⟩
    · exact ⟨_, rfl, .endorsed hear hclaim⟩
    · exact ⟨_, rfl, .contradicted hear hclaim he⟩
  · rintro ⟨next, rfl, hcommit⟩
    cases hcommit with
    | endorsed hear hclaim => exact ⟨_, hear, _, .inl ⟨hclaim, rfl, rfl⟩, rfl⟩
    | contradicted hear hclaim he => exact ⟨_, hear, _, .inr ⟨hclaim, rfl, _, he, rfl⟩, rfl⟩

theorem resolve_eq_ok_iff {m m' : Manager} {d : Dispute} {v : Verdict} :
    m.resolve d = .ok (m', v) ↔
      ∃ next, m' = m.withState next ∧ Committed m (.dispute d) next (.judged v) := by
  rw [resolve, bind_eq_ok_iff]
  simp only [commit_eq_ok_iff, State.award_eq_ok_iff, claim_afterEviction]
  constructor
  · rintro ⟨j, judge, next, h, rfl⟩
    rcases h with ⟨hclaim, rfl, rfl⟩ | ⟨hclaim, hempty, rfl, rfl⟩ | ⟨hclaim, hsome, rfl, e, he, rfl⟩
    · exact ⟨_, rfl, .upheld judge hclaim⟩
    · exact ⟨_, rfl, .adopted judge hclaim hempty⟩
    · exact ⟨_, rfl, .contested judge hclaim hsome he⟩
  · rintro ⟨next, rfl, hcommit⟩
    cases hcommit with
    | upheld judge hclaim => exact ⟨_, judge, _, .inl ⟨hclaim, rfl, rfl⟩, rfl⟩
    | adopted judge hclaim hempty =>
        exact ⟨_, judge, _, .inr (.inl ⟨hclaim, hempty, rfl, rfl⟩), rfl⟩
    | contested judge hclaim hsome he =>
        exact ⟨_, judge, _, .inr (.inr ⟨hclaim, hsome, rfl, _, he, rfl⟩), rfl⟩

theorem advance_eq_ok_iff {m m' : Manager} {account : Argument} {claim : Option Claim} :
    m.advance account = .ok (m', claim) ↔
      ∃ next, m' = m.withState next ∧ Committed m (.advance account) next (.closed claim) := by
  rw [advance, bind_eq_ok_iff]
  constructor
  · rintro ⟨⟨⟩, hauth, h⟩
    cases h
    exact ⟨_, rfl, .closed (authorize_eq_ok_iff.1 hauth)⟩
  · rintro ⟨next, rfl, hcommit⟩
    cases hcommit with
    | closed hauth => exact ⟨(), authorize_eq_ok_iff.2 hauth, rfl⟩

/-- A call is performed in one of the listed ways, or refused. -/
theorem perform_eq_ok_iff {m m' : Manager} {c : Call} {r : Reply} :
    m.perform c = .ok (m', r) ↔ ∃ s, m' = m.withState s ∧ Committed m c s r := by
  cases c with
  | submit s =>
      rw [perform, map_eq_ok_iff]
      constructor
      · rintro ⟨⟨_, v⟩, hsubmit, h⟩
        cases h
        exact submit_eq_ok_iff.1 hsubmit
      · rintro ⟨next, rfl, hcommit⟩
        obtain ⟨v, rfl⟩ : ∃ v, r = .claimed v := by cases hcommit <;> exact ⟨_, rfl⟩
        exact ⟨(_, v), submit_eq_ok_iff.2 ⟨next, rfl, hcommit⟩, rfl⟩
  | dispute d =>
      rw [perform, map_eq_ok_iff]
      constructor
      · rintro ⟨⟨_, v⟩, hresolve, h⟩
        cases h
        exact resolve_eq_ok_iff.1 hresolve
      · rintro ⟨next, rfl, hcommit⟩
        obtain ⟨v, rfl⟩ : ∃ v, r = .judged v := by cases hcommit <;> exact ⟨_, rfl⟩
        exact ⟨(_, v), resolve_eq_ok_iff.2 ⟨next, rfl, hcommit⟩, rfl⟩
  | advance account =>
      rw [perform, map_eq_ok_iff]
      constructor
      · rintro ⟨⟨_, claim⟩, hadvance, h⟩
        cases h
        exact advance_eq_ok_iff.1 hadvance
      · rintro ⟨next, rfl, hcommit⟩
        obtain ⟨claim, rfl⟩ : ∃ claim, r = .closed claim := by cases hcommit; exact ⟨_, rfl⟩
        exact ⟨(_, claim), advance_eq_ok_iff.2 ⟨next, rfl, hcommit⟩, rfl⟩

end Manager

end EpochClaims
