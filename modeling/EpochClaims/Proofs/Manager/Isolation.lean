import EpochClaims.Proofs.Manager.Conflict
import EpochClaims.Proofs.Manager.Replies

/-!
# What a closed epoch leaves behind

Of all that a run does, the manager keeps three things: which slots were
vacated, the claim of the epoch and who agrees with it. Closing the epoch drops
the last two, so `exists_run_of_closes` gives the manager behind a closed epoch
from the manager at the start and `Evicted`, the set of slots vacated on the
way. Neither the claims and votes of the epochs nor the order of the evictions
has a part in it.
-/

namespace EpochClaims

namespace Manager

variable {m : Manager} {c : Call} {calls : List Call} {a : Address} {k : Nat}

/-- Some call of a run vacates slot `k`. -/
def Evicted (m : Manager) : List Call → Nat → Prop
  | [], _ => False
  | c :: calls, k => m.Vacates c k ∨ (m.after c).Evicted calls k

@[simp] theorem not_evicted_nil (m : Manager) (k : Nat) : ¬ m.Evicted [] k := id

theorem evicted_cons (m : Manager) (c : Call) (calls : List Call) (k : Nat) :
    m.Evicted (c :: calls) k ↔ m.Vacates c k ∨ (m.after c).Evicted calls k :=
  Iff.rfl

theorem evicted_append (m : Manager) (calls more : List Call) (k : Nat) :
    m.Evicted (calls ++ more) k ↔ m.Evicted calls k ∨ (m.run calls).Evicted more k := by
  induction calls generalizing m with
  | nil => simp
  | cons c calls ih =>
      rw [List.cons_append, evicted_cons, evicted_cons, ih, run_cons, or_assoc]

theorem evicted_concat (m : Manager) (calls : List Call) (c : Call) (k : Nat) :
    m.Evicted (calls ++ [c]) k ↔ m.Evicted calls k ∨ (m.run calls).Vacates c k := by
  rw [evicted_append, evicted_cons, or_iff_left (not_evicted_nil _ k)]

theorem not_vacates_of_closes (h : m.Closes c) : ¬ m.Vacates c k := by
  obtain ⟨account, rfl⟩ := closes_advance_only h
  rintro ⟨d, -, -, hd, -⟩
  contradiction

theorem evicted_concat_of_closes (h : (m.run calls).Closes c) :
    m.Evicted (calls ++ [c]) k ↔ m.Evicted calls k := by
  rw [evicted_concat, or_iff_left (not_vacates_of_closes h)]

/-- The slots along a run are those of the start without the vacated ones. -/
theorem slot?_run (hm : m.state.roster.Distinct) (calls : List Call) :
    (m.run calls).slot? k = some a ↔ m.slot? k = some a ∧ ¬ m.Evicted calls k := by
  induction calls generalizing m with
  | nil => simp
  | cons c calls ih =>
      have hafter : (m.after c).state.roster.Distinct := distinct_run hm [c]
      rw [run_cons, ih hafter, slot?_after hm, evicted_cons, not_or, and_assoc]

/-- A slot is vacated if it held a validator and is vacant now. -/
theorem evicted_iff (hm : m.state.roster.Distinct) (calls : List Call) :
    m.Evicted calls k ↔ (∃ a, m.slot? k = some a) ∧ (m.run calls).slot? k = none := by
  constructor
  · intro h
    constructor
    · induction calls generalizing m with
      | nil => exact absurd h (not_evicted_nil m k)
      | cons c calls ih =>
          rcases h with ⟨-, -, a, -, -, ha, -⟩ | h
          · exact ⟨a, ha⟩
          · obtain ⟨a, ha⟩ := ih (m := m.after c) (distinct_run hm [c]) h
            exact ⟨a, ((slot?_after hm c).1 ha).1⟩
    · exact Option.eq_none_iff_forall_ne_some.2 fun a ha => ((slot?_run hm calls).1 ha).2 h
  · rintro ⟨⟨a, ha⟩, hvacant⟩
    by_contra hnot
    rw [(slot?_run hm calls).2 ⟨ha, hnot⟩] at hvacant
    contradiction

/-- Calls change nothing but the state. -/
theorem exists_run_eq_withState (m : Manager) (calls : List Call) :
    ∃ s, m.run calls = m.withState s := by
  refine run_induction (P := fun _ m' => ∃ s, m' = m.withState s) (Q := fun _ => True)
    ⟨m.state, rfl⟩ ?_ (fun _ _ _ ih _ _ => ih) calls (fun _ _ => trivial)
  rintro calls c s r ⟨t, ht⟩ - -
  revert s
  rw [ht]
  exact fun s => ⟨s, rfl⟩

theorem after_of_closes (h : m.Closes c) : m.after c = m.withState m.state.close := by
  obtain ⟨m', claim, hperform⟩ := h
  obtain ⟨s, rfl, hcommit⟩ := perform_eq_ok_iff.1 hperform
  rw [after_of_committed hcommit]
  cases hcommit with
  | closed _ => rfl

/-- The orchestrator can close the epoch at any time. -/
theorem closes_of_isOrchestrator {account : Argument} (h : m.IsOrchestrator account)
    (calls : List Call) : (m.run calls).Closes (.advance account) := by
  obtain ⟨s, hs⟩ := exists_run_eq_withState m calls
  have hauth : (m.withState s).IsOrchestrator account := h
  rw [hs, closes_iff (.closed hauth)]
  exact ⟨_, rfl⟩

/-- The manager behind a closed epoch. -/
theorem exists_run_of_closes (hm : m.state.roster.Distinct)
    (hgoal : m.state.goal = m.state.roster.occupied) (hc : (m.run calls).Closes c) :
    ∃ s, m.run (calls ++ [c]) = m.withState s ∧ s.claim = none ∧ s.agreement = Mask.empty ∧
      s.goal = s.roster.occupied ∧
      ∀ i a, s.roster.slot i = some a ↔
        m.state.roster.slot i = some a ∧ ¬ m.Evicted (calls ++ [c]) i := by
  have hgoal' := goal_run hgoal calls
  have hslots : ∀ (i : Fin m.capacity) a, (m.run calls).slot? i = some a ↔
      m.state.roster.slot i = some a ∧ ¬ m.Evicted (calls ++ [c]) i := by
    intro i a
    rw [slot?_run hm, slot?_val, evicted_concat_of_closes hc]
  obtain ⟨s, hs⟩ := exists_run_eq_withState m calls
  rw [hs] at hc hgoal' hslots
  refine ⟨s.close, ?_, rfl, rfl, hgoal', fun i a => ?_⟩
  · rw [run_concat, hs, after_of_closes hc]
    rfl
  · have hval : s.close.roster.slot i = (m.withState s).slot? i :=
      (slot?_val (m.withState s) i).symm
    rw [hval, hslots]

/-- What comes after a closed epoch depends on who was evicted before, and on
nothing else: after two runs of managers with one setup that end by closing an
epoch and have vacated the same slots, the managers are equal, and whatever is
called next, they return the same, announce the same and go through the same
states. -/
theorem epochs_are_isolated {setup : Setup} {m₁ m₂ : Manager} (hm₁ : ofSetup setup = .ok m₁)
    (hm₂ : ofSetup setup = .ok m₂) {calls₁ calls₂ : List Call} {c₁ c₂ : Call}
    (hc₁ : (m₁.run calls₁).Closes c₁) (hc₂ : (m₂.run calls₂).Closes c₂)
    (hsame : ∀ k, m₁.Evicted (calls₁ ++ [c₁]) k ↔ m₂.Evicted (calls₂ ++ [c₂]) k) :
    m₁.run (calls₁ ++ [c₁]) = m₂.run (calls₂ ++ [c₂]) ∧
      ∀ more,
        (m₁.run (calls₁ ++ [c₁])).replies more = (m₂.run (calls₂ ++ [c₂])).replies more ∧
          ((m₁.run (calls₁ ++ [c₁])).replied more).map Reply.event =
            ((m₂.run (calls₂ ++ [c₂])).replied more).map Reply.event ∧
          m₁.run (calls₁ ++ [c₁] ++ more) = m₂.run (calls₂ ++ [c₂] ++ more) := by
  have heq : m₁.run (calls₁ ++ [c₁]) = m₂.run (calls₂ ++ [c₂]) := by
    obtain rfl : m₁ = m₂ := Except.ok.inj (hm₁.symm.trans hm₂)
    obtain ⟨addresses, hadmissible, rfl⟩ := exists_admissible_of_ofSetup hm₁
    have hstart := sound_start setup hadmissible
    obtain ⟨s₁, hrun₁, hclaim₁, hagreement₁, hgoal₁, hslots₁⟩ :=
      exists_run_of_closes hstart.distinct hstart.goal_eq hc₁
    obtain ⟨s₂, hrun₂, hclaim₂, hagreement₂, hgoal₂, hslots₂⟩ :=
      exists_run_of_closes hstart.distinct hstart.goal_eq hc₂
    have hroster : s₁.roster = s₂.roster := by
      refine Roster.ext fun i => Option.ext fun a => ?_
      rw [hslots₁, hslots₂, hsame]
    rw [hrun₁, hrun₂]
    congr 1
    refine State.ext hroster ?_ (hagreement₁.trans hagreement₂.symm)
      (hclaim₁.trans hclaim₂.symm)
    rw [hgoal₁, hgoal₂, hroster]
  refine ⟨heq, fun more => ?_⟩
  rw [run_append m₁ _ more, run_append m₂ _ more, heq]
  exact ⟨rfl, rfl, rfl⟩

/-- Behind a closed epoch the quarrel has left as much as its dispute alone. -/
theorem epochs_are_isolated_duo :
    ofSetup .duo = .ok duo ∧ ∃ c, (duo.run Call.quarrel).Closes c ∧
      (duo.run [Call.verdict]).Closes c ∧
      (∀ k, duo.Evicted (Call.quarrel ++ [c]) k ↔ duo.Evicted ([Call.verdict] ++ [c]) k) ∧
      duo.run (Call.quarrel ++ [c]) = duo.run ([Call.verdict] ++ [c]) := by
  have hdistinct : duo.state.roster.Distinct :=
    (sound_start .duo SizedRoster.admissible_duo).distinct
  obtain ⟨c, hc⟩ : ∃ c, ∀ calls, (duo.run calls).Closes c :=
    ⟨_, closes_of_isOrchestrator isOrchestrator_start_duo⟩
  have hslots : (duo.run Call.quarrel).slot? 0 = (duo.run [Call.verdict]).slot? 0 ∧
      (duo.run Call.quarrel).slot? 1 = (duo.run [Call.verdict]).slot? 1 := by
    decide +kernel
  have hsame : ∀ k, duo.Evicted (Call.quarrel ++ [c]) k ↔
      duo.Evicted ([Call.verdict] ++ [c]) k := by
    intro k
    rw [evicted_concat_of_closes (hc _), evicted_concat_of_closes (hc _),
      evicted_iff hdistinct, evicted_iff hdistinct]
    match k with
    | 0 => rw [hslots.1]
    | 1 => rw [hslots.2]
    | k + 2 =>
        have hnone : duo.slot? (k + 2) = none := dif_neg (Nat.not_lt.2 (Nat.le_add_left 2 k))
        simp [hnone]
  exact ⟨ofSetup_duo, c, hc _, hc _, hsame,
    (epochs_are_isolated ofSetup_duo ofSetup_duo (hc _) (hc _) hsame).1⟩

end Manager

end EpochClaims
