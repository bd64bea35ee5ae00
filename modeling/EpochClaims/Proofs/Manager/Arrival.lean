import EpochClaims.Proofs.Manager.Conflict
import EpochClaims.Proofs.Manager.Replies

/-!
# The order in which claims arrive

The first claim of an epoch becomes the current one, and the claims that follow
either agree with it or contradict it. So a row of claims without a dispute in
between has a closed form, `Tallied`: the agreement is the set of slots that
brought the first claim, and nothing else changed. `Tallied.next` is one call,
`tallied_run` a row of them. The closed form does not mention the order of the
calls, hence their order does not matter as long as the first claim stays first.
-/

namespace EpochClaims

/-- The claim that a call hands in, if it is one. -/
def Call.claim? : Call → Option Claim
  | .submit s => (Claim.ofArgument s.claim).toOption
  | .dispute d => (Claim.ofArgument d.winningClaim).toOption
  | .advance _ => none

namespace Manager

/-- A manager that waits for the first claim of an epoch. -/
structure Waits (m : Manager) : Prop where
  distinct : m.state.roster.Distinct
  goal_eq : m.state.goal = m.state.roster.occupied
  agreement_eq : m.state.agreement = Mask.empty
  claim_eq : m.state.claim = none

/-- A call by which the orchestrator brings a claim of the validator in slot `i`. -/
inductive Brings (m : Manager) : Call → Fin m.capacity → Claim → Prop where
  | submit {s : Submission} {i : Fin m.capacity} {a : Address} {x : Claim}
      (hauth : m.IsOrchestrator s.account) (hclaim : Claim.ofArgument s.claim = .ok x)
      (hslot : m.state.roster.slot i = some a) (hsender : a.IsSpelledBy s.validator) :
      Brings m (.submit s) i x

/-- Every slot of the goal brings `x` in one of the calls. -/
def Covers (m : Manager) (votes : List Call) (x : Claim) : Prop :=
  ∀ k ∈ m.state.goal, ∃ c ∈ votes, m.Brings c k x

variable {m : Manager} {c : Call} {i j : Fin m.capacity} {x y : Claim} {votes : List Call}
  {s : State m.capacity}

theorem Brings.claim?_eq (h : m.Brings c i x) : c.claim? = some x := by
  cases h with
  | submit _ hclaim _ _ =>
      rw [Call.claim?, hclaim]
      rfl

theorem Brings.claim_unique (h : m.Brings c i x) (h' : m.Brings c j y) : x = y :=
  Option.some.inj (h.claim?_eq.symm.trans h'.claim?_eq)

theorem Brings.slot_unique (h : m.Brings c i x) (hm : m.Waits) (h' : m.Brings c j y) :
    i = j := by
  cases h with
  | @submit _ _ a _ _ _ hslot hsender =>
      cases h' with
      | @submit _ _ b _ _ _ hslot' hsender' =>
          have hab : a = b := Address.key_injective (hsender.symm.trans hsender')
          exact hm.distinct i j a hslot (hab ▸ hslot')

theorem Brings.exists_slot (h : m.Brings c i x) : ∃ a, m.state.roster.slot i = some a := by
  cases h with
  | submit _ _ hslot _ => exact ⟨_, hslot⟩

/-- In a state with the same roster, a call that brings a claim passes all checks. -/
theorem Brings.exists_hear (h : m.Brings c i x) (hm : m.Waits)
    (hroster : s.roster = m.state.roster) :
    ∃ sub a, c = .submit sub ∧ (m.withState s).hear sub = .ok ⟨x, i, a⟩ := by
  cases h with
  | @submit sub _ a _ hauth hclaim hslot hsender =>
      have hindex := (Roster.indexOf_eq_some_iff hm.distinct).2 ⟨a, hslot, hsender.symm⟩
      refine ⟨sub, a, rfl, hear_eq_ok_iff.2 ⟨hauth, hclaim, ?_, ?_⟩⟩
      · change s.roster.indexOf sub.validator = some i
        rw [hroster, hindex]
      · change s.roster.slot i = some a
        rw [hroster, hslot]

theorem exists_brings_concat_iff {k : Fin m.capacity} :
    (∃ b ∈ votes ++ [c], m.Brings b k x) ↔ (∃ b ∈ votes, m.Brings b k x) ∨ m.Brings c k x := by
  simp only [List.mem_append, List.mem_singleton, or_and_right, exists_or, exists_eq_left]

theorem Covers.concat (h : m.Covers votes x) (c : Call) : m.Covers (votes ++ [c]) x :=
  fun k hk => exists_brings_concat_iff.2 (.inl (h k hk))

/-- A call with another claim covers nothing. -/
theorem covers_concat_of_ne (hc : m.Brings c i y) (hne : y ≠ x) :
    m.Covers (votes ++ [c]) x ↔ m.Covers votes x := by
  refine ⟨fun h k hk => ?_, fun h => h.concat c⟩
  exact (exists_brings_concat_iff.1 (h k hk)).resolve_right
    fun hbrings => hne (hc.claim_unique hbrings)

/-- The state after a row of claims that begins with `x`, or before any. -/
structure Tallied (m : Manager) (x : Claim) (votes : List Call) (s : State m.capacity) :
    Prop where
  opened : ∀ c ∈ votes.head?, ∃ i, m.Brings c i x
  roster_eq : s.roster = m.state.roster
  goal_eq : s.goal = m.state.goal
  claim_eq : s.claim = votes.head?.map fun _ => x
  mem_agreement : ∀ i, i ∈ s.agreement ↔ ∃ c ∈ votes, m.Brings c i x

namespace Tallied

theorem start (hm : m.Waits) (x : Claim) : m.Tallied x [] m.state where
  opened := nofun
  roster_eq := rfl
  goal_eq := rfl
  claim_eq := hm.claim_eq
  mem_agreement := by
    intro i
    rw [hm.agreement_eq]
    simp

/-- The closed form does not depend on the order of the claims behind the first. -/
theorem eq_of_perm {votes' : List Call} {s' : State m.capacity} (h : m.Tallied x votes s)
    (h' : m.Tallied x votes' s') (hperm : votes.Perm votes') : s = s' := by
  refine State.ext (h.roster_eq.trans h'.roster_eq.symm) (h.goal_eq.trans h'.goal_eq.symm) ?_ ?_
  · apply Mask.ext
    intro i
    rw [h.mem_agreement, h'.mem_agreement]
    exact exists_congr fun c => and_congr_left fun _ => hperm.mem_iff
  · rw [h.claim_eq, h'.claim_eq]
    cases votes with
    | nil => rw [List.nil_perm.1 hperm]
    | cons c votes =>
        cases votes' with
        | nil => exact absurd hperm.length_eq (Nat.succ_ne_zero _)
        | cons c' votes' => rfl

theorem claim_cases (h : m.Tallied x votes s) : s.claim = none ∨ s.claim = some x := by
  rw [h.claim_eq]
  cases votes.head? with
  | none => exact .inl rfl
  | some _ => exact .inr rfl

theorem agreement_eq_goal_iff (h : m.Tallied x votes s) (hm : m.Waits) :
    s.agreement = s.goal ↔ m.Covers votes x := by
  rw [h.goal_eq]
  constructor
  · intro heq k hk
    rw [← heq] at hk
    exact (h.mem_agreement k).1 hk
  · intro hall
    apply Mask.ext
    intro k
    refine ⟨fun hk => ?_, fun hk => (h.mem_agreement k).2 (hall k hk)⟩
    obtain ⟨c, -, hc⟩ := (h.mem_agreement k).1 hk
    rw [hm.goal_eq, Roster.mem_occupied, Option.isSome_iff_exists]
    exact hc.exists_slot

/-- Behind the first claim an endorser can be named. -/
theorem exists_endorser (h : m.Tallied x votes s) (hsome : votes ≠ []) :
    ∃ e, s.endorser = .ok e := by
  obtain ⟨c, rest, rfl⟩ := List.ne_nil_iff_exists_cons.1 hsome
  obtain ⟨i, hi⟩ := h.opened c rfl
  obtain ⟨l, hl⟩ := Mask.exists_least? ((h.mem_agreement i).2 ⟨c, List.mem_cons_self, hi⟩)
  obtain ⟨b, -, hb⟩ := (h.mem_agreement l).1 (Mask.mem_of_least? hl)
  obtain ⟨e, he⟩ := hb.exists_slot
  exact ⟨e, State.endorser_eq_ok_iff.2 ⟨l, hl, by rw [h.roster_eq, he]⟩⟩

/-- A claim that agrees with the first one adds its sender to the agreement. -/
theorem endorse (h : m.Tallied x votes s) (hm : m.Waits) (hc : m.Brings c i x) :
    m.Tallied x (votes ++ [c]) (s.endorse x i) where
  opened := by
    intro first hfirst
    cases votes with
    | nil =>
        cases hfirst
        exact ⟨i, hc⟩
    | cons _ _ => exact h.opened first hfirst
  roster_eq := h.roster_eq
  goal_eq := h.goal_eq
  claim_eq := by cases votes <;> rfl
  mem_agreement := by
    intro k
    rw [State.endorse, Mask.mem_insert, h.mem_agreement, exists_brings_concat_iff, or_comm]
    refine or_congr_right ⟨?_, fun hk => hk.slot_unique hm hc⟩
    rintro rfl
    exact hc

/-- A claim that contradicts the first one changes nothing. -/
theorem contradict (h : m.Tallied x votes s) (hsome : votes ≠ []) (hc : m.Brings c i y)
    (hne : y ≠ x) : m.Tallied x (votes ++ [c]) s := by
  obtain ⟨first, rest, rfl⟩ := List.ne_nil_iff_exists_cons.1 hsome
  refine ⟨h.opened, h.roster_eq, h.goal_eq, h.claim_eq, fun k => ?_⟩
  rw [h.mem_agreement, exists_brings_concat_iff, or_iff_left]
  exact fun hbrings => hne (hc.claim_unique hbrings)

/-- One more claim is committed. It is a conflict if it differs from the first
one, and a consensus if it is the first one and all slots of the goal have
brought it by then. -/
theorem next (h : m.Tallied x votes s) (hm : m.Waits) (hc : m.Brings c i y)
    (hfirst : votes = [] → y = x) :
    ∃ s' v, (m.withState s).perform c = .ok (m.withState s', .claimed v) ∧
      m.Tallied x (votes ++ [c]) s' ∧ (v.result = .conflict ↔ y ≠ x) ∧
      (v.result = .consensus ↔ y = x ∧ m.Covers (votes ++ [c]) x) := by
  obtain ⟨sub, a, rfl, hear⟩ := hc.exists_hear hm h.roster_eq
  by_cases hxy : y = x
  · subst hxy
    have hnext := h.endorse hm hc
    have hcommit := Committed.endorsed hear h.claim_cases
    refine ⟨_, _, perform_eq_ok_iff.2 ⟨_, rfl, hcommit⟩, hnext, ?_, ?_⟩
    · exact iff_of_false (result_settle_ne_conflict _ _ _ _) fun hne => hne rfl
    · rw [and_iff_right rfl, ← hnext.agreement_eq_goal_iff hm, State.settled, result_settle]
      split
      · next heq => exact iff_of_true rfl heq
      · next hne => exact iff_of_false (by decide) hne
  · have hsome := mt hfirst hxy
    obtain ⟨e, he⟩ := h.exists_endorser hsome
    have hclaim : s.claim ≠ none ∧ s.claim ≠ some y := by
      obtain ⟨first, rest, rfl⟩ := List.ne_nil_iff_exists_cons.1 hsome
      rw [h.claim_eq]
      exact ⟨Option.some_ne_none _, fun heq => hxy (Option.some.inj heq).symm⟩
    have hcommit := Committed.contradicted hear hclaim he
    refine ⟨_, _, perform_eq_ok_iff.2 ⟨_, rfl, hcommit⟩, h.contradict hsome hc hxy, ?_, ?_⟩
    · exact iff_of_true rfl hxy
    · have hne : ClaimResult.conflict ≠ .consensus := by decide
      exact iff_of_false hne fun heq => hxy heq.1

end Tallied

/-- The results of the claims and disputes among calls. -/
def results (m : Manager) (calls : List Call) : List ClaimResult :=
  ((m.replied calls).filterMap Reply.verdict?).map Verdict.result

@[simp] theorem results_nil (m : Manager) : m.results [] = [] := rfl

theorem results_concat {m' : Manager} {v : Verdict}
    (h : (m.run votes).perform c = .ok (m', .claimed v)) :
    m.results (votes ++ [c]) = m.results votes ++ [v.result] := by
  obtain ⟨s, -, hcommit⟩ := perform_eq_ok_iff.1 h
  rw [results, replied_of_committed hcommit, List.filterMap_append, List.map_append]
  rfl

/-- Calls that bring claims, the first of them `x`. -/
structure AreVotes (m : Manager) (x : Claim) (votes : List Call) : Prop where
  opened : ∀ c ∈ votes.head?, ∃ i, m.Brings c i x
  brings : ∀ c ∈ votes, ∃ i y, m.Brings c i y

namespace AreVotes

theorem of_append {more : List Call} (h : m.AreVotes x (votes ++ more)) :
    m.AreVotes x votes where
  opened := by
    intro c hc
    cases votes with
    | nil => contradiction
    | cons _ _ => exact h.opened c hc
  brings c hc := h.brings c (List.mem_append_left more hc)

theorem last_eq (h : m.AreVotes x (votes ++ [c])) (hc : m.Brings c i y)
    (hnil : votes = []) : y = x := by
  subst hnil
  obtain ⟨j, hj⟩ := h.opened c rfl
  exact hc.claim_unique hj

end AreVotes

/-- A row of claims leads to its closed form. As many of them are conflicts as
differ from the first, and one is a consensus if all slots of the goal brought
the first. -/
theorem tallied_run (hm : m.Waits) (hvotes : m.AreVotes x votes) :
    ∃ s, m.run votes = m.withState s ∧ m.Tallied x votes s ∧
      (m.results votes).count .conflict = votes.countP (fun c => c.claim? ≠ some x) ∧
      (votes ≠ [] → (.consensus ∈ m.results votes ↔ m.Covers votes x)) := by
  induction votes using List.reverseRecOn with
  | nil => exact ⟨m.state, rfl, .start hm x, rfl, fun h => absurd rfl h⟩
  | append_singleton votes c ih =>
      obtain ⟨s, hrun, htallied, hconflicts, hconsensus⟩ := ih hvotes.of_append
      obtain ⟨i, y, hc⟩ := hvotes.brings c (List.mem_append_right _ List.mem_cons_self)
      obtain ⟨s', v, hperform, hnext, hconflict, hagreed⟩ :=
        htallied.next hm hc (hvotes.last_eq hc)
      rw [← hrun] at hperform
      have hresults := results_concat hperform
      refine ⟨s', ?_, hnext, ?_, fun _ => ?_⟩
      · rw [run_concat, after, hperform]
      · rw [hresults, List.count_append, List.countP_append, hconflicts]
        simp [hc.claim?_eq, List.count_singleton, hconflict]
      · rw [hresults, List.mem_append, List.mem_singleton, eq_comm (b := v.result), hagreed]
        by_cases hxy : y = x
        · rw [and_iff_right hxy, or_iff_right_of_imp]
          intro hmem
          have hsome : votes ≠ [] := by
            rintro rfl
            contradiction
          exact ((hconsensus hsome).1 hmem).concat c
        · rw [hconsensus (mt (hvotes.last_eq hc) hxy), covers_concat_of_ne hc hxy]
          exact or_iff_left fun h => hxy h.1

/-- Each of the claims is committed, with a result that depends on the claims up
to it as sets only. -/
theorem exists_perform_of_areVotes (hm : m.Waits) {before after : List Call}
    (hvotes : m.AreVotes x (before ++ c :: after)) (hc : m.Brings c i y) :
    ∃ m' v, (m.run before).perform c = .ok (m', .claimed v) ∧
      (v.result = .conflict ↔ y ≠ x) ∧
      (v.result = .consensus ↔ y = x ∧ m.Covers (before ++ [c]) x) := by
  rw [List.append_cons] at hvotes
  have hupTo := hvotes.of_append
  obtain ⟨s, hrun, htallied, -⟩ := tallied_run hm hupTo.of_append
  obtain ⟨s', v, hperform, -, hresult⟩ := htallied.next hm hc (hupTo.last_eq hc)
  rw [← hrun] at hperform
  exact ⟨_, v, hperform, hresult⟩

/-- However losers are spelled, an agreement belongs to a claim along a run. -/
theorem held_run (hm : ∀ i ∈ m.state.agreement, m.state.claim ≠ none) (calls : List Call) :
    ∀ i ∈ (m.run calls).state.agreement, (m.run calls).state.claim ≠ none :=
  run_induction (P := fun _ m' => ∀ i ∈ m'.state.agreement, m'.state.claim ≠ none)
    (Q := fun _ => True) hm (fun _ _ _ _ ih _ hcommit => hcommit.held ih)
    (fun _ _ _ ih _ _ => ih) calls (fun _ _ => trivial)

/-- Without a claim nobody agrees, so a manager without a claim waits. -/
theorem waits_run {setup : Setup} (hm : ofSetup setup = .ok m) {calls : List Call}
    (hnone : (m.run calls).state.claim = none) : (m.run calls).Waits := by
  obtain ⟨addresses, hadmissible, rfl⟩ := exists_admissible_of_ofSetup hm
  have hstart := sound_start setup hadmissible
  refine ⟨distinct_run hstart.distinct calls, goal_run hstart.goal_eq calls, ?_, hnone⟩
  by_contra hsome
  obtain ⟨i, hi⟩ := Mask.ne_empty_iff.1 hsome
  exact held_run hstart.claim_ne_none calls i hi hnone

/-- Claims of validators that hold slots, brought by the orchestrator one after
another while there is no current claim, are all committed. The first one
becomes the current claim, the agreement is the set of slots that brought it,
and roster and goal stay. The conflicts are the calls with another claim, and a
call with the first claim is a consensus if and only if all slots of the goal
have brought it by then. So any order of the calls that begins with the same
claim leads to the same manager, with as many conflicts, and with a consensus
if and only if there is one in the order given. -/
theorem arrival_order_is_irrelevant {setup : Setup} (hm : ofSetup setup = .ok m)
    {calls : List Call} (hnone : (m.run calls).state.claim = none) {first : Call}
    {rest : List Call} (hfirst : ∃ i, (m.run calls).Brings first i x)
    (hrest : ∀ c ∈ rest, ∃ i y, (m.run calls).Brings c i y) :
    (∃ s, (m.run calls).run (first :: rest) = (m.run calls).withState s ∧
        s.roster = (m.run calls).state.roster ∧ s.goal = (m.run calls).state.goal ∧
        s.claim = some x ∧
        ∀ i, i ∈ s.agreement ↔ ∃ c ∈ first :: rest, (m.run calls).Brings c i x) ∧
      (∀ before c after i y, first :: rest = before ++ c :: after →
        (m.run calls).Brings c i y →
          ∃ m' v, ((m.run calls).run before).perform c = .ok (m', .claimed v) ∧
            (v.result = .conflict ↔ y ≠ x) ∧
            (y = x → (v.result = .consensus ↔
              ∀ k ∈ (m.run calls).state.goal, ∃ b ∈ before ++ [c], (m.run calls).Brings b k x))) ∧
      ∀ first' rest', (first' :: rest').Perm (first :: rest) →
        (∃ i, (m.run calls).Brings first' i x) →
          (m.run calls).run (first' :: rest') = (m.run calls).run (first :: rest) ∧
            ((m.run calls).results (first' :: rest')).count .conflict =
              ((m.run calls).results (first :: rest)).count .conflict ∧
            (.consensus ∈ (m.run calls).results (first' :: rest') ↔
              .consensus ∈ (m.run calls).results (first :: rest)) := by
  have hwaits := waits_run hm hnone
  have hvotes : (m.run calls).AreVotes x (first :: rest) := by
    refine ⟨fun c hc => ?_, fun c hc => ?_⟩
    · obtain rfl := Option.some.inj hc
      exact hfirst
    · rcases List.mem_cons.1 hc with rfl | hc
      · exact hfirst.imp fun i hi => ⟨x, hi⟩
      · exact hrest c hc
  obtain ⟨s, hrun, htallied, hconflicts, hconsensus⟩ := tallied_run hwaits hvotes
  refine ⟨⟨s, hrun, htallied.roster_eq, htallied.goal_eq, htallied.claim_eq,
    htallied.mem_agreement⟩, ?_, ?_⟩
  · intro before c after i y hsplit hc
    rw [hsplit] at hvotes
    obtain ⟨m', v, hperform, hconflict, hagreed⟩ := exists_perform_of_areVotes hwaits hvotes hc
    refine ⟨m', v, hperform, hconflict, fun hxy => ?_⟩
    rw [hagreed, and_iff_right hxy]
    rfl
  · intro first' rest' hperm hfirst'
    have hvotes' : (m.run calls).AreVotes x (first' :: rest') := by
      refine ⟨fun c hc => ?_, fun c hc => hvotes.brings c (hperm.mem_iff.1 hc)⟩
      obtain rfl := Option.some.inj hc
      exact hfirst'
    obtain ⟨s', hrun', htallied', hconflicts', hconsensus'⟩ := tallied_run hwaits hvotes'
    refine ⟨?_, ?_, ?_⟩
    · rw [hrun, hrun', htallied'.eq_of_perm htallied hperm]
    · rw [hconflicts, hconflicts', hperm.countP_eq]
    · rw [hconsensus (List.cons_ne_nil _ _), hconsensus' (List.cons_ne_nil _ _)]
      exact forall₂_congr fun k _ => exists_congr fun c => and_congr_left fun _ => hperm.mem_iff

theorem brings_duo {i : Fin duo.capacity} {d : Hex.Digit}
    (hi : duo.state.roster.slot i = some (.ofDigit d))
    (hd : Roster.lookupKey (Address.ofDigit d).plain = (Address.ofDigit d).key) (x : Claim) :
    duo.Brings (.sent d x) i x :=
  .submit isOrchestrator_start_duo (Claim.ofArgument_text x) hi hd

/-- The second validator contradicts the first and then follows it, or the other
way round. -/
theorem arrival_order_is_irrelevant_duo :
    ofSetup .duo = .ok duo ∧ (duo.run []).state.claim = none ∧
      (∃ i, (duo.run []).Brings (.sent 1 .ones) i .ones) ∧
      (∀ c ∈ [Call.sent 2 .twos, .sent 2 .ones], ∃ i y, (duo.run []).Brings c i y) ∧
      duo.run [.sent 1 .ones, .sent 2 .ones, .sent 2 .twos] =
        duo.run [.sent 1 .ones, .sent 2 .twos, .sent 2 .ones] := by
  have hfirst : ∃ i, (duo.run []).Brings (.sent 1 .ones) i .ones :=
    ⟨⟨0, by decide⟩, brings_duo (by decide +kernel) (by decide +kernel) .ones⟩
  have hrest : ∀ c ∈ [Call.sent 2 .twos, .sent 2 .ones], ∃ i y, (duo.run []).Brings c i y := by
    intro c hc
    rcases List.mem_pair.1 hc with rfl | rfl
    all_goals exact ⟨⟨1, by decide⟩, _, brings_duo (by decide +kernel) (by decide +kernel) _⟩
  obtain ⟨-, -, hperm⟩ := arrival_order_is_irrelevant ofSetup_duo rfl hfirst hrest
  exact ⟨ofSetup_duo, rfl, hfirst, hrest,
    (hperm _ _ (.cons _ (.swap _ _ _)) hfirst).1⟩

end Manager

end EpochClaims
