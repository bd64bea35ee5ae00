import EpochClaims.Proofs.Manager.Isolation

/-!
# Why a call is refused

Each check of a call is told by an objection, which says without the check when
a refusal is raised and which one it is. `objections` are those against a call
in the order of the checks, and `RaisedFirst` picks the first of them that
applies. Where the invariant of a manager holds, a call is refused with the
objection that is raised first and committed if there is none: what could fail
behind the checks fails in one case only, a claim against a current one that
has lost all its endorsers.
-/

namespace EpochClaims

/-- The refusals that an objection raises. -/
abbrev Objection := Refusal → Prop

/-- The refusals that the first objection raises which raises any. -/
def RaisedFirst : List Objection → Refusal → Prop
  | [], _ => False
  | p :: rest, e => p e ∨ ((∀ e', ¬ p e') ∧ RaisedFirst rest e)

@[simp] theorem not_raisedFirst_nil (e : Refusal) : ¬ RaisedFirst [] e := id

theorem raisedFirst_cons (p : Objection) (rest : List Objection) (e : Refusal) :
    RaisedFirst (p :: rest) e ↔ p e ∨ ((∀ e', ¬ p e') ∧ RaisedFirst rest e) :=
  Iff.rfl

theorem exists_raisedFirst_iff {row : List Objection} :
    (∃ e, RaisedFirst row e) ↔ ∃ p ∈ row, ∃ e, p e := by
  induction row with
  | nil => simp
  | cons p rest ih =>
      simp only [raisedFirst_cons, exists_or, exists_and_left, ih, List.exists_mem_cons_iff]
      by_cases hp : ∃ e, p e
      · simp [hp]
      · simp [not_exists.1 hp]

section Checks

variable {α β : Type} {x : Except Refusal α} {f : α → Except Refusal β} {p : Objection}
  {rest : List Objection} {e : Refusal}

/-- A check and what follows it raise the objection to the check first. -/
theorem bind_eq_error_iff_raisedFirst (hx : ∀ e, x = .error e ↔ p e)
    (hf : ∀ a, x = .ok a → (f a = .error e ↔ RaisedFirst rest e)) :
    (x >>= f) = .error e ↔ RaisedFirst (p :: rest) e := by
  rw [raisedFirst_cons]
  cases hresult : x with
  | error e' =>
      have hp := (hx e').1 hresult
      rw [← hx e, hresult, or_iff_left fun h => h.1 e' hp]
      simp [bind, Except.bind]
  | ok a =>
      have hnone : ∀ e', ¬ p e' := by
        intro e' he'
        rw [(hx e').2 he'] at hresult
        contradiction
      rw [or_iff_right (hnone e), and_iff_right hnone]
      exact hf a hresult

/-- A check that throws under a condition, and what follows it. -/
theorem ite_throw_eq_error_iff_raisedFirst {c : Prop} [Decidable c] {thrown : Refusal}
    (hp : ∀ e, p e ↔ c ∧ e = thrown)
    (hx : ¬ c → (x = .error e ↔ RaisedFirst rest e)) :
    (if c then throw thrown >>= fun _ : PUnit => x else x) = .error e ↔
      RaisedFirst (p :: rest) e := by
  rw [raisedFirst_cons]
  by_cases hc : c
  · rw [if_pos hc, hp e, and_iff_right hc,
      or_iff_left fun h => h.1 thrown ((hp thrown).2 ⟨hc, rfl⟩)]
    simp [throw, throwThe, MonadExceptOf.throw, bind, Except.bind, eq_comm]
  · have hnone : ∀ e', ¬ p e' := fun e' he' => hc ((hp e').1 he').1
    rw [if_neg hc, or_iff_right (hnone e), and_iff_right hnone]
    exact hx hc

/-- Behind all checks nothing is refused. -/
theorem pure_eq_error_iff_raisedFirst (b : β) :
    (pure b : Except Refusal β) = .error e ↔ RaisedFirst [] e := by
  simp [pure, Except.pure]

/-- A check that nothing follows. -/
theorem eq_error_iff_raisedFirst (hx : x = .error e ↔ p e) :
    x = .error e ↔ RaisedFirst [p] e := by
  rw [raisedFirst_cons, hx]
  simp

end Checks

/-- An account that spells the orchestrator of a configuration, behind the
marker. -/
def Config.IsOrchestrator (config : Config) (account : Argument) : Prop :=
  ∃ s, account = .text s ∧ Hex.IsMarked s ∧ config.orchestrator.IsSpelledBy s

theorem Config.isOrchestrator_iff {config : Config} {account : Argument} :
    config.IsOrchestrator account ↔ account.address? = some config.orchestrator := by
  constructor
  · rintro ⟨s, rfl, hmarked, hs⟩
    exact (Address.ofText?_eq_some_iff_of_isMarked hmarked).2 hs
  · intro h
    obtain ⟨chars, hchars, hread⟩ := Option.bind_eq_some_iff.1 h
    obtain ⟨s, rfl, rfl⟩ : ∃ s, account = .text s ∧ s.toList = chars := by
      unfold Argument.chars? at hchars
      split at hchars
      · next s => exact ⟨s, rfl, Option.some.inj hchars⟩
      · contradiction
    refine ⟨s, rfl, ?_, Address.lookupKey_of_ofText? hread⟩
    obtain ⟨ds, hds, -⟩ := Option.bind_eq_some_iff.1 hread
    obtain ⟨body, hbody, -⟩ := Hex.read?_eq_some_iff.1 hds
    exact Hex.isMarked_iff.2 ⟨body, hbody⟩

namespace Objection

/-- The account is not the orchestrator. -/
def account (config : Config) (given : Argument) : Objection := fun e =>
  ¬ config.IsOrchestrator given ∧ e = .unauthorized given (.text config.orchestrator.text)

/-- What is handed in is no claim. -/
def claim (given : Argument) : Objection := fun e =>
  ∃ f, Claim.ofArgument given = .error f ∧ e = .claim f

/-- The text spells nobody who holds a slot. -/
def stranger (m : Manager) (role : Role) (s : String) : Objection := fun e =>
  (∀ a, a.IsSpelledBy s → ¬ m.IsMember a) ∧ e = .unknownValidator s role

/-- Winner and loser of a dispute are the same validator. -/
def self (m : Manager) (d : Dispute) : Objection := fun e =>
  ∃ a, m.IsMember a ∧ a.IsSpelledBy d.winner ∧ a.IsSpelledBy d.loser ∧ e = .selfDispute a

/-- The loser of a dispute holds no slot, and the policy is to refuse that. -/
def loser (config : Config) (m : Manager) (s : String) : Objection := fun e =>
  config.unknownLoserPolicy = .reject ∧ stranger m .loser s e

/-- The claim differs from a current one that nobody endorses. -/
def deserted (m : Manager) (given : Argument) : Objection := fun e =>
  ∃ x y, m.state.claim = some x ∧ (∀ i, i ∉ m.state.agreement) ∧
    Claim.ofArgument given = .ok y ∧ y ≠ x ∧ e = .breach (.noEndorser (some x))

end Objection

/-- The objections to a call in the order in which they are raised. -/
def Manager.objections (config : Config) (m : Manager) : Call → List Objection
  | .submit s => [.account config s.account, .claim s.claim, .stranger m .sender s.validator,
      .deserted m s.claim]
  | .dispute d => [.account config d.account, .claim d.winningClaim,
      .stranger m .winner d.winner, .self m d, .loser config m d.loser]
  | .advance account => [.account config account]

/-- Only a state in which nobody agrees has no endorser. -/
theorem State.Sound.endorser_eq_error_iff {n : Nat} {s : State n} (hs : s.Sound) {b : Breach} :
    s.endorser = .error b ↔ s.agreement = Mask.empty ∧ b = .noEndorser s.claim := by
  by_cases hempty : s.agreement = Mask.empty
  · rw [endorser, Mask.least?_eq_none_iff.2 hempty]
    simp [hempty, eq_comm]
  · obtain ⟨a, ha⟩ := hs.exists_endorser hempty
    simp [ha, hempty]

/-- Where an endorser can be named, a dispute can be awarded. -/
theorem State.Sound.award_ne_error {n : Nat} {s : State n} (hs : s.Sound) {claim : Claim}
    {i : Fin n} {winner : Address} {b : Breach} : s.award claim i winner ≠ .error b := by
  rw [award]
  split
  · simp
  · split
    · simp
    · next hempty =>
      rw [Ne, map_eq_error_iff, hs.endorser_eq_error_iff]
      exact fun h => hempty (Mask.isEmpty_iff.2 h.1)

namespace Manager

variable {m : Manager} {e : Refusal}

theorem readClaim_eq_error_iff {given : Argument} :
    readClaim given = .error e ↔ Objection.claim given e := by
  rw [readClaim, Objection.claim]
  cases Claim.ofArgument given <;> simp [eq_comm]

theorem indexOf_eq_none_iff {s : String} :
    m.state.roster.indexOf s = none ↔ ∀ a, a.IsSpelledBy s → ¬ m.IsMember a := by
  rw [Roster.indexOf_eq_none_iff]
  constructor
  · rintro h a ha ⟨i, hi⟩
    exact h i a hi ha
  · intro h i a hi ha
    exact h a ha ⟨i, hi⟩

theorem holder_eq_error_iff {role : Role} {s : String} :
    m.holder role s = .error e ↔ Objection.stranger m role s e := by
  rw [holder, Objection.stranger, ← indexOf_eq_none_iff]
  cases hindex : m.state.roster.indexOf s with
  | none => simp [eq_comm]
  | some i =>
      obtain ⟨a, ha, -⟩ := Roster.slot_of_indexOf hindex
      simp [ha]

theorem commit_eq_error_iff {x : Except Breach (State m.capacity × Verdict)} :
    m.commit x = .error e ↔ ∃ b, x = .error b ∧ e = .breach b := by
  cases x <;> simp [commit, eq_comm]

theorem commit_submit_eq_error_iff (hm : m.state.Sound) {given : Argument} {y : Claim}
    (hy : Claim.ofArgument given = .ok y) (i : Fin m.capacity) (a : Address) :
    m.commit (m.state.submit y i a) = .error e ↔ Objection.deserted m given e := by
  rw [commit_eq_error_iff, Objection.deserted, State.submit]
  by_cases hclaim : m.state.claim = none ∨ m.state.claim = some y
  · rw [if_pos hclaim]
    simp only [reduceCtorEq, false_and, exists_false, false_iff]
    rintro ⟨x, y', hx, -, hy', hne, -⟩
    rw [hy, Except.ok.injEq] at hy'
    rcases hclaim with hnone | hsome
    · rw [hx] at hnone
      contradiction
    · rw [hx, Option.some.injEq] at hsome
      exact hne (hy'.symm.trans hsome.symm)
  · rw [if_neg hclaim]
    simp only [map_eq_error_iff, hm.endorser_eq_error_iff, Mask.eq_empty_iff]
    obtain ⟨x, hx⟩ := Option.ne_none_iff_exists'.1 (not_or.1 hclaim).1
    constructor
    · rintro ⟨b, ⟨hempty, rfl⟩, rfl⟩
      refine ⟨x, y, hx, hempty, hy, ?_, by rw [hx]⟩
      rintro rfl
      exact hclaim (.inr hx)
    · rintro ⟨x', y', hx', hempty, -, -, rfl⟩
      exact ⟨_, ⟨hempty, rfl⟩, by rw [hx']⟩

/-- A loser written with the marker is the winner if one address is spelled by
both. -/
theorem self_iff {d : Dispute} (hmarked : Hex.IsMarked d.loser) {i : Fin m.capacity}
    {winner : Address} (hwinner : winner.IsSpelledBy d.winner)
    (hi : m.state.roster.slot i = some winner) :
    Objection.self m d e ↔
      Address.ofText? d.loser.toList = some winner ∧ e = .selfDispute winner := by
  rw [Address.ofText?_eq_some_iff_of_isMarked hmarked]
  constructor
  · rintro ⟨a, -, ha, hloser, rfl⟩
    obtain rfl := Address.key_injective (ha.symm.trans hwinner)
    exact ⟨hloser, rfl⟩
  · rintro ⟨hloser, rfl⟩
    exact ⟨winner, ⟨i, hi⟩, hwinner, hloser, rfl⟩

/-- A manager that is made of a configuration and has kept its invariant. -/
structure RunsUnder (m : Manager) (config : Config) : Prop where
  orchestrator_eq : m.orchestrator = .text config.orchestrator.text
  policy_eq : m.unknownLoserPolicy = .text config.unknownLoserPolicy.text
  sound : m.state.Sound

theorem runsUnder_run {config : Config} (h : SizedRoster.Admissible config.validators)
    {calls : List Call} (hcalls : ∀ c ∈ calls, c.IsMarked) :
    ((ofRoster config).run calls).RunsUnder config := by
  have hsound := sound_run (sound_ofRoster h) hcalls
  obtain ⟨s, hs⟩ := exists_run_eq_withState (ofRoster config) calls
  rw [hs] at hsound ⊢
  exact ⟨rfl, rfl, hsound⟩

namespace RunsUnder

variable {config : Config}

theorem authorize_eq_error_iff (hm : m.RunsUnder config) {account : Argument} :
    m.authorize account = .error e ↔ Objection.account config account e := by
  have hread : m.orchestrator.chars?.bind Address.ofText? = some config.orchestrator := by
    rw [hm.orchestrator_eq]
    exact Address.ofText?_text config.orchestrator
  rw [authorize, Objection.account, Config.isOrchestrator_iff, Argument.address?, hread,
    hm.orchestrator_eq]
  cases account.chars?.bind Address.ofText? with
  | none => simp [eq_comm]
  | some caller =>
      by_cases hcaller : caller = config.orchestrator
      · simp [hcaller]
      · simp [hcaller, eq_comm]

theorem loserSlot_eq_error_iff (hm : m.RunsUnder config) {loser : String} :
    m.loserSlot loser = .error e ↔ Objection.loser config m loser e := by
  have hpolicy : m.rejectsUnknownLosers = true ↔ config.unknownLoserPolicy = .reject := by
    rw [rejectsUnknownLosers, hm.policy_eq]
    cases config.unknownLoserPolicy <;> simp [UnknownLoserPolicy.text]
  rw [loserSlot, Objection.loser, Objection.stranger, ← indexOf_eq_none_iff,
    ← hpolicy]
  cases m.state.roster.indexOf loser with
  | some i => simp
  | none =>
      cases m.rejectsUnknownLosers with
      | true => simp [eq_comm]
      | false => simp

theorem submit_eq_error_iff (hm : m.RunsUnder config) {s : Submission} :
    m.submit s = .error e ↔ RaisedFirst (objections config m (.submit s)) e := by
  rw [submit, hear]
  simp only [bind_assoc]
  refine bind_eq_error_iff_raisedFirst (fun _ => hm.authorize_eq_error_iff) fun _ _ => ?_
  refine bind_eq_error_iff_raisedFirst (fun _ => readClaim_eq_error_iff) fun claim hclaim => ?_
  refine bind_eq_error_iff_raisedFirst (fun _ => holder_eq_error_iff) ?_
  rintro ⟨slot, sender⟩ -
  refine eq_error_iff_raisedFirst ?_
  exact commit_submit_eq_error_iff hm.sound (readClaim_eq_ok_iff.1 hclaim) slot sender

theorem judge_eq_error_iff (hm : m.RunsUnder config) {d : Dispute}
    (hmarked : Hex.IsMarked d.loser) :
    m.judge d = .error e ↔ RaisedFirst (objections config m (.dispute d)) e := by
  rw [judge]
  refine bind_eq_error_iff_raisedFirst (fun _ => hm.authorize_eq_error_iff) fun _ _ => ?_
  refine bind_eq_error_iff_raisedFirst (fun _ => readClaim_eq_error_iff) fun claim _ => ?_
  refine bind_eq_error_iff_raisedFirst (fun _ => holder_eq_error_iff) ?_
  rintro ⟨slot, winner⟩ hholder
  obtain ⟨hindex, hslot⟩ := holder_eq_ok_iff.1 hholder
  have hwinner := (slot_eq_some_iff_isSpelledBy hindex).1 hslot
  refine ite_throw_eq_error_iff_raisedFirst (fun _ => self_iff hmarked hwinner hslot) fun _ => ?_
  refine bind_eq_error_iff_raisedFirst (fun _ => hm.loserSlot_eq_error_iff) fun loser _ => ?_
  exact pure_eq_error_iff_raisedFirst _

/-- Past its checks a dispute is awarded, so a refusal comes from one of them. -/
theorem resolve_eq_error_iff (hm : m.RunsUnder config) {d : Dispute}
    (hmarked : Hex.IsMarked d.loser) : m.resolve d = .error e ↔ m.judge d = .error e := by
  rw [resolve]
  cases hjudge : m.judge d with
  | error e' => simp [bind, Except.bind]
  | ok j =>
      simp only [reduceCtorEq, iff_false]
      intro herror
      obtain ⟨b, hb, -⟩ := commit_eq_error_iff.1 herror
      exact (sound_afterEviction hm.sound hjudge hmarked).1.award_ne_error hb

theorem advance_eq_error_iff (hm : m.RunsUnder config) {account : Argument} :
    m.advance account = .error e ↔ RaisedFirst (objections config m (.advance account)) e := by
  rw [advance]
  refine bind_eq_error_iff_raisedFirst (fun _ => hm.authorize_eq_error_iff) fun _ _ => ?_
  exact pure_eq_error_iff_raisedFirst _

theorem perform_eq_error_iff (hm : m.RunsUnder config) {c : Call} (hc : c.IsMarked) :
    m.perform c = .error e ↔ RaisedFirst (objections config m c) e := by
  cases c with
  | submit s => rw [perform, map_eq_error_iff, hm.submit_eq_error_iff]
  | dispute d =>
      rw [perform, map_eq_error_iff, hm.resolve_eq_error_iff hc, hm.judge_eq_error_iff hc]
  | advance account => rw [perform, map_eq_error_iff, hm.advance_eq_error_iff]

end RunsUnder

end Manager

namespace Call

/-- The first validator makes a claim and is evicted in a dispute about it, which
leaves the claim with nobody behind it. -/
def desertion : List Call :=
  [.submit ⟨.text (Address.ofDigit 9).plain, (Address.ofDigit 1).plain, .text Claim.ones.text⟩,
    .dispute ⟨.text (Address.ofDigit 9).plain, (Address.ofDigit 2).plain,
      (Address.ofDigit 1).plain, .text Claim.ones.text⟩]

/-- The claim of the validator who is left is another one. -/
def rivalClaim : Call :=
  .submit ⟨.text (Address.ofDigit 9).plain, (Address.ofDigit 2).plain, .text Claim.twos.text⟩

end Call

namespace Manager

variable {m : Manager}

/-- Where all losers so far and the one of the call are written with the marker,
a call is refused with the first objection to it and changes nothing then, and
it is committed if there is no objection. -/
theorem refused_by_first_objection {d : Option Document} (hm : ofDocument d = .ok m)
    {config : Config} (hread : Config.read d = .ok config) {calls : List Call}
    (hcalls : ∀ c ∈ calls, c.IsMarked) {c : Call} (hc : c.IsMarked) :
    (∀ e, (m.run calls).perform c = .error e ↔
        RaisedFirst (objections config (m.run calls) c) e) ∧
      ((∃ m' r, (m.run calls).perform c = .ok (m', r)) ↔
        ∀ p ∈ objections config (m.run calls) c, ∀ e, ¬ p e) ∧
      ∀ e, (m.run calls).perform c = .error e → (m.run calls).after c = m.run calls := by
  obtain ⟨config', hread', hadmissible, rfl⟩ := ofDocument_eq_ok_iff.1 hm
  obtain rfl := Except.ok.inj (hread'.symm.trans hread)
  have hruns := runsUnder_run hadmissible hcalls
  refine ⟨fun e => hruns.perform_eq_error_iff hc, ?_, fun e => after_of_refused⟩
  have hrow := @exists_raisedFirst_iff (objections config' ((ofRoster config').run calls) c)
  simp only [← hruns.perform_eq_error_iff hc] at hrow
  constructor
  · rintro ⟨m', r, hcommitted⟩ p hp e he
    obtain ⟨e', hrefused⟩ := hrow.2 ⟨p, hp, e, he⟩
    rw [hcommitted] at hrefused
    contradiction
  · intro hnone
    cases hperform : ((ofRoster config').run calls).perform c with
    | ok committed => exact ⟨committed.1, committed.2, rfl⟩
    | error e =>
        obtain ⟨p, hp, e', he'⟩ := hrow.1 ⟨e, hperform⟩
        exact absurd he' (hnone p hp e')

/-- The claim of the deserters stays without them. -/
theorem exists_run_desertion :
    ∃ s, (ofRoster Config.duo).run Call.desertion = (ofRoster Config.duo).withState s ∧
      s.claim = some .ones ∧ (∀ i, i ∉ s.agreement) ∧
      ∃ i, s.roster.slot i = some (.ofDigit 2) := by
  have hhear : (ofRoster Config.duo).hear ⟨.text (Address.ofDigit 9).plain,
      (Address.ofDigit 1).plain, .text Claim.ones.text⟩ =
      .ok ⟨.ones, ⟨0, by decide⟩, .ofDigit 1⟩ :=
    hear_eq_ok_iff.2 ⟨isOrchestrator_duo, Claim.ofArgument_text _, by decide +kernel,
      by decide +kernel⟩
  have hclaimed := Committed.endorsed hhear (.inl rfl)
  have hjudge : ((ofRoster Config.duo).withState
      ((ofRoster Config.duo).state.endorse .ones ⟨0, by decide⟩)).judge
      ⟨.text (Address.ofDigit 9).plain, (Address.ofDigit 2).plain, (Address.ofDigit 1).plain,
        .text Claim.ones.text⟩ =
      .ok ⟨.ones, ⟨1, by decide⟩, .ofDigit 2, some ⟨0, by decide⟩⟩ := by
    rw [judge_eq_ok_iff, loserSlot_eq_ok_iff]
    refine ⟨isOrchestrator_duo, Claim.ofArgument_text _, ?_, ?_, ?_, ?_, nofun⟩
    all_goals decide +kernel
  have hjudged := Committed.upheld hjudge rfl
  refine ⟨((ofRoster Config.duo).state.endorse .ones ⟨0, by decide⟩).evict ⟨0, by decide⟩,
    ?_, rfl, ?_, ⟨1, by decide⟩, ?_⟩
  · rw [Call.desertion, run_cons, after_of_committed hclaimed, run_cons,
      after_of_committed hjudged]
    rfl
  all_goals decide +kernel

/-- A rival of a claim that nobody stands by any more is refused. -/
theorem refused_by_first_objection_desertion :
    ofDocument (some Config.duo.toDocument) = .ok (ofRoster Config.duo) ∧
      Config.read (some Config.duo.toDocument) = .ok Config.duo ∧
      (∀ c ∈ Call.desertion, c.IsMarked) ∧ Call.rivalClaim.IsMarked ∧
      ((ofRoster Config.duo).run Call.desertion).perform Call.rivalClaim =
        .error (.breach (.noEndorser (some .ones))) := by
  have hread : Config.read (some Config.duo.toDocument) = .ok Config.duo :=
    Config.read_toDocument SizedRoster.admissible_duo.length_pos
      SizedRoster.admissible_duo.length_le
  have hcalls : ∀ c ∈ Call.desertion, c.IsMarked := by
    decide +kernel
  have hc : Call.rivalClaim.IsMarked := by
    decide +kernel
  obtain ⟨s, hs, hclaim, hagreement, i, hi⟩ := exists_run_desertion
  obtain ⟨hiff, -⟩ := refused_by_first_objection ofDocument_duo hread hcalls hc
  refine ⟨ofDocument_duo, hread, hcalls, hc, (hiff _).2 ?_⟩
  rw [hs]
  refine .inr ⟨?_, .inr ⟨?_, .inr ⟨?_, .inl ?_⟩⟩⟩
  · rintro e ⟨hnot, -⟩
    exact hnot ⟨_, rfl, Address.isMarked_plain _, Address.isSpelledBy_plain _⟩
  · rintro e ⟨f, hf, -⟩
    have hread := Claim.ofArgument_text .twos
    rw [hread] at hf
    cases hf
  · rintro e ⟨hnot, -⟩
    exact hnot _ (Address.isSpelledBy_plain _) ⟨i, hi⟩
  · exact ⟨.ones, .twos, hclaim, hagreement, Claim.ofArgument_text _, by decide, rfl⟩

end Manager

end EpochClaims
