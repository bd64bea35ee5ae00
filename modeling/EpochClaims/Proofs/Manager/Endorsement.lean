import EpochClaims.Proofs.Manager.Invariant

/-!
# Who endorses what

The agreement is a mask, and an epoch can see its current claim replaced many
times. `Endorsed` is the history behind the mask: which validators endorsed
which claim since the epoch was opened, told from the calls of the run alone.
The mask records exactly this history for the current claim, and the reason is
that a claim is replaced only when nobody who endorsed it is left, so whoever
still holds a slot has never endorsed another claim.
-/

namespace EpochClaims

namespace Manager

/-- A validator endorses a claim by sending it in a call that is committed
without a conflict, or by winning a dispute that makes it the current claim. -/
inductive Endorses (m : Manager) : Call → Address → Claim → Prop where
  | sent {s : Submission} {a : Address} {x : Claim} {m' : Manager} {v : Verdict}
      (hsender : a.IsSpelledBy s.validator)
      (hclaim : Claim.ofArgument s.claim = .ok x)
      (hperform : m.perform (.submit s) = .ok (m', .claimed v))
      (hresult : v.result ≠ .conflict) : Endorses m (.submit s) a x
  | won {d : Dispute} {a : Address} {x : Claim} {m' : Manager} {v : Verdict}
      (hwinner : a.IsSpelledBy d.winner)
      (hperform : m.perform (.dispute d) = .ok (m', .judged v))
      (hbefore : m.state.claim ≠ some x) (hafter : m'.state.claim = some x) :
      Endorses m (.dispute d) a x

/-- A validator endorsed a claim in the epoch that is open after a run: one of
the calls made it do so, and the epoch was not closed since. -/
def Endorsed (m : Manager) : List Call → Address → Claim → Prop
  | [], _, _ => False
  | c :: calls, a, x =>
      (m.Endorses c a x ∧ (m.after c).StaysOpen calls) ∨ (m.after c).Endorsed calls a x

@[simp] theorem not_endorsed_nil (m : Manager) (a : Address) (x : Claim) :
    ¬ m.Endorsed [] a x :=
  id

theorem endorsed_cons (m : Manager) (c : Call) (calls : List Call) (a : Address) (x : Claim) :
    m.Endorsed (c :: calls) a x ↔
      (m.Endorses c a x ∧ (m.after c).StaysOpen calls) ∨ (m.after c).Endorsed calls a x :=
  Iff.rfl

theorem endorsed_append (m : Manager) (calls more : List Call) (a : Address) (x : Claim) :
    m.Endorsed (calls ++ more) a x ↔
      (m.Endorsed calls a x ∧ (m.run calls).StaysOpen more) ∨
        (m.run calls).Endorsed more a x := by
  induction calls generalizing m with
  | nil => simp
  | cons c calls ih =>
      rw [List.cons_append, endorsed_cons, endorsed_cons, ih, staysOpen_append, run_cons,
        or_and_right, and_assoc, or_assoc]

theorem endorsed_concat (m : Manager) (calls : List Call) (c : Call) (a : Address) (x : Claim) :
    m.Endorsed (calls ++ [c]) a x ↔
      (m.Endorsed calls a x ∧ ¬ (m.run calls).Closes c) ∨ (m.run calls).Endorses c a x := by
  rw [endorsed_append, endorsed_cons, staysOpen_cons]
  simp

variable {m : Manager} {a : Address} {x : Claim}

/-- The validator that a text spells is the one whose slot a lookup of the text
finds. -/
theorem slot_eq_some_iff_isSpelledBy {s : String} {i : Fin m.capacity}
    (h : m.state.roster.indexOf s = some i) :
    m.state.roster.slot i = some a ↔ a.IsSpelledBy s := by
  obtain ⟨b, hb, hkey⟩ := Roster.slot_of_indexOf h
  rw [hb, Option.some.injEq, Address.IsSpelledBy, ← hkey]
  constructor
  · intro hba
    rw [hba]
  · exact Address.key_injective

theorem endorses_of_endorsed {s : Submission} {h : Heard m.capacity} (hear : m.hear s = .ok h)
    (hclaim : m.state.claim = none ∨ m.state.claim = some h.claim) :
    m.Endorses (.submit s) a x ↔ m.state.roster.slot h.slot = some a ∧ x = h.claim := by
  obtain ⟨-, hread, hindex, -⟩ := hear_eq_ok_iff.1 hear
  rw [slot_eq_some_iff_isSpelledBy hindex]
  constructor
  · intro hendorses
    cases hendorses with
    | sent hsender hx _ _ => exact ⟨hsender, Except.ok.inj (hx.symm.trans hread)⟩
  · rintro ⟨hsender, rfl⟩
    exact .sent hsender hread (perform_eq_ok_iff.2 ⟨_, rfl, .endorsed hear hclaim⟩)
      (result_settle_ne_conflict _ _ _ _)

theorem endorses_of_adopted {d : Dispute} {j : Judged m.capacity} (judge : m.judge d = .ok j)
    (hclaim : m.state.claim ≠ some j.claim)
    (hempty : (m.afterEviction j.loser).agreement = Mask.empty) :
    m.Endorses (.dispute d) a x ↔ m.state.roster.slot j.slot = some a ∧ x = j.claim := by
  obtain ⟨-, -, hindex, -⟩ := judge_eq_ok_iff.1 judge
  have hperform := perform_eq_ok_iff.2 ⟨_, rfl, .adopted judge hclaim hempty⟩
  rw [slot_eq_some_iff_isSpelledBy hindex]
  constructor
  · intro hendorses
    cases hendorses with
    | won hwinner hp _ hafter =>
        rw [hperform] at hp
        cases hp
        exact ⟨hwinner, (Option.some.inj hafter).symm⟩
  · rintro ⟨hwinner, rfl⟩
    exact .won hwinner hperform hclaim rfl

theorem not_endorses_of_conflict {s : Submission} {next : State m.capacity}
    {current : Option Claim} {rival : Claim} {e o : Address}
    (h : Committed m (.submit s) next (.claimed (.conflict current rival e o))) :
    ¬ m.Endorses (.submit s) a x := by
  intro hendorses
  cases hendorses with
  | sent _ _ hp hresult =>
      rw [perform_eq_ok_iff.2 ⟨_, rfl, h⟩] at hp
      cases hp
      exact hresult rfl

/-- A dispute that leaves the current claim in place makes nobody endorse it. -/
theorem not_endorses_of_claim_eq {d : Dispute} {next : State m.capacity} {r : Reply}
    (h : Committed m (.dispute d) next r) (hclaim : next.claim = m.state.claim) :
    ¬ m.Endorses (.dispute d) a x := by
  intro hendorses
  cases hendorses with
  | won _ hp hbefore hafter =>
      rw [perform_eq_ok_iff.2 ⟨_, rfl, h⟩] at hp
      cases hp
      exact hbefore (hclaim.symm.trans hafter)

theorem not_endorses_of_refused {c : Call} {e : Refusal} (h : m.perform c = .error e) :
    ¬ m.Endorses c a x := by
  intro hendorses
  cases hendorses with
  | sent _ _ hp _ =>
      rw [h] at hp
      contradiction
  | won _ hp _ _ =>
      rw [h] at hp
      contradiction

/-- The agreement of a state records the endorsements of a run: a validator in
a slot has endorsed the current claim if its bit is set, and otherwise none. -/
def Records (m : Manager) (calls : List Call) {n : Nat} (s : State n) : Prop :=
  ∀ i a x, s.roster.slot i = some a →
    (m.Endorsed calls a x ↔ s.claim = some x ∧ i ∈ s.agreement)

/-- A call that makes nobody endorse anything and leaves the bits and the claim
of those who stay keeps the record. -/
theorem Records.kept {calls : List Call} {c : Call} {s : State (m.run calls).capacity}
    (hrec : m.Records calls (m.run calls).state) (hopen : ¬ (m.run calls).Closes c)
    (hnot : ∀ a x, ¬ (m.run calls).Endorses c a x)
    (hslot : ∀ i a, s.roster.slot i = some a → (m.run calls).state.roster.slot i = some a)
    (hclaim : s.claim = (m.run calls).state.claim)
    (hagreement : ∀ i a, s.roster.slot i = some a →
      (i ∈ s.agreement ↔ i ∈ (m.run calls).state.agreement)) :
    m.Records (calls ++ [c]) s := by
  intro i a x hi
  rw [endorsed_concat, or_iff_left (hnot a x), and_iff_left hopen,
    hrec i a x (hslot i a hi), hclaim, hagreement i a hi]

theorem Records.endorse {calls : List Call} {s : Submission} {h : Heard (m.run calls).capacity}
    (hm : (m.run calls).state.Sound) (hrec : m.Records calls (m.run calls).state)
    (hear : (m.run calls).hear s = .ok h)
    (hclaim : (m.run calls).state.claim = none ∨ (m.run calls).state.claim = some h.claim) :
    m.Records (calls ++ [.submit s]) ((m.run calls).state.endorse h.claim h.slot) := by
  intro i a x hi
  have hopen : ¬ (m.run calls).Closes (.submit s) := by
    rw [closes_iff (.endorsed hear hclaim)]
    exact nofun
  -- Whoever is in the agreement already has endorsed this very claim.
  have hcurrent : i ∈ (m.run calls).state.agreement →
      (m.run calls).state.claim = some h.claim := by
    intro hmem
    rcases hclaim with hnone | hsome
    · exact absurd hnone (hm.claim_ne_none i hmem)
    · exact hsome
  rw [endorsed_concat, endorses_of_endorsed hear hclaim, hrec i a x hi,
    State.endorse, Mask.mem_insert]
  constructor
  · rintro (⟨⟨hx, hmem⟩, -⟩ | ⟨hslot, rfl⟩)
    · exact ⟨(hcurrent hmem).symm.trans hx, .inr hmem⟩
    · exact ⟨rfl, .inl (hm.distinct i h.slot a hi hslot)⟩
  · rintro ⟨hx, rfl | hmem⟩
    · exact .inr ⟨hi, (Option.some.inj hx).symm⟩
    · exact .inl ⟨⟨(hcurrent hmem).trans hx, hmem⟩, hopen⟩

theorem Records.adopt {calls : List Call} {d : Dispute} {j : Judged (m.run calls).capacity}
    (hm : (m.run calls).state.Sound) (hrec : m.Records calls (m.run calls).state)
    (judge : (m.run calls).judge d = .ok j)
    (hclaim : (m.run calls).state.claim ≠ some j.claim)
    (hempty : ((m.run calls).afterEviction j.loser).agreement = Mask.empty) :
    m.Records (calls ++ [.dispute d])
      (((m.run calls).afterEviction j.loser).endorse j.claim j.slot) := by
  intro i a x hi
  have hkept := ((m.run calls).slot_afterEviction_eq_some_iff j.loser).1 hi
  -- The winner's claim replaces a claim that nobody who holds a slot has endorsed.
  have hout : i ∉ (m.run calls).state.agreement := by
    intro hmem
    have hafter := ((m.run calls).mem_agreement_afterEviction j.loser).2 ⟨hkept.1, hmem⟩
    rw [hempty] at hafter
    exact Mask.mem_empty hafter
  rw [endorsed_concat, endorses_of_adopted judge hclaim hempty, hrec i a x hkept.2,
    State.endorse, hempty, Mask.mem_insert, or_iff_left Mask.mem_empty]
  constructor
  · rintro (⟨⟨-, hmem⟩, -⟩ | ⟨hslot, rfl⟩)
    · exact absurd hmem hout
    · exact ⟨rfl, hm.distinct i j.slot a hkept.2 hslot⟩
  · rintro ⟨hx, rfl⟩
    exact .inr ⟨hkept.2, (Option.some.inj hx).symm⟩

theorem Records.close {calls : List Call} {account : Argument}
    (hauth : (m.run calls).IsOrchestrator account) :
    m.Records (calls ++ [.advance account]) (m.run calls).state.close := by
  intro i a x _
  have hcloses : (m.run calls).Closes (.advance account) :=
    (closes_iff (.closed hauth)).2 ⟨_, rfl⟩
  rw [endorsed_concat]
  constructor
  · rintro (⟨-, hopen⟩ | hendorses)
    · exact absurd hcloses hopen
    · cases hendorses
  · rintro ⟨hnone, -⟩
    exact absurd hnone (Option.some_ne_none x).symm

theorem Records.afterEviction {calls : List Call} {d : Dispute}
    {j : Judged (m.run calls).capacity} {v : Verdict}
    (hrec : m.Records calls (m.run calls).state)
    (h : Committed (m.run calls) (.dispute d) ((m.run calls).afterEviction j.loser) (.judged v)) :
    m.Records (calls ++ [.dispute d]) ((m.run calls).afterEviction j.loser) := by
  refine hrec.kept ?_ (fun _ _ => not_endorses_of_claim_eq h (claim_afterEviction _ _)) ?_
    (claim_afterEviction _ _) ?_
  · rw [closes_iff h]
    exact nofun
  · intro i a hi
    exact (((m.run calls).slot_afterEviction_eq_some_iff j.loser).1 hi).2
  · intro i a hi
    have hkept := ((m.run calls).slot_afterEviction_eq_some_iff j.loser).1 hi
    rw [mem_agreement_afterEviction, and_iff_right hkept.1]

/-- Every way through a call keeps the record. -/
theorem Records.committed {calls : List Call} {c : Call} {s : State (m.run calls).capacity}
    {r : Reply} (hm : (m.run calls).state.Sound) (hrec : m.Records calls (m.run calls).state)
    (hc : c.IsMarked) (h : Committed (m.run calls) c s r) : m.Records (calls ++ [c]) s := by
  cases h with
  | endorsed hear hclaim =>
      exact hrec.endorse hm hear hclaim
  | contradicted hear hclaim hendorser =>
      have hcommit := Committed.contradicted hear hclaim hendorser
      refine hrec.kept ?_ (fun _ _ => not_endorses_of_conflict hcommit) (fun _ _ hi => hi) rfl
        (fun _ _ _ => Iff.rfl)
      rw [closes_iff hcommit]
      exact nofun
  | upheld judge hclaim => exact hrec.afterEviction (.upheld judge hclaim)
  | adopted judge hclaim hempty =>
      exact hrec.adopt hm judge hclaim hempty
  | contested judge hclaim hsome hendorser =>
      exact hrec.afterEviction (.contested judge hclaim hsome hendorser)
  | closed hauth => exact Records.close hauth

theorem records_run {calls : List Call} (hm : m.state.Sound)
    (hempty : m.state.agreement = Mask.empty) (hcalls : ∀ c ∈ calls, c.IsMarked) :
    (m.run calls).state.Sound ∧ m.Records calls (m.run calls).state := by
  refine run_induction (P := fun calls m' => m'.state.Sound ∧ m.Records calls m'.state)
    ⟨hm, ?_⟩ ?_ ?_ calls hcalls
  · intro i a x _
    rw [hempty]
    exact iff_of_false (not_endorsed_nil m a x) (fun h => Mask.mem_empty h.2)
  · intro calls c s r ih hc h
    exact ⟨h.sound ih.1 hc, ih.2.committed ih.1 hc h⟩
  · intro calls c e ih _ h
    exact ⟨ih.1, ih.2.kept (not_closes_of_refused h) (fun _ _ => not_endorses_of_refused h)
      (fun _ _ hi => hi) rfl (fun _ _ _ => Iff.rfl)⟩

/-- The agreement marks the occupied slots whose validators endorsed the current
claim. A validator that still holds a slot has endorsed no two claims in one
epoch, so a consensus means that all of them endorsed its claim. -/
theorem mem_agreement_iff_endorsed {d : Option Document} (hm : ofDocument d = .ok m)
    {calls : List Call} (hcalls : ∀ c ∈ calls, c.IsMarked) :
    (∀ i, i ∈ (m.run calls).state.agreement ↔
        ∃ a x, (m.run calls).state.roster.slot i = some a ∧
          (m.run calls).state.claim = some x ∧ m.Endorsed calls a x) ∧
      (∀ before after, calls = before ++ after → ∀ a x y, (m.run calls).IsMember a →
        m.Endorsed before a x → m.Endorsed before a y → x = y) ∧
      (∀ c m' r x b, c.IsMarked → (m.run calls).perform c = .ok (m', r) →
        r.verdict? = some (.consensus x b) →
          ∀ a, m'.IsMember a → m.Endorsed (calls ++ [c]) a x) := by
  obtain ⟨config, -, hadmissible, rfl⟩ := ofDocument_eq_ok_iff.1 hm
  have hrecords : ∀ calls : List Call, (∀ c ∈ calls, c.IsMarked) →
      ((ofRoster config).run calls).state.Sound ∧
        (ofRoster config).Records calls ((ofRoster config).run calls).state :=
    fun _ h => records_run (sound_ofRoster hadmissible) rfl h
  refine ⟨?_, ?_, ?_⟩
  · obtain ⟨hsound, hrec⟩ := hrecords calls hcalls
    intro i
    constructor
    · intro hi
      obtain ⟨a, ha⟩ := hsound.mem_goal_iff.1 (hsound.agreement_le i hi)
      obtain ⟨x, hx⟩ := Option.ne_none_iff_exists'.1 (hsound.claim_ne_none i hi)
      exact ⟨a, x, ha, hx, (hrec i a x ha).2 ⟨hx, hi⟩⟩
    · rintro ⟨a, x, ha, hx, hendorsed⟩
      exact ((hrec i a x ha).1 hendorsed).2
  · rintro before after rfl a x y hmember hx hy
    rw [run_append] at hmember
    obtain ⟨i, hi⟩ := isMember_of_run hmember
    obtain ⟨-, hrec⟩ := hrecords before fun c hc => hcalls c (List.mem_append_left after hc)
    have hclaim := ((hrec i a x hi).1 hx).1
    exact Option.some.inj (hclaim.symm.trans ((hrec i a y hi).1 hy).1)
  · rintro c m' r x b hc hperform hverdict a ⟨i, hi⟩
    obtain ⟨s, rfl, hcommit⟩ := perform_eq_ok_iff.1 hperform
    obtain ⟨hsound, hrec⟩ := hrecords (calls ++ [c]) (by
      intro e he
      rcases List.mem_append.1 he with he | he
      · exact hcalls e he
      · rw [List.mem_singleton.1 he]
        exact hc)
    rw [run_concat, after_of_committed hcommit] at hsound hrec
    have hmasks := (hcommit.verdict hverdict).1 rfl
    have hmem : i ∈ s.agreement := by
      rw [hmasks]
      exact hsound.mem_goal_iff.2 ⟨a, hi⟩
    exact (hrec i a x hi).2 ⟨hcommit.claim_of_consensus hverdict, hmem⟩

/-- The record of the quarrel. -/
theorem mem_agreement_iff_endorsed_quarrel :
    ofDocument (some Config.duo.toDocument) = .ok (ofRoster Config.duo) ∧
      (∀ c ∈ Call.quarrel, c.IsMarked) ∧
      ∀ i, i ∈ ((ofRoster Config.duo).run Call.quarrel).state.agreement ↔
        ∃ a x, ((ofRoster Config.duo).run Call.quarrel).state.roster.slot i = some a ∧
          ((ofRoster Config.duo).run Call.quarrel).state.claim = some x ∧
          (ofRoster Config.duo).Endorsed Call.quarrel a x :=
  ⟨ofDocument_duo, Call.isMarked_quarrel,
    (mem_agreement_iff_endorsed ofDocument_duo Call.isMarked_quarrel).1⟩

end Manager

end EpochClaims
