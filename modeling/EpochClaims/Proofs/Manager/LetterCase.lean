import EpochClaims.Proofs.Event.Spelling
import EpochClaims.Proofs.Manager.Replies

/-!
# Letter case of hexadecimal text

`Config.lowered` and `Call.lowered` put the hexadecimal texts of a configuration
and of a call in lower case, behind the marker `0x`. Two of them are the same up
to the case of these letters if their lowered forms are equal. A manager is made
of a configuration as of the lowered one (`ofDocument_lowered`), and performs a
call as it performs the lowered one, but for the spellings that a refusal quotes
(`perform_lowered`). The same follows for runs, call by call.
-/

namespace EpochClaims

/-- A field of a configuration with its addresses in lower case. -/
def Config.loweredField (name : String) (d : Document) : Document :=
  if name = "orchestrator" then d.mapText Hex.lowered
  else if name = "validators" then d.mapMembers Hex.lowered
  else d

/-- A configuration with its addresses in lower case. -/
def Config.lowered : Document → Document
  | .object fields => .object (fields.map fun f => (f.1, loweredField f.1 f.2))
  | d => d

/-- A call with its addresses and its claim in lower case. -/
def Call.lowered : Call → Call
  | submit s => submit ⟨s.account.mapText Hex.lowered, Hex.lowered s.validator,
      s.claim.mapText Hex.lowered⟩
  | dispute d => dispute ⟨d.account.mapText Hex.lowered, Hex.lowered d.winner,
      Hex.lowered d.loser, d.winningClaim.mapText Hex.lowered⟩
  | advance account => advance (account.mapText Hex.lowered)

/-- A fault with the value that it quotes in lower case. -/
def Claim.Fault.lowered : Claim.Fault → Claim.Fault
  | malformed given => malformed (given.mapText Hex.lowered)
  | empty given => empty (given.mapText Hex.lowered)

/-- A refusal with the values of the call that it quotes in lower case. -/
def Refusal.lowered : Refusal → Refusal
  | unauthorized caller orchestrator =>
    unauthorized (caller.mapText Hex.lowered) orchestrator
  | claim fault => claim fault.lowered
  | unknownValidator validator role => unknownValidator (Hex.lowered validator) role
  | e => e

/-- The class of a refusal, its code and its role. -/
def Refusal.sort (e : Refusal) : String × Option Argument × Option Argument :=
  (e.report.kind, e.report.details.lookup "code", e.report.details.lookup "role")

theorem Call.lowered_lowered (c : Call) : c.lowered.lowered = c.lowered := by
  cases c <;> simp [lowered, Argument.mapText_mapText, Hex.lowered_comp_lowered]

theorem Refusal.sort_lowered (e : Refusal) : e.lowered.sort = e.sort := by
  cases e with
  | claim fault => cases fault <;> rfl
  | unauthorized _ _ => rfl
  | orchestratorNotAddress _ => rfl
  | unknownValidator _ _ => rfl
  | selfDispute _ => rfl
  | breach _ => rfl

/-! ### Configurations -/

namespace Config

theorem loweredField_loweredField (name : String) (d : Document) :
    loweredField name (loweredField name d) = loweredField name d := by
  unfold loweredField
  split
  · rw [Document.mapText_mapText, Hex.lowered_comp_lowered]
  · split
    · rw [Document.mapMembers_mapMembers, Hex.lowered_comp_lowered]
    · rfl

theorem lowered_lowered (d : Document) : lowered (lowered d) = lowered d := by
  cases d with
  | object fields =>
      simp only [lowered, List.map_map, Function.comp_def, loweredField_loweredField]
  | null => rfl
  | bool _ => rfl
  | number _ => rfl
  | list _ => rfl
  | text _ => rfl

theorem readAddress_lowered (place : Place) (d : Option Document) :
    readAddress place (d.map (Document.mapText Hex.lowered)) = readAddress place d := by
  cases d with
  | none => rfl
  | some d =>
      cases d with
      | text s =>
          rw [Option.map_some, Document.mapText, readAddress, readAddress,
            Address.ofText?_lowered]
      | null => rfl
      | bool _ => rfl
      | number _ => rfl
      | list _ => rfl
      | object _ => rfl

theorem readEntries_lowered (items : List Document) :
    ∀ index, readEntries index (items.map (Document.mapText Hex.lowered)) =
      readEntries index items := by
  induction items with
  | nil => exact fun _ => rfl
  | cons d items ih =>
      intro index
      have hfirst := readAddress_lowered (.validator index) (some d)
      rw [Option.map_some] at hfirst
      rw [List.map_cons, readEntries, readEntries, hfirst, ih]

theorem readValidators_lowered (d : Option Document) :
    readValidators (d.map (Document.mapMembers Hex.lowered)) = readValidators d := by
  cases d with
  | none => rfl
  | some d =>
      cases d with
      | list items =>
          rw [Option.map_some, Document.mapMembers, readValidators, readValidators,
            List.length_map, readEntries_lowered]
      | null => rfl
      | bool _ => rfl
      | number _ => rfl
      | text _ => rfl
      | object _ => rfl

theorem field?_lowered (fields : List (String × Document)) (name : String) :
    Document.field? (fields.map fun f => (f.1, loweredField f.1 f.2)) name =
      (Document.field? fields name).map (loweredField name) := by
  rw [Document.field?, Document.field?]
  induction fields with
  | nil => rfl
  | cons f fields ih =>
      obtain ⟨key, d⟩ := f
      rw [List.map_cons, List.lookup_cons, List.lookup_cons]
      by_cases h : name = key
      · subst h
        simp
      · rw [beq_eq_false_iff_ne.2 h]
        exact ih

/-- A configuration reads as its lowered form, its issues included. -/
theorem read_lowered (d : Document) : read (some (lowered d)) = read (some d) := by
  cases d with
  | object fields =>
      have horchestrator : loweredField "orchestrator" = Document.mapText Hex.lowered := rfl
      have hvalidators : loweredField "validators" = Document.mapMembers Hex.lowered := rfl
      have hpolicy : loweredField "unknownLoserPolicy" = id := rfl
      rw [lowered, read, read, readFields, readFields, field?_lowered, field?_lowered,
        field?_lowered, horchestrator, hvalidators, hpolicy, readAddress_lowered,
        readValidators_lowered, Option.map_id, id]
  | null => rfl
  | bool _ => rfl
  | number _ => rfl
  | list _ => rfl
  | text _ => rfl

end Config

/-! ### Calls -/

/-- A reader that forgets letter case reads a value as the lowered one. -/
theorem Argument.bind_chars?_lowered {α : Type} {read : List Char → Option α}
    (hread : ∀ s : String, read (Hex.lowered s).toList = read s.toList) (v : Argument) :
    (v.mapText Hex.lowered).chars?.bind read = v.chars?.bind read := by
  cases v with
  | missing => rfl
  | given d =>
      cases d with
      | text s => exact hread s
      | null => rfl
      | bool _ => rfl
      | number _ => rfl
      | list _ => rfl
      | object _ => rfl

theorem Claim.ofArgument_lowered (v : Argument) :
    ofArgument (v.mapText Hex.lowered) = (ofArgument v).mapError Fault.lowered := by
  have hsized : sized? (v.mapText Hex.lowered) = sized? v := by
    rw [sized?, sized?, Argument.bind_chars?_lowered Hex.read?_lowered]
  rw [ofArgument, ofArgument, hsized]
  cases sized? v with
  | none => rfl
  | some ds =>
      by_cases hne : ds.1 ≠ noneDigits
      · simp only [dif_pos hne]
        rfl
      · simp only [dif_neg hne]
        rfl

theorem Roster.lookupKey_lowered (s : String) : lookupKey (Hex.lowered s) = lookupKey s := by
  by_cases h : Hex.IsMarked s
  · obtain ⟨body, hbody⟩ := Hex.isMarked_iff.1 h
    rw [lookupKey, lookupKey, Hex.lowered_of_marked hbody, String.toList_ofList, hbody]
    simp only [List.map_cons, Hex.map_toLower_map_toLower]
  · rw [Hex.lowered_of_not_marked h]

theorem Roster.indexOf_lowered {n : Nat} (r : Roster n) (s : String) :
    r.indexOf (Hex.lowered s) = r.indexOf s := by
  rw [indexOf, indexOf, lookupKey_lowered]

namespace Manager

/-- A manager is made of a configuration as of its lowered form. -/
theorem ofDocument_lowered (d : Document) :
    ofDocument (some (Config.lowered d)) = ofDocument (some d) := by
  rw [ofDocument, ofDocument, Config.read_lowered]

variable (m : Manager)

theorem authorize_lowered (account : Argument) :
    m.authorize (account.mapText Hex.lowered) =
      (m.authorize account).mapError Refusal.lowered := by
  rw [authorize, authorize, Argument.bind_chars?_lowered Address.ofText?_lowered]
  cases account.chars?.bind Address.ofText? with
  | none => rfl
  | some caller =>
      cases m.orchestrator.chars?.bind Address.ofText? with
      | none => rfl
      | some orchestrator => by_cases h : caller = orchestrator <;> simp [h, Except.mapError,
          Refusal.lowered]

theorem readClaim_lowered (v : Argument) :
    readClaim (v.mapText Hex.lowered) = (readClaim v).mapError Refusal.lowered := by
  rw [readClaim, readClaim, Claim.ofArgument_lowered]
  cases Claim.ofArgument v <;> rfl

theorem holder_lowered (role : Role) (s : String) :
    m.holder role (Hex.lowered s) = (m.holder role s).mapError Refusal.lowered := by
  rw [holder, holder, Roster.indexOf_lowered]
  cases m.state.roster.indexOf s with
  | none => rfl
  | some i => cases h : m.state.roster.slot i <;> simp only [h] <;> rfl

theorem loserSlot_lowered (s : String) :
    m.loserSlot (Hex.lowered s) = (m.loserSlot s).mapError Refusal.lowered := by
  rw [loserSlot, loserSlot, Roster.indexOf_lowered]
  cases m.state.roster.indexOf s with
  | some i => rfl
  | none => cases m.rejectsUnknownLosers <;> rfl

theorem hear_lowered (s : Submission) :
    m.hear ⟨s.account.mapText Hex.lowered, Hex.lowered s.validator, s.claim.mapText Hex.lowered⟩ =
      (m.hear s).mapError Refusal.lowered := by
  rw [hear, hear]
  simp only [mapError_bind, authorize_lowered, readClaim_lowered, holder_lowered]
  rfl

theorem judge_lowered (d : Dispute) :
    m.judge ⟨d.account.mapText Hex.lowered, Hex.lowered d.winner, Hex.lowered d.loser,
        d.winningClaim.mapText Hex.lowered⟩ =
      (m.judge d).mapError Refusal.lowered := by
  rw [judge, judge]
  simp only [mapError_bind, authorize_lowered, readClaim_lowered, holder_lowered,
    Address.ofText?_lowered, loserSlot_lowered]
  refine bind_congr fun _ => bind_congr fun claim => bind_congr fun winner => ?_
  by_cases hself : Address.ofText? d.loser.toList = some winner.2
  · simp only [if_pos hself]
    rfl
  · simp only [if_neg hself, mapError_bind]
    rfl

theorem commit_mapError (x : Except Breach (State m.capacity × Verdict)) :
    (m.commit x).mapError Refusal.lowered = m.commit x := by
  cases x <;> rfl

theorem submit_lowered (s : Submission) :
    m.submit ⟨s.account.mapText Hex.lowered, Hex.lowered s.validator,
        s.claim.mapText Hex.lowered⟩ = (m.submit s).mapError Refusal.lowered := by
  simp only [submit, hear_lowered, mapError_bind, commit_mapError]

theorem resolve_lowered (d : Dispute) :
    m.resolve ⟨d.account.mapText Hex.lowered, Hex.lowered d.winner, Hex.lowered d.loser,
        d.winningClaim.mapText Hex.lowered⟩ = (m.resolve d).mapError Refusal.lowered := by
  simp only [resolve, judge_lowered, mapError_bind, commit_mapError]

theorem advance_lowered (account : Argument) :
    m.advance (account.mapText Hex.lowered) = (m.advance account).mapError Refusal.lowered := by
  simp only [advance, authorize_lowered, mapError_bind]
  rfl

/-- A call is performed as its lowered form is, but for what a refusal quotes. -/
theorem perform_lowered (c : Call) :
    m.perform c.lowered = (m.perform c).mapError Refusal.lowered := by
  cases c with
  | submit s => rw [Call.lowered, perform, perform, submit_lowered, mapError_map]
  | dispute d => rw [Call.lowered, perform, perform, resolve_lowered, mapError_map]
  | advance account => rw [Call.lowered, perform, perform, advance_lowered, mapError_map]

theorem after_lowered (c : Call) : m.after c.lowered = m.after c := by
  rw [after, after, perform_lowered]
  cases m.perform c <;> rfl

theorem run_lowered (calls : List Call) : m.run (calls.map Call.lowered) = m.run calls := by
  induction calls generalizing m with
  | nil => rfl
  | cons c calls ih => rw [List.map_cons, run_cons, run_cons, after_lowered, ih]

/-- A run returns what the lowered run returns, but for what refusals quote. -/
theorem replies_lowered (calls : List Call) :
    m.replies (calls.map Call.lowered) =
      (m.replies calls).map (Except.mapError Refusal.lowered) := by
  induction calls generalizing m with
  | nil => rfl
  | cons c calls ih =>
      rw [List.map_cons, replies_cons, replies_cons, List.map_cons, after_lowered, ih,
        perform_lowered, mapError_map]

end Manager

end EpochClaims
