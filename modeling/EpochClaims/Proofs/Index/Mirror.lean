import EpochClaims.Index.View
import EpochClaims.Proofs.Manager.Consensus
import EpochClaims.Proofs.Manager.Replies
import Mathlib.Data.List.DropRight
import Mathlib.Logic.Function.Iterate

/-!
# The view of a manager

A view knows a manager by its events only. Conflicts and closed epochs are read
off the replies (`View.conflicts_ingestAll`, `View.finalized_ingestAll`), and the
phase and the claim of the consensus agree with masks that the view never sees:
`View.Mirrors` says how, and every way through a call keeps it. That a consensus
known to the view is still one rests on the finality of a consensus.

Which phase a view is in at the beginning of an epoch and how many epochs it
has counted does not depend on how losers are spelled.
-/

namespace EpochClaims

namespace Reply

/-- The claim of a closed epoch. -/
def closed? : Reply → Option (Option Claim)
  | closed claim => some claim
  | _ => none

/-- The outcome of a conflict. -/
def conflict? (r : Reply) : Option Outcome :=
  (r.verdict?.filter fun v => v.result = .conflict).map Verdict.outcome

/-- A reply tells an outcome or closes an epoch. -/
theorem heard_or_closed (r : Reply) :
    (∃ w, r.verdict? = some w ∧ r.closed? = none ∧
      r.conflict? = if w.result = .conflict then some w.outcome else none) ∨
        ∃ claim, r = closed claim := by
  cases r with
  | claimed w =>
      refine .inl ⟨w, rfl, rfl, ?_⟩
      by_cases h : w.result = .conflict <;> simp [conflict?, verdict?, h]
  | judged w =>
      refine .inl ⟨w, rfl, rfl, ?_⟩
      by_cases h : w.result = .conflict <;> simp [conflict?, verdict?, h]
  | closed claim => exact .inr ⟨claim, rfl⟩

end Reply

theorem filterMap_concat {α β : Type} (f : α → Option β) (l : List α) (a : α) :
    (l ++ [a]).filterMap f = l.filterMap f ++ (f a).toList := by
  rw [List.filterMap_append, List.filterMap_cons]
  cases f a <;> rfl

/-- What is read off the members of a list behind the last one that ends something. -/
def readSince {α β : Type} (ends : α → Bool) (f : α → Option β) (l : List α) : List β :=
  (l.rtakeWhile fun a => !ends a).filterMap f

theorem readSince_concat {α β : Type} (ends : α → Bool) (f : α → Option β) (l : List α) (a : α) :
    readSince ends f (l ++ [a]) = if ends a then [] else readSince ends f l ++ (f a).toList := by
  rw [readSince, List.rtakeWhile_concat]
  cases h : ends a with
  | true => rfl
  | false =>
      rw [Bool.not_false, if_pos rfl, filterMap_concat]
      rfl

/-- The replies since an epoch was closed. -/
def sinceClosed (replies : List Reply) : List Reply :=
  replies.rtakeWhile fun r => r.closed?.isNone

theorem sinceClosed_concat (replies : List Reply) (r : Reply) :
    sinceClosed (replies ++ [r]) =
      if r.closed?.isNone then sinceClosed replies ++ [r] else [] :=
  List.rtakeWhile_concat ..

def Event.closes : Event → Bool
  | newEpoch _ => true
  | _ => false

namespace View

/-! What one reply does to a view. -/

theorem epoch_hear (v : View) (o : Outcome) : (v.hear o).epoch = v.epoch := by
  rw [hear]
  split <;> rfl

theorem finalized_hear (v : View) (o : Outcome) : (v.hear o).finalized = v.finalized := by
  rw [hear]
  split <;> rfl

theorem ingest_of_verdict (v : View) {r : Reply} {w : Verdict} (hw : r.verdict? = some w) :
    v.ingest r.event = v.hear w.outcome := by
  cases r with
  | claimed _ => rw [← Option.some.inj hw]; rfl
  | judged _ => rw [← Option.some.inj hw]; rfl
  | closed _ => contradiction

theorem ingest_closed (v : View) (claim : Option Claim) :
    v.ingest (Reply.closed claim).event = v.close (.text (Claim.textOf claim)) := rfl

theorem hear_conflict (v : View) {w : Verdict} (hw : w.result = .conflict) :
    v.hear w.outcome =
      { v with conflicts := v.conflicts ++ [w.outcome],
               phase := .awaitingConsensusAfterConflict } := by
  rw [hear, Verdict.result?_outcome, hw]

theorem hear_consensus (v : View) (x : Claim) (a : Address) :
    v.hear (Verdict.consensus x a).outcome =
      { v with consensusClaim := .text x.text, phase := .consensusReached } := rfl

theorem hear_noConflict (v : View) :
    v.hear Verdict.noConflict.outcome =
      { v with
        phase :=
          if v.conflicts.isEmpty then .awaitingConsensusNoConflict
          else .awaitingConsensusAfterConflict } := rfl

/-- A view that hears an outcome is past the first claim, in the same epoch. -/
theorem hear_outcome (v : View) (w : Verdict) :
    (v.hear w.outcome).phase ≠ .awaitingFirstClaim ∧ (v.hear w.outcome).epoch = v.epoch ∧
      (v.hear w.outcome).finalized = v.finalized ∧
      (v.hear w.outcome).conflicts =
        v.conflicts ++ if w.result = .conflict then [w.outcome] else [] := by
  cases w with
  | noConflict =>
      rw [hear_noConflict]
      refine ⟨?_, rfl, rfl, (List.append_nil _).symm⟩
      by_cases h : v.conflicts.isEmpty = true <;> simp [h]
  | consensus x a =>
      rw [hear_consensus]
      exact ⟨nofun, rfl, rfl, (List.append_nil _).symm⟩
  | conflict _ _ _ _ =>
      rw [hear_conflict v rfl]
      exact ⟨nofun, rfl, rfl, rfl⟩

/-! What a row of replies does to a view. -/

/-- A number that counts on stays exact as long as it passes integers of at most
`2 ^ 53` in size. -/
theorem next_iterate_ofInt_of_lt (z : Int) (k : Nat)
    (h : ∀ j : Nat, j < k → (z + j).natAbs ≤ Binary64.exactBound) :
    Argument.next^[k] (.number (Binary64.ofInt z)) = .number (Binary64.ofInt (z + k)) := by
  induction k with
  | zero => simp
  | succ k ih =>
      rw [Function.iterate_succ_apply', ih fun j hj => h j (Nat.lt_succ_of_lt hj),
        Argument.next_number, Binary64.succ_ofInt (h k (Nat.lt_succ_self k)), Int.natCast_succ,
        Int.add_assoc]

theorem next_iterate_ofInt (z : Int) (k : Nat) (h : z.natAbs + k ≤ Binary64.exactBound) :
    Argument.next^[k] (.number (Binary64.ofInt z)) = .number (Binary64.ofInt (z + k)) :=
  next_iterate_ofInt_of_lt z k fun j hj => by omega

/-- The epoch is one more for every event that closes one. -/
theorem epoch_ingestAll (v : View) (es : List Event) :
    (v.ingestAll es).epoch = Argument.next^[es.countP Event.closes] v.epoch := by
  induction es generalizing v with
  | nil => rfl
  | cons e es ih =>
      rw [ingestAll_cons, ih]
      cases e with
      | claimReceived o => rw [ingest, epoch_hear]; rfl
      | disputeEnded o => rw [ingest, epoch_hear]; rfl
      | newEpoch claim =>
          rw [List.countP_cons_of_pos rfl, Function.iterate_succ_apply]
          rfl
      | other name => rfl

theorem countP_closes (replies : List Reply) :
    (replies.map Reply.event).countP Event.closes = (replies.filterMap Reply.closed?).length := by
  induction replies with
  | nil => rfl
  | cons r replies ih =>
      cases r with
      | closed claim =>
          rw [List.map_cons, List.countP_cons_of_pos rfl, ih]
          rfl
      | _ => exact ih

theorem ingestAll_concat (v : View) (replies : List Reply) (r : Reply) :
    v.ingestAll ((replies ++ [r]).map Reply.event) =
      (v.ingestAll (replies.map Reply.event)).ingest r.event := by
  rw [List.map_append, ingestAll_append]
  rfl

theorem conflicts_ingestAll (epoch : Argument) (replies : List Reply) :
    ((start epoch).ingestAll (replies.map Reply.event)).conflicts =
      (sinceClosed replies).filterMap Reply.conflict? := by
  induction replies using List.reverseRecOn with
  | nil => rfl
  | append_singleton replies r ih =>
      rw [ingestAll_concat, sinceClosed_concat]
      rcases r.heard_or_closed with ⟨w, hw, hopen, hconflict⟩ | ⟨claim, rfl⟩
      · rw [ingest_of_verdict _ hw, (hear_outcome _ w).2.2.2, ih, hopen,
          if_pos Option.isNone_none, List.filterMap_append, List.filterMap_cons, hconflict]
        by_cases h : w.result = .conflict <;> simp [h]
      · rw [ingest_closed]
        rfl

theorem finalized_ingestAll (epoch : Argument) (replies : List Reply) :
    ((start epoch).ingestAll (replies.map Reply.event)).finalized =
      (replies.filterMap Reply.closed?).zipIdx.map fun closed =>
        ⟨Argument.next^[closed.2] epoch, .text (Claim.textOf closed.1)⟩ := by
  induction replies using List.reverseRecOn with
  | nil => rfl
  | append_singleton replies r ih =>
      rw [ingestAll_concat, List.filterMap_append]
      rcases r.heard_or_closed with ⟨w, hw, hopen, -⟩ | ⟨claim, rfl⟩
      · rw [ingest_of_verdict _ hw, (hear_outcome _ w).2.2.1, ih, List.filterMap_cons, hopen,
          List.filterMap_nil, List.append_nil]
      · have hepoch := epoch_ingestAll (start epoch) (replies.map Reply.event)
        rw [countP_closes] at hepoch
        rw [ingest_closed, close, ih, hepoch, List.zipIdx_append, List.map_append]
        simp [Reply.closed?, start]

/-- What a view and the state of a manager have to do with each other. -/
structure Mirrors {n : Nat} (v : View) (s : State n) : Prop where
  awaiting_iff : v.phase = .awaitingFirstClaim ↔ s.claim = none
  noConflict_iff : v.phase = .awaitingConsensusNoConflict ↔
    s.claim ≠ none ∧ v.conflicts = [] ∧ s.agreement ≠ s.goal
  agreed_of_reached : v.phase = .consensusReached → s.agreement = s.goal
  consensus : v.consensusClaim = .null ∨ ∃ x, v.consensusClaim = .text x.text ∧ s.Agreed x

theorem mirrors_close {n : Nat} (v : View) (claim : Argument) {s : State n}
    (hs : s.claim = none) : (v.close claim).Mirrors s where
  awaiting_iff := iff_of_true rfl hs
  noConflict_iff := ⟨nofun, fun h => absurd hs h.1⟩
  agreed_of_reached := nofun
  consensus := .inl rfl

theorem mirrors_start {n : Nat} (epoch : Argument) (r : Roster n) :
    (start epoch).Mirrors (State.initial r) where
  awaiting_iff := iff_of_true rfl rfl
  noConflict_iff := ⟨nofun, fun h => absurd rfl h.1⟩
  agreed_of_reached := nofun
  consensus := .inl rfl

end View

namespace Manager

variable {m : Manager}

/-- An agreed state that hears an outcome stays one, and the outcome stands by
its claim. -/
theorem Committed.standsBy {c : Call} {s : State m.capacity} {r : Reply} {w : Verdict}
    (h : Committed m c s r) (hm : m.state.Sound) (hc : c.IsMarked) (hw : r.verdict? = some w)
    {x : Claim} (hx : m.state.Agreed x) : w.StandsBy x ∧ s.Agreed x := by
  obtain ⟨hstands, hkept⟩ := h.upholds hm hx hc
  have hopen : ¬ m.Closes c := by
    rintro hcloses
    obtain ⟨claim, rfl⟩ := (closes_iff h).1 hcloses
    contradiction
  refine ⟨?_, hkept hopen⟩
  cases r with
  | claimed _ => rwa [← Option.some.inj hw]
  | judged _ => rwa [← Option.some.inj hw]
  | closed _ => contradiction

/-- Every way through a call keeps the view in line with the state. -/
theorem Committed.mirrors {c : Call} {s : State m.capacity} {r : Reply} (h : Committed m c s r)
    (hm : m.state.Sound) (hc : c.IsMarked) {v : View} (hv : v.Mirrors m.state) :
    (v.ingest r.event).Mirrors s := by
  rcases r.heard_or_closed with ⟨w, hw, -, -⟩ | ⟨claim, rfl⟩
  · have hclaim := h.claim_ne_none hm.claim_ne_none hw
    obtain ⟨hconsensus, hnoConflict⟩ := h.verdict hw
    have hknown : v.consensusClaim = .null ∨
        ∃ x, v.consensusClaim = .text x.text ∧ w.StandsBy x ∧ s.Agreed x :=
      hv.consensus.imp_right fun ⟨x, hx, hagreed⟩ => ⟨x, hx, h.standsBy hm hc hw hagreed⟩
    rw [View.ingest_of_verdict v hw]
    constructor
    · exact iff_of_false (v.hear_outcome w).1 hclaim
    · cases w with
      | noConflict =>
          rw [View.hear_noConflict]
          have hmasks := hnoConflict rfl
          by_cases hempty : v.conflicts = [] <;> simp [hempty, hclaim, hmasks]
      | consensus x a =>
          rw [View.hear_consensus]
          exact ⟨nofun, fun hno => absurd (hconsensus rfl) hno.2.2⟩
      | conflict _ _ _ _ =>
          rw [View.hear_conflict v rfl]
          simp
    · cases w with
      | noConflict =>
          rw [View.hear_noConflict]
          by_cases hempty : v.conflicts = [] <;> simp [hempty]
      | consensus x a => exact fun _ => hconsensus rfl
      | conflict _ _ _ _ =>
          rw [View.hear_conflict v rfl]
          exact nofun
    · cases w with
      -- Behind a consensus that is known, every outcome stands by its claim.
      | noConflict => exact hknown.imp_right fun ⟨x, _, hstands, _⟩ => hstands.elim
      | consensus x a => exact .inr ⟨x, rfl, agreed_of_consensus h hw⟩
      | conflict _ _ _ _ =>
          rw [View.hear_conflict v rfl]
          exact hknown.imp_right fun ⟨x, hx, _, hagreed⟩ => ⟨x, hx, hagreed⟩
  · cases h with
    | closed _ => exact View.mirrors_close v _ rfl

theorem mirrors_run {calls : List Call} (hm : m.state.Sound) (hcalls : ∀ c ∈ calls, c.IsMarked)
    {v : View} (hv : v.Mirrors m.state) :
    (v.ingestAll ((m.replied calls).map Reply.event)).Mirrors (m.run calls).state := by
  refine (run_induction
    (P := fun calls m' => m'.state.Sound ∧
      (v.ingestAll ((m.replied calls).map Reply.event)).Mirrors m'.state)
    ⟨hm, hv⟩ ?_ ?_ calls hcalls).2
  · intro calls c s r ih hc h
    rw [replied_of_committed h, View.ingestAll_concat]
    exact ⟨h.sound ih.1 hc, h.mirrors ih.1 hc ih.2⟩
  · intro calls c e ih _ h
    rw [replied_of_refused h]
    exact ih

/-- The view waits for the first claim as long as there is none, whatever the
calls. -/
theorem awaiting_run (hm : ∀ i ∈ m.state.agreement, m.state.claim ≠ none) {v : View}
    (hv : v.phase = .awaitingFirstClaim ↔ m.state.claim = none) (calls : List Call) :
    (v.ingestAll ((m.replied calls).map Reply.event)).phase = .awaitingFirstClaim ↔
      (m.run calls).state.claim = none := by
  refine (run_induction (Q := fun _ => True)
    (P := fun calls m' => (∀ i ∈ m'.state.agreement, m'.state.claim ≠ none) ∧
      ((v.ingestAll ((m.replied calls).map Reply.event)).phase = .awaitingFirstClaim ↔
        m'.state.claim = none)) ⟨hm, hv⟩ ?_ ?_ calls fun _ _ => trivial).2
  · intro calls c s r ih _ h
    rw [replied_of_committed h, View.ingestAll_concat]
    refine ⟨h.held ih.1, ?_⟩
    rcases r.heard_or_closed with ⟨w, hw, -, -⟩ | ⟨claim, rfl⟩
    · rw [View.ingest_of_verdict _ hw]
      exact iff_of_false (View.hear_outcome _ w).1 (h.claim_ne_none ih.1 hw)
    · cases h with
      | closed _ => exact iff_of_true rfl rfl
  · intro calls c e ih _ h
    rw [replied_of_refused h]
    exact ih

end Manager

end EpochClaims
