import EpochClaims.Index.Indexer
import EpochClaims.Proofs.Index.Mirror

/-!
# What a view says of its events

A view is a fold over events, but what it shows can be read off the list of events
at once. The claims of all events that closed an epoch are the closed epochs, and
the outcomes since the last of these events are all that counts for the open one:
its phase, its conflicts and the claim of its consensus. `View.summary` is this
reading, and `View.ingestAll_start` says that the fold comes to the same, whatever
the epochs are counted by.
-/

namespace EpochClaims

namespace Binary64

/-- Whether a number is below another one. -/
def below (x y : Binary64) : Bool :=
  x.atMost y && !y.atMost x

theorem below_ofInt {y z : Int} (hy : y.natAbs ≤ exactBound) (hz : z.natAbs ≤ exactBound) :
    below (ofInt y) (ofInt z) = decide (y < z) := by
  rw [below, atMost_ofInt hy hz, atMost_ofInt hz hy, Bool.eq_iff_iff]
  simp only [Bool.and_eq_true, Bool.not_eq_true', decide_eq_true_eq, decide_eq_false_iff_not]
  omega

end Binary64

namespace Event

/-- The claim of the epoch that an event closes. -/
def closing? : Event → Option Argument
  | newEpoch claim => some claim
  | _ => none

/-- The outcome that an event tells. -/
def outcome? : Event → Option Outcome
  | claimReceived o => some o
  | disputeEnded o => some o
  | _ => none

end Event

/-- The claims of the closed epochs. -/
def closings (events : List Event) : List Argument :=
  events.filterMap Event.closing?

/-- The outcomes since an epoch was closed. -/
def outcomesSince (events : List Event) : List Outcome :=
  readSince Event.closes Event.outcome? events

/-- The outcomes with a given result. -/
def withResult (r : ClaimResult) (outcomes : List Outcome) : List Outcome :=
  outcomes.filter fun o => o.result? = some r

/-- The phase that outcomes lead to. The last one of known result decides whether
there is a consensus; without one, any conflict among them is remembered. -/
def Phase.after (outcomes : List Outcome) : Phase :=
  match (outcomes.filterMap Outcome.result?).getLast? with
  | none => .awaitingFirstClaim
  | some .consensus => .consensusReached
  | some _ =>
    if withResult .conflict outcomes = [] then .awaitingConsensusNoConflict
    else .awaitingConsensusAfterConflict

namespace View

/-- The first claim of the last consensus, null if there is none. -/
def agreedClaim (outcomes : List Outcome) : Argument :=
  (withResult .consensus outcomes).getLast?.elim .null fun o => o.claims.first

/-- A view that has heard nothing of the open epoch. -/
def anew (epoch : Argument) (finalized : List FinalizedEpoch) : View :=
  ⟨epoch, .awaitingFirstClaim, .null, [], finalized⟩

/-- Closed epochs with their claims, counted from the number of the first. -/
def numbered (first : Argument) (claims : List Argument) : List FinalizedEpoch :=
  claims.zipIdx.map fun closed => ⟨Argument.next^[closed.2] first, closed.1⟩

/-- What a list of events says, if the first epoch has the number `z`. -/
def summary (z : Int) (events : List Event) : View where
  epoch := .number (.ofInt (z + (closings events).length))
  phase := .after (outcomesSince events)
  consensusClaim := agreedClaim (outcomesSince events)
  conflicts := withResult .conflict (outcomesSince events)
  finalized := (closings events).zipIdx.map fun closed =>
    ⟨.number (.ofInt (z + (closed.2 : Nat))), closed.1⟩

end View

theorem closings_concat (events : List Event) (e : Event) :
    closings (events ++ [e]) = closings events ++ e.closing?.toList :=
  filterMap_concat ..

theorem outcomesSince_concat (events : List Event) (e : Event) :
    outcomesSince (events ++ [e]) =
      if e.closes then [] else outcomesSince events ++ e.outcome?.toList :=
  readSince_concat ..

theorem withResult_concat (r : ClaimResult) (outcomes : List Outcome) (o : Outcome) :
    withResult r (outcomes ++ [o]) =
      withResult r outcomes ++ if o.result? = some r then [o] else [] := by
  rw [withResult, List.filter_append, List.filter_singleton]
  by_cases h : o.result? = some r <;> simp [h, withResult]

theorem Phase.after_concat (outcomes : List Outcome) (o : Outcome) :
    Phase.after (outcomes ++ [o]) =
      match o.result? with
      | some .conflict => .awaitingConsensusAfterConflict
      | some .consensus => .consensusReached
      | some .noConflict =>
        if withResult .conflict outcomes = [] then .awaitingConsensusNoConflict
        else .awaitingConsensusAfterConflict
      | none => Phase.after outcomes := by
  rw [after, withResult_concat, List.filterMap_append]
  cases h : o.result? with
  | none => simp [h, after]
  | some r => cases r <;> simp [h]

namespace View

variable {z : Int} {events : List Event}

theorem agreedClaim_concat (outcomes : List Outcome) (o : Outcome) :
    agreedClaim (outcomes ++ [o]) =
      if o.result? = some .consensus then o.claims.first else agreedClaim outcomes := by
  rw [agreedClaim, withResult_concat]
  split
  · rw [List.getLast?_concat]
    rfl
  · rw [List.append_nil]
    rfl

theorem numbered_concat (first : Argument) (claims : List Argument) (claim : Argument) :
    numbered first (claims ++ [claim]) =
      numbered first claims ++ [⟨Argument.next^[claims.length] first, claim⟩] := by
  rw [numbered, List.zipIdx_append, List.map_append, Nat.zero_add]
  rfl

theorem foldl_hear_anew (epoch : Argument) (finalized : List FinalizedEpoch)
    (outcomes : List Outcome) :
    outcomes.foldl hear (anew epoch finalized) =
      ⟨epoch, .after outcomes, agreedClaim outcomes, withResult .conflict outcomes, finalized⟩ := by
  induction outcomes using List.reverseRecOn with
  | nil => rfl
  | append_singleton outcomes o ih =>
      rw [List.foldl_append, ih, List.foldl_cons, List.foldl_nil, hear, Phase.after_concat,
        agreedClaim_concat, withResult_concat]
      cases h : o.result? with
      | none => simp
      | some r => cases r <;> simp

/-- An event closes the epoch, or it is heard by the outcome that it tells, if any. -/
theorem closes_or_heard (e : Event) :
    (∃ claim, e = .newEpoch claim) ∨
      e.closes = false ∧ e.closing? = none ∧
        ∀ v : View, v.ingest e = e.outcome?.toList.foldl hear v := by
  cases e with
  | newEpoch claim => exact .inl ⟨claim, rfl⟩
  | claimReceived o => exact .inr ⟨rfl, rfl, fun _ => rfl⟩
  | disputeEnded o => exact .inr ⟨rfl, rfl, fun _ => rfl⟩
  | other name => exact .inr ⟨rfl, rfl, fun _ => rfl⟩

/-- After any events, a view is one that started anew when the last epoch was
closed and heard the outcomes since then. -/
theorem ingestAll_start (first : Argument) (events : List Event) :
    (start first).ingestAll events =
      (outcomesSince events).foldl hear
        (anew (Argument.next^[(closings events).length] first)
          (numbered first (closings events))) := by
  induction events using List.reverseRecOn with
  | nil => rfl
  | append_singleton events e ih =>
      rw [ingestAll_append, ih, ingestAll_cons, ingestAll_nil, closings_concat,
        outcomesSince_concat]
      obtain ⟨claim, rfl⟩ | ⟨hopen, hnone, hheard⟩ := closes_or_heard e
      -- What was heard of the epoch is forgotten, only its number counts.
      · rw [foldl_hear_anew, ingest, close, Event.closing?, Option.toList_some, numbered_concat,
          List.length_append, List.length_singleton, Function.iterate_succ_apply']
        rfl
      · rw [hheard, hnone, hopen, Option.toList_none, List.append_nil, ← List.foldl_append]
        rfl

/-- Epochs that are counted from an integer are the integers from there on. -/
theorem numbered_ofInt (claims : List Argument) (hz : z.natAbs ≤ Binary64.exactBound)
    (hn : (z + claims.length).natAbs ≤ Binary64.exactBound) :
    numbered (.number (.ofInt z)) claims =
      claims.zipIdx.map fun closed => ⟨.number (.ofInt (z + (closed.2 : Nat))), closed.1⟩ := by
  refine List.map_congr_left fun closed hclosed => ?_
  have hlt := List.snd_lt_of_mem_zipIdx hclosed
  rw [next_iterate_ofInt_of_lt z closed.2 fun j hj => by omega]

theorem ingestAll_start_ofInt (hz : z.natAbs ≤ Binary64.exactBound)
    (hn : (z + (closings events).length).natAbs ≤ Binary64.exactBound) :
    (start (.number (.ofInt z))).ingestAll events = summary z events := by
  rw [ingestAll_start, foldl_hear_anew, numbered_ofInt _ hz hn,
    next_iterate_ofInt_of_lt z _ fun j hj => by omega]
  rfl

/-- The epochs of a summary are in increasing order. -/
theorem pairwise_epochs_summary (hz : z.natAbs ≤ Binary64.exactBound)
    (hn : (z + (closings events).length).natAbs ≤ Binary64.exactBound) :
    (summary z events).finalized.Pairwise fun f g =>
      ∃ x y, f.epoch = .number x ∧ g.epoch = .number y ∧ x.below y = true := by
  rw [summary, List.pairwise_map, List.pairwise_iff_getElem]
  intro i j hi hj hij
  simp only [List.getElem_zipIdx, Nat.zero_add]
  rw [List.length_zipIdx] at hi hj
  refine ⟨_, _, rfl, rfl, ?_⟩
  rw [Binary64.below_ofInt (by omega) (by omega), decide_eq_true_iff]
  omega

end View

/-- The view of an indexer that starts at an integer is the summary of its events:
the epoch is counted up by every closing, the closed epochs are numbered from the
start on and so in increasing order, and phase, conflicts and the claim of the
consensus come from the outcomes since the last closing. -/
theorem Indexer.view_is_summary (z : Int) (cached : Bool) (events : List Event)
    (hz : z.natAbs ≤ Binary64.exactBound)
    (hn : (z + (closings events).length).natAbs ≤ Binary64.exactBound) :
    (events.foldl ingest (start (.number (.ofInt z)) cached)).view = .summary z events ∧
      (View.summary z events).finalized.Pairwise fun f g =>
        ∃ x y, f.epoch = .number x ∧ g.epoch = .number y ∧ x.below y = true := by
  rw [view_foldl_ingest]
  exact ⟨View.ingestAll_start_ofInt hz hn, View.pairwise_epochs_summary hz hn⟩

/-! Two epochs: one ends with the claim of its consensus, the next one goes from a
conflict to a consensus and on to an outcome that is neither. -/

def Outcome.rift : Outcome :=
  .of .conflict [Claim.ones.text, Claim.twos.text] []

def Event.twoEpochs : List Event :=
  [.claimReceived (.of .consensus [Claim.ones.text] []), .newEpoch (.text Claim.ones.text),
    .claimReceived .rift, .claimReceived { Outcome.rift with result := .text "Draw" },
    .disputeEnded (.of .consensus [Claim.twos.text] []), .other "Paused",
    .claimReceived (.of .noConflict [] [])]

/-- The phase of the second epoch remembers the conflict behind the consensus. -/
theorem Indexer.view_is_summary_twoEpochs :
    (5 : Int).natAbs ≤ Binary64.exactBound ∧
      (5 + ((closings Event.twoEpochs).length : Int)).natAbs ≤ Binary64.exactBound ∧
      (Event.twoEpochs.foldl ingest (start (.number (.ofInt 5)) true)).view =
        ⟨.number (.ofInt 6), .awaitingConsensusAfterConflict, .text Claim.twos.text,
          [.rift], [⟨.number (.ofInt 5), .text Claim.ones.text⟩]⟩ := by
  have hz : (5 : Int).natAbs ≤ Binary64.exactBound := by
    decide
  have hn : (5 + ((closings Event.twoEpochs).length : Int)).natAbs ≤ Binary64.exactBound := by
    decide
  refine ⟨hz, hn, (view_is_summary 5 true Event.twoEpochs hz hn).1.trans ?_⟩
  rfl

end EpochClaims
