import EpochClaims.Proofs.Index.Course
import EpochClaims.Proofs.Index.Summary

/-!
# What a failing cache leaves alone

`Accounts` says where an indexer with a cache stands after a course: its view is the
fold of the events, the entries whose writes had their turns are, together with
those of the queued writes, the ones of the closed epochs in their order, and the
cache holds what it held before and the entries that it accepted. No answer of the
cache has a part in this but for the last point. Epochs that are counted from an
integer have different keys, so the accepted entries are all found again.

In its turn a write asks the cache, unless the write before it was refused with a
value that cannot be spelled; then it is skipped. A second closing whose write is
lost for the refusal of the first shows this, `skipped_write_is_lost`.
-/

namespace EpochClaims

/-- The entries for the epochs that events close, if the first has the number `z`: the
claim of each event, null where it has none. -/
def entriesDue (z : Int) (events : List Event) : List Entry :=
  (closings events).zipIdx.map fun closed =>
    ⟨.number (.ofInt (z + (closed.2 : Nat))), .text Indexer.finalizedClaimName,
      closed.1.toOption.getD .null⟩

theorem map_entry_summary (z : Int) (events : List Event) :
    (View.summary z events).finalized.map FinalizedEpoch.entry = entriesDue z events :=
  List.map_map ..

theorem liesUnder_of_mem_entriesDue {z : Int} {events : List Event} {e : Entry}
    (he : e ∈ entriesDue z events) : e.LiesUnder e.epoch e.name := by
  obtain ⟨closed, -, rfl⟩ := List.mem_map.1 he
  simp [Entry.LiesUnder]

/-- Entries for different epochs lie in different places. -/
theorem eq_of_liesUnder {z : Int} {events : List Event} (hz : z.natAbs ≤ Binary64.exactBound)
    (hn : (z + (closings events).length).natAbs ≤ Binary64.exactBound) {e f : Entry}
    (he : e ∈ entriesDue z events) (hf : f ∈ entriesDue z events)
    (h : f.LiesUnder e.epoch e.name) : f = e := by
  obtain ⟨⟨claim, k⟩, hk, rfl⟩ := List.mem_map.1 he
  obtain ⟨⟨other, j⟩, hj, rfl⟩ := List.mem_map.1 hf
  have hklt := List.snd_lt_of_mem_zipIdx hk
  have hjlt := List.snd_lt_of_mem_zipIdx hj
  -- Both epochs are exact integers, so one key means one place in the row.
  have hkey := h.1
  rw [Argument.sameKey_number,
    Binary64.sameKey_eq_sameNumber (Binary64.ofInt_ne_nan (by omega)),
    Binary64.sameNumber_ofInt (by omega) (by omega), decide_eq_true_iff] at hkey
  obtain rfl : j = k := by omega
  rw [List.mem_zipIdx_iff_getElem?] at hk hj
  rw [Option.some.inj (hj.symm.trans hk)]

namespace Indexer

variable {first : Argument} {x x' : Indexer} {s s₀ s' : Shelves} {o : Occurrence}
  {os : List Occurrence}

/-- The events of a course. -/
def eventsOf (os : List Occurrence) : List Event :=
  os.filterMap Occurrence.event?

/-- The entries whose writes had their turns in a course. -/
def turnsOf (os : List Occurrence) : List Entry :=
  os.filterMap Occurrence.turn?

/-- What the cache was asked to keep in a course. -/
def askedOf (os : List Occurrence) : List Entry :=
  os.filterMap Occurrence.entry?

/-- What the cache accepted in a course. -/
def keptOf (os : List Occurrence) : List Entry :=
  os.filterMap Occurrence.kept?

/-- What one occurrence adds to the view and the cache. The entry that has its turn
leaves the queue at its front, and those of the epochs that are closed join it at its
end. -/
theorem Step.effect (h : Step x s o x' s') (hx : x.cached = true) :
    x'.cached = true ∧ x'.view = x.view.ingestAll o.event?.toList ∧
      s' = s.putAll o.kept?.toList ∧
      ∃ added, o.turn?.toList ++ x'.queue.map PendingWrite.entry =
          x.queue.map PendingWrite.entry ++ added ∧
        x'.view.finalized.map FinalizedEpoch.entry =
          x.view.finalized.map FinalizedEpoch.entry ++ added := by
  cases o with
  | ingested e =>
      obtain ⟨rfl, rfl⟩ := h.of_ingested
      have hclosed := congrArg (List.map PendingWrite.entry) (writeOf_eq hx e)
      rw [List.map_append, List.map_map, List.map_map] at hclosed
      exact ⟨hx, rfl, rfl, _, List.map_append, hclosed.symm⟩
  | asked entry refusal =>
      obtain ⟨w, rest, hqueue, -, rfl, rfl, rfl⟩ := h.of_asked
      refine ⟨hx, rfl, rfl, [], ?_, (List.append_nil _).symm⟩
      rw [hqueue, List.append_nil]
      rfl
  | skipped entry =>
      obtain ⟨w, rest, _, hqueue, -, rfl, rfl, rfl⟩ := h.of_skipped
      refine ⟨hx, rfl, rfl, [], ?_, (List.append_nil _).symm⟩
      rw [hqueue, List.append_nil]
      rfl
  | flushed report =>
      obtain ⟨-, rfl, rfl⟩ := h.of_flushed
      obtain ⟨error, herror⟩ := x.exists_flush_eq
      rw [herror]
      exact ⟨hx, rfl, rfl, [], (List.append_nil _).symm, (List.append_nil _).symm⟩

/-- Where an indexer and its cache stand after a course from the start. -/
structure Accounts (first : Argument) (s₀ : Shelves) (os : List Occurrence) (x : Indexer)
    (s : Shelves) : Prop where
  cached : x.cached = true
  view_eq : x.view = (View.start first).ingestAll (eventsOf os)
  turns_eq : turnsOf os ++ x.queue.map PendingWrite.entry =
    x.view.finalized.map FinalizedEpoch.entry
  shelves_eq : s = s₀.putAll (keptOf os)

theorem accounts_start (first : Argument) (s₀ : Shelves) :
    Accounts first s₀ [] (start first true) s₀ where
  cached := rfl
  view_eq := rfl
  turns_eq := rfl
  shelves_eq := rfl

theorem Accounts.step (h : Accounts first s₀ os x s) (hstep : Step x s o x' s') :
    Accounts first s₀ (os ++ [o]) x' s' := by
  obtain ⟨hcached, hview, hshelves, added, hqueue, hfinalized⟩ := hstep.effect h.cached
  refine ⟨hcached, ?_, ?_, ?_⟩
  · rw [eventsOf, filterMap_concat, View.ingestAll_append, hview, h.view_eq]
    rfl
  · rw [turnsOf, filterMap_concat, List.append_assoc, hqueue, hfinalized, ← h.turns_eq]
    exact (List.append_assoc ..).symm
  · rw [keptOf, filterMap_concat, hshelves, h.shelves_eq]
    exact (List.foldl_append ..).symm

theorem Course.accounts (h : Course (Indexer.start first true) s₀ os x s) :
    Accounts first s₀ os x s := by
  induction h with
  | start => exact accounts_start first s₀
  | next _ step ih => exact ih.step step

theorem kept_subset_turns (os : List Occurrence) : keptOf os ⊆ turnsOf os := by
  intro e he
  obtain ⟨o, ho, hkept⟩ := List.mem_filterMap.1 he
  refine List.mem_filterMap.2 ⟨o, ho, ?_⟩
  cases o with
  | asked entry refusal =>
      cases refusal with
      | none => exact hkept
      | some r => contradiction
  | _ => contradiction

/-- In its turn a write asks the cache, but behind a rejected chain it is skipped. -/
theorem Course.turn_of_split {before after : List Occurrence}
    (h : Course (Indexer.start first true) s₀ (before ++ o :: after) x s) :
    (∀ entry, o = .skipped entry → rejectionOf before ≠ none) ∧
      ∀ entry refusal, o = .asked entry refusal → rejectionOf before = none := by
  rw [List.append_cons] at h
  obtain ⟨x₂, s₂, hturn, -⟩ := h.of_append
  obtain ⟨x₁, s₁, hbefore, hstep⟩ := hturn.of_concat
  rw [← hbefore.rejection_eq rfl]
  constructor
  · rintro entry rfl
    obtain ⟨_, _, r, -, hchain, -⟩ := hstep.of_skipped
    exact hchain ▸ Option.some_ne_none r
  · rintro entry refusal rfl
    obtain ⟨_, _, -, hchain, -⟩ := hstep.of_asked
    exact hchain

/-- If all refusals can be spelled, the cache is asked for every entry in its turn. -/
theorem Course.askedOf_eq (h : Course (Indexer.start first true) s₀ os x s)
    (hlegible : ∀ r ∈ refusalsOf os, r.Legible) : askedOf os = turnsOf os := by
  refine List.filterMap_congr fun o ho => ?_
  cases o with
  | skipped entry =>
      obtain ⟨before, after, rfl⟩ := List.append_of_mem ho
      obtain ⟨x₁, s₁, hbefore, -⟩ := h.of_append
      rw [refusalsOf, List.filterMap_append] at hlegible
      have hnone := hbefore.rejection_eq_none rfl fun r hr =>
        hlegible r (List.mem_append_left _ hr)
      rw [hbefore.rejection_eq rfl] at hnone
      exact absurd hnone (h.turn_of_split.1 entry rfl)
  | _ => rfl

/-- An indexer that starts at an integer, with a cache that may refuse any write for
any reason. For every event that closed an epoch, a write has one turn to keep the
claim of this event under the number of the epoch, in the order of the events; what
had no turn yet waits in the queue, which can be emptied whatever the answers. In its
turn the write asks the cache, and it is skipped only if the turn before has left the
chain of writes rejected. What the cache accepted is found there, everywhere else it
is as it was before, and the view is the one of an indexer without a cache. If all
refusals can be spelled, no write is skipped. -/
theorem refusals_are_contained {z : Int}
    (h : Course (start (.number (.ofInt z)) true) s₀ os x s)
    (hz : z.natAbs ≤ Binary64.exactBound)
    (hn : (z + (closings (eventsOf os)).length).natAbs ≤ Binary64.exactBound) :
    turnsOf os ++ x.queue.map PendingWrite.entry = entriesDue z (eventsOf os) ∧
      (∀ before o after, os = before ++ o :: after →
        (∀ entry, o = .skipped entry → rejectionOf before ≠ none) ∧
          ∀ entry refusal, o = .asked entry refusal → rejectionOf before = none) ∧
      (∀ e ∈ keptOf os, s.get e.epoch e.name = Shelves.present? e.document) ∧
      (∀ epoch name, (∀ e ∈ keptOf os, ¬ e.LiesUnder epoch name) →
        s.get epoch name = s₀.get epoch name) ∧
      x.view = ((eventsOf os).foldl ingest (start (.number (.ofInt z)) false)).view ∧
      (∀ answers : List (Option Raised), answers.length = x.queue.length →
        ∃ x' s', x'.queue = [] ∧ Course (start (.number (.ofInt z)) true) s₀
          (os ++ turns (rejectionOf os) (x.queue.map PendingWrite.entry) answers) x' s') ∧
      ((∀ r ∈ refusalsOf os, r.Legible) →
        askedOf os ++ x.queue.map PendingWrite.entry = entriesDue z (eventsOf os) ∧
          ∀ answers : List (Option Raised), answers.length = x.queue.length →
            (∀ r, some r ∈ answers → r.Legible) →
              ∃ x' s', x'.queue = [] ∧ Course (start (.number (.ofInt z)) true) s₀
                (os ++ List.zipWith .asked (x.queue.map PendingWrite.entry) answers) x' s') := by
  have haccounts := h.accounts
  have hdue : turnsOf os ++ x.queue.map PendingWrite.entry = entriesDue z (eventsOf os) := by
    rw [haccounts.turns_eq, haccounts.view_eq, View.ingestAll_start_ofInt hz hn,
      map_entry_summary]
  have hmem : ∀ e ∈ keptOf os, e ∈ entriesDue z (eventsOf os) := fun e he =>
    hdue ▸ List.mem_append_left _ (kept_subset_turns os he)
  have hsettles : ∀ answers : List (Option Raised), answers.length = x.queue.length →
      ∃ x' s', x'.queue = [] ∧ Course (start (.number (.ofInt z)) true) s₀
        (os ++ turns (rejectionOf os) (x.queue.map PendingWrite.entry) answers) x' s' := by
    intro answers hanswers
    obtain ⟨x', s', hsettled, hqueue⟩ := exists_course_settled answers s hanswers
    rw [h.rejection_eq rfl] at hsettled
    exact ⟨x', s', hqueue, h.trans hsettled⟩
  refine ⟨hdue, ?_, ?_, ?_, ?_, hsettles, fun hlegible => ⟨?_, fun answers hanswers hspelled => ?_⟩⟩
  · rintro before o after rfl
    exact h.turn_of_split
  · intro e he
    rw [haccounts.shelves_eq]
    refine Shelves.get_putAll_of_written he (liesUnder_of_mem_entriesDue (hmem e he)) ?_
    intro f hf hplace
    exact congrArg Entry.document (eq_of_liesUnder hz hn (hmem e he) (hmem f hf) hplace)
  · intro epoch name hother
    rw [haccounts.shelves_eq]
    exact Shelves.get_putAll_of_not_written hother
  · rw [haccounts.view_eq, view_foldl_ingest]
    rfl
  · rw [h.askedOf_eq hlegible, hdue]
  · obtain ⟨x', s', hqueue, hcourse⟩ := hsettles answers hanswers
    rw [← h.rejection_eq rfl, h.rejection_eq_none rfl hlegible,
      turns_of_legible hspelled] at hcourse
    exact ⟨x', s', hqueue, hcourse⟩

/-! Two epochs are closed, and the cache has no room for the claim of the first. -/

def Occurrence.twoClosings : List Occurrence :=
  [.ingested (.newEpoch (.text Claim.ones.text)), .ingested (.newEpoch (.text Claim.twos.text))]

theorem exists_course_twoClosings :
    ∃ x, Course (start (.number (.ofInt 0)) true) .empty Occurrence.twoClosings x .empty ∧
      x.queue.length = 2 :=
  ⟨_, (Course.start.next (.ingest _ _ _)).next (.ingest _ _ _), rfl⟩

theorem zero_bounds : (0 : Int).natAbs ≤ Binary64.exactBound ∧
    (0 + ((closings (eventsOf Occurrence.twoClosings)).length : Int)).natAbs ≤
      Binary64.exactBound := by
  decide

/-- The claim of the second epoch is kept nevertheless. -/
theorem refusals_are_contained_twoClosings :
    ∃ x s, Course (start (.number (.ofInt 0)) true) .empty
        (Occurrence.twoClosings ++ List.zipWith .asked
          (entriesDue 0 (eventsOf Occurrence.twoClosings)) [some (.error "full"), none]) x s ∧
      s.get (.number (.ofInt 0)) (.text finalizedClaimName) = none ∧
      s.get (.number (.ofInt 1)) (.text finalizedClaimName) = some (.text Claim.twos.text) := by
  obtain ⟨hz, hn⟩ := zero_bounds
  obtain ⟨x₁, hclosed, hlength⟩ := exists_course_twoClosings
  obtain ⟨hdue, -, -, -, -, -, hspelled⟩ := refusals_are_contained hclosed hz hn
  obtain ⟨-, hsettles⟩ := hspelled (by decide)
  have hlegible : ∀ r, some r ∈ [some (.error "full"), none] → Raised.Legible r := by
    simp [Raised.Legible, Raised.escaped?, Raised.message]
  obtain ⟨x, s, -, hcourse⟩ := hsettles [some (.error "full"), none] hlength.symm hlegible
  have hqueue : x₁.queue.map PendingWrite.entry =
      entriesDue 0 (eventsOf Occurrence.twoClosings) := hdue
  rw [hqueue] at hcourse
  obtain ⟨-, -, hkept, hother, -⟩ := refusals_are_contained hcourse hz hn
  have hapart : (Argument.number (.ofInt 0)).sameKey (.number (.ofInt 1)) = false := by
    decide +kernel
  refine ⟨x, s, hcourse, ?_, ?_⟩
  · refine (hother _ _ fun e he hplace => ?_).trans (Shelves.get_empty ..)
    obtain rfl := List.mem_singleton.1 he
    exact absurd hplace.1 (ne_true_of_eq_false hapart)
  · exact hkept _ List.mem_cons_self

/-- The cache refuses the first claim by raising an object without text. Then it is
never asked to keep the second one, which it would have accepted, and does not hold
it when the queue is empty. -/
theorem skipped_write_is_lost :
    ∃ x s, x.queue = [] ∧
      Course (start (.number (.ofInt 0)) true) .empty
        (Occurrence.twoClosings ++ turns none (entriesDue 0 (eventsOf Occurrence.twoClosings))
          [some (.unspellable .notPrimitive), none]) x s ∧
      askedOf (Occurrence.twoClosings ++
        turns none (entriesDue 0 (eventsOf Occurrence.twoClosings))
          [some (.unspellable .notPrimitive), none]) ≠
            entriesDue 0 (eventsOf Occurrence.twoClosings) ∧
      s.get (.number (.ofInt 1)) (.text finalizedClaimName) = none := by
  obtain ⟨hz, hn⟩ := zero_bounds
  obtain ⟨x₁, hclosed, hlength⟩ := exists_course_twoClosings
  obtain ⟨hqueue, -, -, -, -, hsettles, -⟩ := refusals_are_contained hclosed hz hn
  obtain ⟨x, s, hempty, hcourse⟩ :=
    hsettles [some (.unspellable .notPrimitive), none] hlength.symm
  have hdue : x₁.queue.map PendingWrite.entry =
      entriesDue 0 (eventsOf Occurrence.twoClosings) := hqueue
  rw [hdue] at hcourse
  obtain ⟨-, -, -, hother, -⟩ := refusals_are_contained hcourse hz hn
  refine ⟨x, s, hempty, hcourse, fun hasked => ?_, ?_⟩
  · exact absurd (congrArg List.length hasked) (by decide)
  · exact (hother _ _ fun e he => absurd he List.not_mem_nil).trans (Shelves.get_empty ..)

end Indexer

end EpochClaims
