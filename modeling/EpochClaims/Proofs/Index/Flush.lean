import EpochClaims.Proofs.Index.Course

/-!
# What a report tells

A report tells the first refusal since the last report and clears it. The indexer
keeps the refusal in a place that is empty if it holds nothing at all, so a cache
that refuses by raising nothing leaves no trace there: such refusals are passed
over, and the report tells the first of the others (`Course.writeError_eq`). If a
cache always raises something, the report is the first refusal, and there is none
only if no write was refused.
-/

namespace EpochClaims

namespace Indexer

variable {x x' : Indexer} {s s' : Shelves} {o : Occurrence} {os : List Occurrence}

def Occurrence.reports : Occurrence → Bool
  | flushed _ => true
  | _ => false

/-- The refusals since the last report. -/
def unreported (os : List Occurrence) : List Raised :=
  readSince Occurrence.reports Occurrence.refusal? os

theorem unreported_concat (os : List Occurrence) (o : Occurrence) :
    unreported (os ++ [o]) = if o.reports then [] else unreported os ++ o.refusal?.toList :=
  readSince_concat ..

theorem find?_append_toList (rs : List Raised) (refusal : Option Raised) (p : Raised → Bool) :
    (rs ++ refusal.toList).find? p = (rs.find? p).or (refusal.filter p) := by
  rw [List.find?_append]
  cases refusal with
  | none => rfl
  | some r =>
      rw [Option.toList_some, List.find?_singleton, Option.filter_some]

theorem Step.writeError_eq (h : Step x s o x' s') (hchain : x.rejection = none)
    (hlegible : ∀ r, o.refusal? = some r → r.Legible)
    (hx : x.writeError = (unreported os).find? fun r => r ≠ .nothing) :
    x'.writeError = (unreported (os ++ [o])).find? fun r => r ≠ .nothing := by
  rw [unreported_concat]
  cases o with
  | ingested e =>
      obtain ⟨rfl, -⟩ := h.of_ingested
      exact hx.trans (congrArg _ (List.append_nil _).symm)
  | asked entry refusal =>
      obtain ⟨_, _, -, -, -, rfl, -⟩ := h.of_asked
      have hkept : (refusal.filter fun r => r.Legible ∧ r ≠ .nothing) =
          refusal.filter fun r => r ≠ .nothing := by
        cases refusal with
        | none => rfl
        | some r => simp [Option.filter_some, hlegible r rfl]
      rw [hkept, hx]
      exact (find?_append_toList ..).symm
  | skipped entry =>
      obtain ⟨_, _, r, -, hrejected, -⟩ := h.of_skipped
      exact absurd (hchain.symm.trans hrejected) nofun
  | flushed report =>
      obtain ⟨-, rfl, -⟩ := h.of_flushed
      rw [flush_of_not_rejected hchain]
      rfl

/-- What waits to be reported is the first refusal that raised anything. -/
theorem Course.writeError_eq (h : Course x s os x' s') (hx : x.writeError = none)
    (hchain : x.rejection = none) (hlegible : ∀ r ∈ refusalsOf os, r.Legible) :
    x'.writeError = (unreported os).find? fun r => r ≠ .nothing := by
  induction h with
  | start => exact hx
  | next before step ih =>
      obtain ⟨hbefore, hlast⟩ := legible_concat hlegible
      exact step.writeError_eq (before.rejection_eq_none hchain hbefore) hlast (ih hbefore)

/-- If all refusals before a report can be spelled, the report tells the first one
since the last report that raised anything. If every refusal did, the report is the
first of them, and nothing is reported only if there was none. -/
theorem flush_reports_first_refusal {first : Argument} {before after : List Occurrence}
    {report : Option Raised}
    (h : Course (Indexer.start first true) s (before ++ .flushed report :: after) x s')
    (hlegible : ∀ r ∈ refusalsOf before, r.Legible) :
    (report = (unreported before).find? fun r => r ≠ .nothing) ∧
      ((∀ r ∈ unreported before, r ≠ .nothing) → report = (unreported before).head?) := by
  -- What happens behind the report has no part in it.
  rw [List.append_cons] at h
  obtain ⟨x₂, s₂, hflush, -⟩ := h.of_append
  obtain ⟨x₁, s₁, hbefore, hstep⟩ := hflush.of_concat
  obtain ⟨rfl, -, -⟩ := hstep.of_flushed
  rw [flush_of_not_rejected (hbefore.rejection_eq_none rfl hlegible)]
  have hreport := hbefore.writeError_eq rfl rfl hlegible
  refine ⟨hreport, fun hall => hreport.trans ?_⟩
  cases hrs : unreported before with
  | nil => rfl
  | cons r rs =>
      have hr := hall r (hrs ▸ List.mem_cons_self)
      exact List.find?_cons_of_pos (decide_eq_true hr)

/-- One epoch is closed, and the cache refuses to keep its claim. -/
def Occurrence.refused (r : Raised) : List Occurrence :=
  [.ingested (.newEpoch (.text Claim.ones.text)),
    .asked ⟨.number 0, .text finalizedClaimName, .text Claim.ones.text⟩ (some r)]

theorem exists_course_refused (r : Raised) :
    ∃ x s, Course (start (.number 0) true) .empty (Occurrence.refused r) x s ∧ x.queue = [] := by
  have hclosed := Course.start.next
    (.ingest (start (.number 0) true) .empty (.newEpoch (.text Claim.ones.text)))
  obtain ⟨x, s, hasked, hqueue⟩ := exists_course_settled (x := (start (.number 0) true).ingest
    (.newEpoch (.text Claim.ones.text))) [some r] .empty rfl
  exact ⟨x, s, hclosed.trans hasked, hqueue⟩

/-- A cache that has no room is reported, once. -/
theorem flush_reports_first_refusal_full :
    ∃ x s, Course (start (.number 0) true) .empty
      (Occurrence.refused (.error "full") ++
        [.flushed (some (.error "full")), .flushed none]) x s := by
  obtain ⟨x, s, hrefused, hqueue⟩ := exists_course_refused (.error "full")
  have hlegible : ∀ r ∈ [Raised.error "full"], r.Legible := by decide
  have hfirst := hrefused.next (.flush s hqueue)
  have hsecond := hfirst.next (.flush s (x.queue_flush.trans hqueue))
  have hreport := (flush_reports_first_refusal hfirst hlegible).1
  have hnone := (flush_reports_first_refusal hsecond hlegible).1
  rw [hreport, hnone] at hsecond
  exact ⟨_, _, hsecond⟩

/-- A cache that refuses the only write by raising nothing is not reported. -/
theorem refusal_by_nothing_is_not_reported :
    ∃ x s, Course (start (.number 0) true) .empty
        (Occurrence.refused .nothing ++ [.flushed none]) x s ∧
      (unreported (Occurrence.refused .nothing)).head? = some .nothing := by
  have hlegible : ∀ r ∈ [Raised.nothing], r.Legible := by decide
  obtain ⟨x, s, hrefused, hqueue⟩ := exists_course_refused .nothing
  have hreport := hrefused.next (.flush s hqueue)
  rw [flush_of_not_rejected (hrefused.rejection_eq_none rfl hlegible),
    hrefused.writeError_eq rfl rfl hlegible] at hreport
  exact ⟨_, _, hreport, rfl⟩

end Indexer

end EpochClaims
