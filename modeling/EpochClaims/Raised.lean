import EpochClaims.Report

/-!
# Raised values

A listener or a cache that fails raises a value: an error with a message, a value
of any other kind, or nothing at all. Lists, objects and whatever else is neither
an error nor a plain value are known by how they read. `message` is how a raised
value reads in a line of the journal, and `report` what a caller is told who
receives it.

Some values cannot be read: they have no way to become text, or a way that fails.
To spell such a value raises another one, which may be of this sort again. Whoever
catches a raised value only to write it down is then left with the other one,
`escaped?`.
-/

namespace EpochClaims

/-- What a failing part raises. -/
inductive Raised where
  | error (message : String)
  | typeError (message : String)
  | text (message : String)
  | number (x : Binary64)
  | bool (b : Bool)
  | null
  | object (spelling : String)
  | nothing
  /-- A value that raises another one when it is spelled. -/
  | unspellable (raised : Raised)
  deriving DecidableEq, Repr

namespace Raised

/-- What is raised for an object that has no way to become text. -/
def notPrimitive : Raised := typeError "Cannot convert object to primitive value"

/-- How a raised value reads, or what is raised if it cannot be read. -/
def message : Raised → Except Raised String
  | error message => .ok message
  | typeError message => .ok message
  | text message => .ok message
  | number x => .ok (Argument.number x).spelled
  | bool b => .ok (Argument.bool b).spelled
  | null => .ok Argument.null.spelled
  | object spelling => .ok spelling
  | nothing => .ok Argument.missing.spelled
  | unspellable raised => .error raised

/-- What is left for whoever catches a raised value to write it down. -/
def escaped? (r : Raised) : Option Raised :=
  match r.message with
  | .ok _ => none
  | .error raised => some raised

/-- The report of a raised value. -/
def report : Raised → Report
  | error message => Report.plain "Error" message
  | typeError message => Report.plain "TypeError" message
  | text message => Report.plain "Thrown" message
  | number x => Report.plain "Thrown" (Argument.number x).spelled
  | bool b => Report.plain "Thrown" (Argument.bool b).spelled
  | null => Report.plain "Thrown" Argument.null.spelled
  | object spelling => Report.plain "Thrown" spelling
  | nothing => Report.plain "Thrown" Argument.missing.spelled
  | unspellable raised => raised.report

/-- Whether a raised value can be read. -/
def Legible (r : Raised) : Prop := r.escaped? = none

instance (r : Raised) : Decidable r.Legible := inferInstanceAs (Decidable (r.escaped? = none))

theorem Legible.exists_message {r : Raised} (h : r.Legible) :
    ∃ message, r.message = .ok message := by
  rw [Legible, escaped?] at h
  cases hr : r.message with
  | ok message => exact ⟨message, rfl⟩
  | error _ =>
      rw [hr] at h
      contradiction

end Raised

end EpochClaims
