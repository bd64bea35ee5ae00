import EpochClaims.Hex.Text
import EpochClaims.Report

/-!
# Claims

A claim is the 32-byte value that a validator puts forward for an epoch. It is
kept as its digits and written in lower case, so two spellings of one value
are one claim. A text of 63 digits has the size of 32 bytes as well and is a
claim in its own right. The value of 64 zeros means that there is no claim; it
is `noneText` when written and never a `Claim`.

`ofArgument_text` says that a claim reads back from its own text, and
`text_ne_noneText` that no claim is written as the empty one.
-/

namespace EpochClaims

/-- The digits that mean that there is no claim. -/
def noneDigits : List Hex.Digit :=
  List.replicate 64 0

/-- A 32-byte value that stands for a claim. -/
structure Claim where
  digits : List Hex.Digit
  size : digits.length = 63 ∨ digits.length = 64
  isSome : digits ≠ noneDigits
  deriving DecidableEq, Repr

namespace Claim

/-- Why a value is no claim. -/
inductive Fault where
  | malformed (given : Argument)
  | empty (given : Argument)
  deriving DecidableEq, Repr

/-- The report of a value that is no claim. -/
def Fault.report : Fault → Report
  | malformed given => Report.invalidClaim given (.text "expected 32-byte hex")
  | empty given => Report.invalidClaim given .missing

/-- The digits of a text that has the size of a claim. -/
def sized? (given : Argument) : Option { ds : List Hex.Digit // ds.length = 63 ∨ ds.length = 64 } :=
  match given.chars?.bind Hex.read? with
  | some ds => if h : ds.length = 63 ∨ ds.length = 64 then some ⟨ds, h⟩ else none
  | none => none

/-- Reads a claim in any case, refusing values that are not 32 bytes of
hexadecimal text and the empty claim. -/
def ofArgument (given : Argument) : Except Fault Claim :=
  match sized? given with
  | none => .error (.malformed given)
  | some ⟨ds, h⟩ => if hne : ds ≠ noneDigits then .ok ⟨ds, h, hne⟩ else .error (.empty given)

/-- A claim in lower case. -/
def chars (c : Claim) : List Char :=
  Hex.write c.digits

/-- A claim in lower case. -/
def text (c : Claim) : String :=
  String.ofList c.chars

/-- The text that means that there is no claim. -/
def noneText : String :=
  String.ofList (Hex.write noneDigits)

/-- The text of a claim that may be absent. -/
def textOf : Option Claim → String
  | none => noneText
  | some c => c.text

theorem ext_digits {c d : Claim} (h : c.digits = d.digits) : c = d := by
  cases c; cases d; simp_all

/-- A claim in its own spelling reads back. -/
@[simp] theorem ofArgument_text (c : Claim) : ofArgument (.text c.text) = .ok c := by
  have hread : sized? (.text c.text) = some ⟨c.digits, c.size⟩ := by
    simp [sized?, Argument.chars?, text, chars, c.size]
  simp [ofArgument, hread, c.isSome]

/-- Different claims have different texts. -/
theorem text_injective {c d : Claim} (h : c.text = d.text) : c = d := by
  have hcd := congrArg (fun s => ofArgument (.text s)) h
  simpa using hcd

/-- No claim has the text that means that there is none. -/
theorem text_ne_noneText (c : Claim) : c.text ≠ noneText := by
  intro h
  have hd := congrArg (fun s => Hex.read? s.toList) h
  simp only [text, chars, noneText, String.toList_ofList, Hex.read?_write, Option.some.injEq] at hd
  exact c.isSome hd

end Claim

end EpochClaims
