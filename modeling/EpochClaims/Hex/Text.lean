import EpochClaims.Hex.Digit
import EpochClaims.Text.Units

/-!
# Hexadecimal text

Hexadecimal text is the marker `0x` and any number of digits. `read?` accepts
exactly that, with a lower-case marker and nothing around it. `byteSize` is
the size a text claims to have, and is asked of any text: behind a marker two
units make a byte and a unit left over makes one more, so an odd run of digits
has the size of the next even one; a text without the marker counts its units.
-/

namespace EpochClaims

namespace Hex

/-- The text behind the marker, or `none` without a marker. -/
def unmark? : List Char → Option (List Char)
  | '0' :: 'x' :: s => some s
  | _ => none

/-- The digits of a hexadecimal text. -/
def read? (s : List Char) : Option (List Digit) :=
  (unmark? s).bind digits?

/-- The hexadecimal text of a run of digits. -/
def write (ds : List Digit) : List Char :=
  '0' :: 'x' :: lower ds

/-- The number of bytes that a text claims to hold. -/
def byteSize (s : List Char) : Nat :=
  match unmark? s with
  | some body => (Text.length16 body + 1) / 2
  | none => Text.length16 s

@[simp] theorem unmark?_cons (s : List Char) : unmark? ('0' :: 'x' :: s) = some s := rfl

theorem unmark?_eq_some_iff {s body : List Char} :
    unmark? s = some body ↔ s = '0' :: 'x' :: body := by
  constructor
  · intro h
    unfold unmark? at h
    split at h
    · simp_all
    · simp at h
  · rintro rfl
    rfl

/-- Written digits read back. -/
@[simp] theorem read?_write (ds : List Digit) : read? (write ds) = some ds := by
  simp [read?, write]

theorem read?_eq_some_iff {s : List Char} {ds : List Digit} :
    read? s = some ds ↔ ∃ body, s = '0' :: 'x' :: body ∧ digits? body = some ds := by
  simp [read?, Option.bind_eq_some_iff, unmark?_eq_some_iff]

end Hex

end EpochClaims
