import EpochClaims.Binary64.Text
import EpochClaims.Document.Basic

/-!
# How documents are spelled

A message that names a document spells it on one line. A list is spelled by its
members with commas between them, those of lists inside it among them, and a
null member is left blank. The fields of an object are not spelled out.
-/

namespace EpochClaims

namespace Document

mutual

/-- How a document reads inside a message. -/
def spelled : Document → String
  | null => "null"
  | bool true => "true"
  | bool false => "false"
  | number x => x.text
  | text s => s
  | list items => String.intercalate "," (spelledMembers items)
  | object _ => "[object Object]"

/-- How the members of a list read. -/
def spelledMembers : List Document → List String
  | [] => []
  | null :: items => "" :: spelledMembers items
  | d :: items => d.spelled :: spelledMembers items

end

instance : Repr Document := ⟨fun d _ => d.spelled⟩

@[simp] theorem spelled_text (s : String) : (text s).spelled = s := rfl

@[simp] theorem spelled_number (x : Binary64) : (number x).spelled = x.text := rfl

@[simp] theorem spelledMembers_nil : spelledMembers [] = [] := rfl

/-- A list of texts is spelled by these texts. -/
@[simp] theorem spelledMembers_map_text (l : List String) :
    spelledMembers (l.map text) = l := by
  induction l with
  | nil => rfl
  | cons s l ih => simp [spelledMembers, ih]

end Document

end EpochClaims
