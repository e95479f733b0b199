/-
# Records in writing

A value is written as its name with its named parts between braces, `Name { part: value }`,
or as the name alone if it has no parts.  Lists stand between square brackets, and a value
that may be missing is written `Some(value)` or `None`.
-/
import ModalStack.Text.Quoted

namespace ModalStack.Text

/-- A name with named parts. -/
def record (name : String) (parts : List (String × String)) : String :=
  name ++ " \x7b " ++ ", ".intercalate (parts.map fun p => p.1 ++ ": " ++ p.2) ++ " \x7d"

/-- A list of written values. -/
def listed (values : List String) : String := "[" ++ ", ".intercalate values ++ "]"

/-- A written value that may be missing. -/
def optional : Option String → String
  | some value => "Some(" ++ value ++ ")"
  | none => "None"

/-- A name with one unnamed part. -/
def tagged (name value : String) : String := name ++ "(" ++ value ++ ")"

end ModalStack.Text
