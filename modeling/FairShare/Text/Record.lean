/-!
# Written forms of records and lists

A record has two written forms: the named form `Name { field: value }`, with the field names as
they stand in the type, and the compact JSON object. Values are given as texts already written.
-/

namespace FairShare.Text

/-- The items between brackets, separated by a comma and a space. -/
def listForm (items : List String) : String :=
  "[" ++ ", ".intercalate items ++ "]"

/-- The named form of a record that has at least one field. -/
def recordForm (name : String) (fields : List (String × String)) : String :=
  name ++ " \x7b " ++ ", ".intercalate (fields.map fun f => f.1 ++ ": " ++ f.2) ++ " \x7d"

/-- The items as a JSON array without spaces. -/
def jsonArray (items : List String) : String :=
  "[" ++ ",".intercalate items ++ "]"

/-- The fields as a JSON object without spaces, for names that need no escape. -/
def jsonObject (fields : List (String × String)) : String :=
  "\x7b" ++ ",".intercalate (fields.map fun f => "\"" ++ f.1 ++ "\":" ++ f.2) ++ "\x7d"

/-- The word for a truth value, in both forms. -/
def truthWord (b : Bool) : String :=
  if b then "true" else "false"

end FairShare.Text
