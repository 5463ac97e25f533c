import Formwork.Text.Quoted
import Formwork.Value.Text

/-!
# Inspection

Diagnostic texts of records, tuples, lists and maps.
-/

namespace Formwork

namespace Inspect

def list (items : List String) : String := "[" ++ String.intercalate ", " items ++ "]"

def map (entries : List (String × String)) : String :=
  let shown := entries.map fun entry => Text.quoted entry.1 ++ ": " ++ entry.2
  "\x7b" ++ String.intercalate ", " shown ++ "\x7d"

def tuple (name : String) (parts : List String) : String :=
  name ++ "(" ++ String.intercalate ", " parts ++ ")"

def record (name : String) (fields : List (String × String)) : String :=
  let shown := fields.map fun field => field.1 ++ ": " ++ field.2
  name ++ " \x7b " ++ String.intercalate ", " shown ++ " \x7d"

def option (shown : Option String) : String :=
  match shown with
  | none => "None"
  | some s => tuple "Some" [s]

def bool (b : Bool) : String := Value.boolText b

end Inspect

namespace Value

mutual

def inspect : Value → String
  | .null => "Null"
  | .bool b => Inspect.tuple "Bool" [boolText b]
  | .number n => Inspect.tuple "Number" [n.text]
  | .string s => Inspect.tuple "String" [Text.quoted s]
  | .array items => "Array " ++ Inspect.list (inspectItems items)
  | .object members => "Object " ++ Inspect.map (inspectMembers members)

def inspectItems : List Value → List String
  | [] => []
  | v :: rest => v.inspect :: inspectItems rest

def inspectMembers : List (String × Value) → List (String × String)
  | [] => []
  | (k, v) :: rest => (k, v.inspect) :: inspectMembers rest

end

end Value

def Props.inspect (props : Props) : String := Inspect.map (Value.inspectMembers props.entries)

end Formwork
