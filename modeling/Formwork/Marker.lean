import Formwork.Context
import Formwork.Function
import Formwork.Text.Word

/-!
# Markers

`#name(a, b)` anywhere in a text is a call with the context's values of `a` and `b`. The leftmost
well-formed marker is used. Blank text between the parentheses means no arguments.
-/

namespace Formwork

structure Marker where
  name : String
  args : List String
deriving DecidableEq

namespace Marker

/-- The pieces between separators, one more than there are separators. -/
def splitAt (separator : Char) : List Char → List (List Char)
  | [] => [[]]
  | c :: rest =>
    if c = separator then [] :: splitAt separator rest
    else
      match splitAt separator rest with
      | [] => [[c]]
      | piece :: pieces => (c :: piece) :: pieces

def arguments (raw : List Char) : List String :=
  if raw.all Text.isBlank then []
  else (splitAt ',' raw).map fun piece => String.ofList (Text.trim piece)

/-- A marker behind its `#`: word characters, and then text in parentheses. -/
def readBody? (cs : List Char) : Option Marker :=
  let name := cs.takeWhile Text.isWord
  match cs.dropWhile Text.isWord with
  | '(' :: rest =>
    let raw := rest.takeWhile (· ≠ ')')
    if name.isEmpty || raw.length == rest.length then none
    else some ⟨String.ofList name, arguments raw⟩
  | _ => none

def find? : List Char → Option Marker
  | [] => none
  | c :: rest =>
    if c = '#' then
      match readBody? rest with
      | some m => some m
      | none => find? rest
    else find? rest

def parse? (text : String) : Option Marker := find? text.toList

variable {σ : Type}

/-- Calls the function with the context's values of the arguments, null for an unknown one. -/
def call (m : Marker) (context : Context) (functions : Functions σ) : Run σ FormError Value :=
  functions.call m.name (m.args.map context.lookup)

/-- The value that a text with a marker stands for; without one it is null. -/
def resolve (text : String) (context : Context) (functions : Functions σ) :
    Run (World σ) FormError Value :=
  match parse? text with
  | some m => World.onHost (m.call context functions)
  | none => do
    World.record (.malformedMarker text)
    pure .null

end Marker

end Formwork
