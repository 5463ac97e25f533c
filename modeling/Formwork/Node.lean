import Formwork.Inspect
import Formwork.Run

/-!
# Nodes

The output of components: texts, elements with props, handler and children, and fragments, with
their markup and the search for elements by tag.
-/

namespace Formwork

/-- A change handler. It returns no error, though it may panic. -/
abbrev Handler (σ : Type) := Value → Run σ Empty Unit

inductive Node (σ : Type) where
  | empty
  | text (t : String)
  | element (tag : String) (props : Props) (onChange : Option (Handler σ))
      (children : List (Node σ))
  | fragment (children : List (Node σ))

structure Element (σ : Type) where
  tag : String
  props : Props
  onChange : Option (Handler σ)
  children : List (Node σ)

namespace Element

variable {σ : Type}

def toNode (e : Element σ) : Node σ := .element e.tag e.props e.onChange e.children

/-- Runs the element's handler on a value; false without a handler. -/
def emit (e : Element σ) (value : Value) : Run σ Empty Bool :=
  match e.onChange with
  | some handler => do
    handler value
    pure true
  | none => pure false

end Element

namespace Node

variable {σ : Type}

def placeholderTag : String := "form-item-error"

def placeholder (message : String) : Node σ := .element placeholderTag .empty none [.text message]

def isEmpty : Node σ → Bool
  | .empty => true
  | _ => false

def asElement? : Node σ → Option (Element σ)
  | .element tag props onChange children => some ⟨tag, props, onChange, children⟩
  | _ => none

def isPlaceholder (n : Node σ) : Bool :=
  match n.asElement? with
  | some e => e.tag == placeholderTag
  | none => false

mutual

/-- All elements, each before its children. -/
def elements : Node σ → List (Element σ)
  | .empty => []
  | .text _ => []
  | .element tag props onChange children =>
    ⟨tag, props, onChange, children⟩ :: elementsOf children
  | .fragment children => elementsOf children

def elementsOf : List (Node σ) → List (Element σ)
  | [] => []
  | n :: rest => elements n ++ elementsOf rest

end

mutual

def find? (tag : String) : Node σ → Option (Element σ)
  | .empty => none
  | .text _ => none
  | .element t props onChange children =>
    if t = tag then some ⟨t, props, onChange, children⟩ else findIn? tag children
  | .fragment children => findIn? tag children

def findIn? (tag : String) : List (Node σ) → Option (Element σ)
  | [] => none
  | n :: rest => (find? tag n).or (findIn? tag rest)

end

def replaceChar (c : Char) (replacement : String) (cs : List Char) : List Char :=
  cs.flatMap fun d => if d = c then replacement.toList else [d]

/-- Replaces ampersands first, since the other entities contain them. -/
def escape (t : String) : String :=
  String.ofList
    (replaceChar '>' "&gt;" (replaceChar '<' "&lt;" (replaceChar '&' "&amp;" t.toList)))

def attributes (props : Props) : String :=
  String.join (props.entries.map fun entry => " " ++ entry.1 ++ "=" ++ entry.2.text)

mutual

def display : Node σ → String
  | .empty => ""
  | .text t => escape t
  | .fragment children => displayAll children
  | .element tag props _ [] => "<" ++ tag ++ attributes props ++ " />"
  | .element tag props _ (child :: rest) =>
    "<" ++ tag ++ attributes props ++ ">" ++ (display child ++ displayAll rest)
      ++ "</" ++ tag ++ ">"

def displayAll : List (Node σ) → String
  | [] => ""
  | n :: rest => display n ++ displayAll rest

end

/-- A handler shows only that it is there. -/
def inspectHandler (onChange : Option (Handler σ)) : String :=
  Inspect.option (onChange.map fun _ => Text.quoted "<handler>")

mutual

def inspect : Node σ → String
  | .empty => "Empty"
  | .text t => Inspect.tuple "Text" [Text.quoted t]
  | .element tag props onChange children =>
    Inspect.tuple "Element"
      [Inspect.record "Element"
        [("tag", Text.quoted tag), ("props", Props.inspect props),
          ("on_change", inspectHandler onChange),
          ("children", Inspect.list (inspectAll children))]]
  | .fragment children => Inspect.tuple "Fragment" [Inspect.list (inspectAll children)]

def inspectAll : List (Node σ) → List String
  | [] => []
  | n :: rest => inspect n :: inspectAll rest

end

end Node

end Formwork
