import Formwork.Expr.Eval

/-!
# Errors

The errors of a field and of host code. A form error reported by host code, with or without context,
is recovered instead of being wrapped again.
-/

namespace Formwork

mutual

inductive FormError where
  | componentNotFound (key : String)
  | functionNotFound (name : String)
  | functionFailed (name : String) (source : HostError)
  | middlewareInvalid (name : String) (builtin : Bool)
  | expression (text : String) (source : ExpressionError)
  | render (source : HostError)
  | panicked (message : String)

/-- An error of host code: a text, a form error, or either with context around it. -/
inductive HostError where
  | other (text : String)
  | form (e : FormError)
  | context (text : String) (inner : HostError)

end

mutual

def FormError.message : FormError → String
  | .componentNotFound key => "component not found: " ++ key
  | .functionNotFound name => "function not found: " ++ name
  | .functionFailed name source => "function `" ++ name ++ "` failed: " ++ source.message
  | .middlewareInvalid name _ =>
    "middleware `" ++ name ++ "` is missing its hoc or filter function"
  | .expression text source =>
    "error evaluating expression `" ++ text ++ "`: " ++ source.message
  | .render source => "render failed: " ++ source.message
  | .panicked message => "render panicked: " ++ message

def HostError.message : HostError → String
  | .other text => text
  | .form e => e.message
  | .context text _ => text

end

/-- The form error at the root, below any context. -/
def HostError.formError? : HostError → Option FormError
  | .other _ => none
  | .form e => some e
  | .context _ inner => inner.formError?

/-- The form error at the root if there is one, otherwise a rendering failure. -/
def FormError.ofHost (e : HostError) : FormError :=
  match e.formError? with
  | some inner => inner
  | none => .render e

structure FieldError where
  field : String
  source : FormError

def FieldError.message (e : FieldError) : String :=
  "field `" ++ e.field ++ "`: " ++ e.source.message

end Formwork
