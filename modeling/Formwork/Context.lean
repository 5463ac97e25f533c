import Formwork.Expr.Eval

/-!
# Data contexts

The values that markers and expressions read: live form values merged with a data source. Precedence
decides shared keys; the keys of the losing side come first.
-/

namespace Formwork

/-- The side whose value is kept on a shared key. -/
inductive Precedence where
  | dataSource
  | liveValues
deriving DecidableEq

structure Context where
  values : Props

namespace Context

def empty : Context := ⟨.empty⟩

def merge (live data : Props) (precedence : Precedence) : Context :=
  match precedence with
  | .dataSource => ⟨live.insertAll data.entries⟩
  | .liveValues => ⟨data.insertAll live.entries⟩

theorem merge_empty (data : Props) (precedence : Precedence) :
    merge .empty data precedence = ⟨data⟩ := by
  cases precedence with
  | dataSource => exact congrArg Context.mk (Record.empty_insertAll data)
  | liveValues => rfl

def get? (c : Context) (key : String) : Option Value := c.values.get? key

/-- The value of a key, null when there is none. -/
def lookup (c : Context) (key : String) : Value := (c.get? key).getD .null

def insert (c : Context) (key : String) (value : Value) : Context := ⟨c.values.insert key value⟩

def scope (c : Context) : Scope := c.get?

end Context

end Formwork
