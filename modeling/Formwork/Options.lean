import Formwork.Context
import Formwork.Inspect

/-!
# Options

The plain settings of a form.
-/

namespace Formwork

namespace Precedence

def name : Precedence → String
  | .dataSource => "data_source_wins"
  | .liveValues => "live_values_win"

def ofName? (name : String) : Option Precedence :=
  [Precedence.dataSource, .liveValues].find? fun p => p.name == name

def inspect : Precedence → String
  | .dataSource => "DataSourceWins"
  | .liveValues => "LiveValuesWin"

end Precedence

structure Options where
  precedence : Precedence
  /-- Text of the node that stands for a failed field. -/
  placeholder : String
  catchPanics : Bool
deriving DecidableEq

namespace Options

def defaultPlaceholder : String := "FormItem rendering error."

def initial : Options := ⟨.dataSource, defaultPlaceholder, true⟩

instance : Inhabited Options := ⟨initial⟩

def toValue (o : Options) : Value :=
  .object [("merge_precedence", .string o.precedence.name), ("placeholder", .string o.placeholder),
    ("catch_panics", .bool o.catchPanics)]

def inspect (o : Options) : String :=
  Inspect.record "RenderOptions"
    [("merge_precedence", o.precedence.inspect), ("placeholder", Text.quoted o.placeholder),
      ("catch_panics", Inspect.bool o.catchPanics)]

end Options

end Formwork
