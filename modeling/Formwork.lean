import Formwork.Form.Renderer
import Formwork.OptionsDocument
import Formwork.Schema.Document
import Formwork.Schema.JsonSchema
import Formwork.Proofs.Form.Memo
import Formwork.Proofs.Form.Pass
import Formwork.Proofs.Form.History
import Formwork.Proofs.Form.Quiet
import Formwork.Proofs.Form.Fieldwise
import Formwork.Proofs.Form.Visibility
import Formwork.Proofs.Expr.Grammar
import Formwork.Proofs.Expr.Complete
import Formwork.Proofs.Expr.Correct
import Formwork.Proofs.Form.Binding
import Formwork.Proofs.Resolver.Rebuild
import Formwork.Proofs.Props.Footprint
import Formwork.Proofs.Expr.Variables
import Formwork.Proofs.Expr.Print
import Formwork.Proofs.Expr.Lexeme
import Formwork.Proofs.Expr.Reprint
import Formwork.Proofs.Number.ReadBack
import Formwork.Proofs.Number.Text
import Formwork.Proofs.Form.Delivery
import Formwork.Proofs.Resolver.Forward
import Formwork.Proofs.Schema.Formats
import Formwork.Proofs.Form.AllOrNothing
import Formwork.Proofs.Expr.Source
import Formwork.Proofs.Expr.LargerScope
import Formwork.Proofs.Expr.Tiling
import Formwork.Proofs.Expr.Guided
import Formwork.Proofs.Expr.Unexpected
import Formwork.Proofs.Expr.Respacing
import Formwork.Proofs.Marker.Leftmost
import Formwork.Proofs.Marker.Print
import Formwork.Proofs.Middleware.Select
import Formwork.Proofs.Number.Nearest
import Formwork.Proofs.Number.Typed
import Formwork.Proofs.Middleware.Fold
import Formwork.Proofs.Number.Front
import Formwork.Proofs.Middleware.Coercion
import Formwork.Proofs.Value.Equality
import Formwork.Proofs.Value.Order
import Formwork.Proofs.Value.EqualIndex
import Formwork.Proofs.Function.Protected
import Formwork.Proofs.Props.Order
import Formwork.Proofs.Form.Catching
import Formwork.Proofs.Form.Retention
import Formwork.Proofs.Context.Union
import Formwork.Proofs.Node.Escape
import Formwork.Proofs.Node.Markup
import Formwork.Proofs.Form.Recorded
import Formwork.Proofs.Schema.Layout
import Formwork.Proofs.Expr.Counters
import Formwork.Proofs.Node.Search
