import Formwork.Value.Basic

/-!
# Descriptions of documents

The JSON Schema of schema documents and of options documents, for editors and validators.
-/

namespace Formwork.JsonSchema

def dialect : String × Value :=
  ("$schema", .string "https://json-schema.org/draft/2020-12/schema")

def typed (name : String) : String × Value := ("type", .string name)

def described (text : String) : String × Value := ("description", .string text)

def reference (name : String) : String × Value := ("$ref", .string ("#/$defs/" ++ name))

def schemaItem : Value :=
  .object [
    described ("Serializable form of [`SchemaItem`] as it appears in schema documents.\n\n"
      ++ "Documents can only name registry components; pre-built elements and direct\n"
      ++ "handles are attached programmatically through [`SchemaItem`]."),
    typed "object",
    ("properties", .object [
      ("field", .object [described "Field key.", typed "string"]),
      ("component", .object [described "Registry key of the component.", typed "string"]),
      ("componentProps", .object [
        described ("Component props; strings may hold `#fn(args)` or "
          ++ "`\x7b\x7b expr \x7d\x7d` markers."),
        typed "object", ("additionalProperties", .bool true), ("default", .object [])]),
      ("formItemProps", .object [
        described "Props for the surrounding form item.",
        ("type", .array [.string "object", .string "null"]),
        ("additionalProperties", .bool true)])]),
    ("required", .array [.string "field", .string "component"])]

def schema : Value :=
  .object [
    dialect, ("title", .string "Array_of_SchemaItemSpec"), typed "array",
    ("items", .object [reference "SchemaItemSpec"]),
    ("$defs", .object [("SchemaItemSpec", schemaItem)])]

def precedence : Value :=
  .object [
    described "Which side wins when live values and the data source share a key.",
    typed "string",
    ("enum", .array [.string "data_source_wins", .string "live_values_win"])]

def options : Value :=
  .object [
    dialect, ("title", .string "RenderOptions"), typed "object",
    ("properties", .object [
      ("merge_precedence", .object [
        reference "MergePrecedence", ("default", .string "data_source_wins")]),
      ("placeholder", .object [
        described "Text of the node shown in place of a failed field.", typed "string",
        ("default", .string "FormItem rendering error.")]),
      ("catch_panics", .object [
        described "Contain panics raised by components and callbacks.", typed "boolean",
        ("default", .bool true)])]),
    ("$defs", .object [("MergePrecedence", precedence)])]

end Formwork.JsonSchema
