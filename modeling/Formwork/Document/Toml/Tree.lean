import Formwork.Number.Decimal
import Formwork.Value.Basic

/-!
# TOML trees

The values of a TOML document, and insertion into tables line by line. Each table records how it was
defined, which restricts later insertions.
-/

namespace Formwork

inductive TableForm where
  /-- Defined by a header of its own, or the document itself. -/
  | header
  /-- Named only on the way to a longer header. -/
  | implied
  /-- Made by a dotted key. -/
  | dotted
  /-- Written in braces, and complete. -/
  | inline
deriving DecidableEq

inductive Toml where
  | string (s : String)
  | integer (n : Int)
  | float (x : Binary64)
  | bool (b : Bool)
  | dateTime (text : String)
  | array (items : List Toml)
  /-- Tables under repeated double headers. -/
  | tables (items : List Toml)
  | table (form : TableForm) (entries : List (String × Toml))

namespace Toml

/-- A change of a table, refused where the document is wrong. -/
abbrev Change := TableForm → Entries Toml → Option (TableForm × Entries Toml)

/-- Changes the table at the end of a path, and makes the tables on the way that are missing. Of
repeated tables the last one counts. A dotted path does not lead into a table that has a header,
and no path leads into an inline table. -/
def atPath (dotted : Bool) (change : Change) : List String → Change
  | [], form, entries => change form entries
  | key :: path, form, entries =>
    match Entries.get? key entries with
    | none => do
      let (f, es) ← atPath dotted change path (if dotted then .dotted else .implied) []
      pure (form, Entries.insert key (.table f es) entries)
    | some (.table f es) =>
      if f = .inline ∨ (dotted = true ∧ f = .header) then none
      else do
        let (f, es) ← atPath dotted change path f es
        pure (form, Entries.insert key (.table f es) entries)
    | some (.tables items) =>
      match items.reverse with
      | .table f es :: before => do
        let (f, es) ← atPath dotted change path f es
        pure (form, Entries.insert key (.tables (before.reverse ++ [.table f es])) entries)
      | _ => none
    | some _ => none

/-- Adds a value under a new key, directly or at the end of a dotted path. -/
def put (path : List String) (key : String) (value : Toml) : Change :=
  atPath true
    (fun form entries =>
      if (form = .dotted) ↔ path = [] then none
      else if (Entries.get? key entries).isSome then none
      else some (form, entries ++ [(key, value)]))
    path

/-- Opens the table of a header. One that was only implied so far goes behind its neighbours. -/
def openTable (path : List String) (key : String) : Change :=
  atPath false
    (fun form entries =>
      match Entries.get? key entries with
      | none => some (form, Entries.insert key (.table .header []) entries)
      | some (.table .implied es) =>
        some (form, Entries.insert key (.table .header es) (Entries.erase key entries))
      | some _ => none)
    path

/-- Opens one more table of a double header. -/
def openNext (path : List String) (key : String) : Change :=
  atPath false
    (fun form entries =>
      match Entries.get? key entries with
      | none => some (form, Entries.insert key (.tables [.table .header []]) entries)
      | some (.tables items) =>
        some (form, Entries.insert key (.tables (items ++ [.table .header []])) entries)
      | some _ => none)
    path

end Toml

end Formwork
