import DollarScript.Number.Binary64

/-! TOML values and the tables that a document builds up line by line. -/
namespace DollarScript.Toml

/-- How a table came about, which decides what may still be added to it. -/
inductive Origin where
  /-- On the way to a table that has a header. -/
  | implicit
  /-- On the way to a dotted key. -/
  | dotted
  /-- By a header of its own. -/
  | header
  /-- Between braces; it is complete. -/
  | inline
  deriving DecidableEq, Repr

/-- Of a date or time only its form is checked. An array is made of tables that have headers, or
of items between brackets. -/
inductive Value where
  | str (s : String)
  | integer (n : Int)
  | float (x : Binary64)
  | boolean (b : Bool)
  | datetime
  | array (headed : Bool) (items : List Value)
  | table (origin : Origin) (entries : List (String × Value))

abbrev Entries := List (String × Value)

namespace Entries

/-- Replaces the value of a key that is there. -/
def replace (key : String) (value : Value) (entries : Entries) : Entries :=
  entries.map fun (k, v) => if k = key then (k, value) else (k, v)

/-- Changes the table at the end of a path, making tables on the way. `dotted` tells a path in
front of a key from one in a header: only a header passes through tables that have headers, and
into the last table of an array. -/
def descend (dotted : Bool) (change : Origin → Entries → Option Entries) :
    List String → Origin → Entries → Option Entries
  | [], origin, entries => change origin entries
  | key :: path, _, entries =>
    match entries.lookup key with
    | none =>
      let origin := if dotted then Origin.dotted else .implicit
      (descend dotted change path origin []).map fun inner =>
        entries ++ [(key, .table origin inner)]
    | some (.table origin inner) =>
      if origin = .inline ∨ (dotted ∧ origin = .header) then none
      else
        (descend dotted change path origin inner).map fun inner =>
          replace key (.table origin inner) entries
    | some (.array headed items) =>
      match dotted, headed, items.getLast? with
      | false, true, some (.table origin inner) =>
        (descend dotted change path origin inner).map fun inner =>
          replace key (.array headed (items.dropLast ++ [.table origin inner])) entries
      | _, _, _ => none
    | some _ => none

/-- Splits a path into the way and the last key. -/
def splitLast : List String → Option (List String × String)
  | [] => none
  | [key] => some ([], key)
  | key :: rest => (splitLast rest).map fun (way, last) => (key :: way, last)

/-- Adds a value under a key that may be dotted. A table takes dotted keys only if such keys made
it, and plain ones only if they did not. -/
def insert (path : List String) (value : Value) (origin : Origin) (entries : Entries) :
    Option Entries := do
  let (way, key) ← splitLast path
  descend true (fun origin entries =>
    if (origin = .dotted ↔ way = []) ∨ (entries.lookup key).isSome then none
    else some (entries ++ [(key, value)])) way origin entries

/-- Opens a table by its header; a table that was only passed through may still get one. -/
def openTable (path : List String) (entries : Entries) : Option Entries := do
  let (way, key) ← splitLast path
  descend false (fun _ entries =>
    match entries.lookup key with
    | none => some (entries ++ [(key, .table .header [])])
    | some (.table .implicit inner) => some (replace key (.table .header inner) entries)
    | some _ => none) way .header entries

/-- Opens one more table in an array. -/
def openItem (path : List String) (entries : Entries) : Option Entries := do
  let (way, key) ← splitLast path
  descend false (fun _ entries =>
    match entries.lookup key with
    | none => some (entries ++ [(key, .array true [.table .header []])])
    | some (.array true items) =>
      some (replace key (.array true (items ++ [.table .header []])) entries)
    | some _ => none) way .header entries

/-- Adds a value to the table whose header came last. -/
def insertAt (current path : List String) (value : Value) (entries : Entries) : Option Entries :=
  descend false (insert path value) current .header entries

end Entries

end DollarScript.Toml
