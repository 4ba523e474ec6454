import DollarScript.Grammar

/-! Grammar files: a section for the parser and a table for each kind of token. -/
namespace DollarScript

namespace Toml

/-- Looks up a field of a record that is written as a table, or as an array with the fields in
order. A date has no fields at all. -/
def Value.field? (names : List String) (name : String) : Value → Option (Option Value)
  | .table _ entries => some (entries.lookup name)
  | .array _ items => some ((names.findIdx? (· == name)).bind (items[·]?))
  | .datetime => some none
  | _ => none

/-- A field as `read` understands it; `default` if it is missing. -/
def Value.fieldOr {α : Type} (v : Value) (names : List String) (name : String)
    (read : Value → Option α) (default : Option α) : Option α :=
  match v.field? names name with
  | some (some field) => read field
  | some none => default
  | none => none

def Value.asString? : Value → Option String
  | .str s => some s
  | _ => none

def Value.asBool? : Value → Option Bool
  | .boolean b => some b
  | _ => none

/-- An unsigned integer of 64 bits. -/
def Value.asSize? : Value → Option Nat
  | .integer n => if 0 ≤ n ∧ n < Int.pow 2 64 then some n.toNat else none
  | _ => none

/-- A signed integer of 32 bits. -/
def Value.asPriority? : Value → Option Int
  | .integer n => if -Int.pow 2 31 ≤ n ∧ n < Int.pow 2 31 then some n else none
  | _ => none

end Toml

open Toml

def ParserSection.fields : List String := ["condition_delimiter", "require_delimiter", "max_nesting"]

def ParserSection.ofValue? (v : Value) : Option ParserSection := do
  let delimiter ← v.fieldOr fields "condition_delimiter" (fun f => f.asString?.map some)
    (some (some Kind.colon))
  let required ← v.fieldOr fields "require_delimiter" Value.asBool? (some true)
  let nesting ← v.fieldOr fields "max_nesting" Value.asSize? (some 256)
  return ⟨delimiter, required, nesting⟩

def TokenSpec.fields : List String := ["name", "pattern", "priority", "literal"]

def TokenSpec.ofValue? (v : Value) : Option TokenSpec := do
  let name ← v.fieldOr fields "name" Value.asString? none
  let pattern ← v.fieldOr fields "pattern" Value.asString? none
  let priority ← v.fieldOr fields "priority" (fun f => f.asPriority?.map some) (some none)
  let literal ← v.fieldOr fields "literal" Value.asBool? (some false)
  return ⟨name, pattern, priority, literal⟩

/-- All entries, or none if one of them is wrong. -/
def TokenSpec.ofValues? : List Value → Option (List TokenSpec)
  | [] => some []
  | v :: rest => (TokenSpec.ofValue? v).bind fun t => (ofValues? rest).map (t :: ·)

def TokenSpec.ofArray? : Value → Option (List TokenSpec)
  | .array _ items => ofValues? items
  | _ => none

namespace Grammar

def ofEntries? (entries : Entries) : Option Grammar := do
  let parser ← match entries.lookup "parser" with
    | some v => ParserSection.ofValue? v
    | none => some .default
  let tokens ← match entries.lookup "token" with
    | some v => TokenSpec.ofArray? v
    | none => some builtinTokens
  return ⟨parser, tokens⟩

/-- Reads a grammar file. Sections and keys that it does not know are passed over; a file without
kinds of tokens has the built-in ones. -/
def ofText? [Libraries] (text : String) : Option Grammar :=
  (Libraries.document? text).bind ofEntries?

def stringLine (key value : String) : String :=
  key ++ " = " ++ String.ofList (Toml.written value.toList) ++ "\n"

def intText (n : Int) : String :=
  if n < 0 then "-" ++ Json.naturalText n.natAbs else Json.naturalText n.toNat

def parserText (p : ParserSection) : String :=
  "[parser]\n"
    ++ (match p.conditionDelimiter with
      | some kind => stringLine "condition_delimiter" kind
      | none => "")
    ++ "require_delimiter = " ++ (if p.requireDelimiter then "true" else "false") ++ "\n"
    ++ "max_nesting = " ++ Json.naturalText p.maxNesting ++ "\n"

def tokenText (t : TokenSpec) : String :=
  "\n[[token]]\n" ++ stringLine "name" t.name ++ stringLine "pattern" t.pattern
    ++ (match t.priority with
      | some n => "priority = " ++ intText n ++ "\n"
      | none => "")
    ++ (if t.literal then "literal = true\n" else "")

/-- The grammar file of a grammar. -/
def toText (g : Grammar) : String :=
  (if g.tokens.isEmpty then "token = []\n\n" else "") ++ parserText g.parser
    ++ String.join (g.tokens.map tokenText)

/-- Writes a grammar file. A file can hold whatever a grammar can, so this never fails. -/
def toText? (g : Grammar) : Option String := some g.toText

end Grammar

end DollarScript
