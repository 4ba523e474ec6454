import DollarScript.Regex.Reader
import DollarScript.Regex.Run

/-! Regular expressions: reading a pattern and finding its preferred match in a text. -/
namespace DollarScript

/-- A pattern that has been read, ready to run. -/
abbrev Regex := Regex.Program

namespace Regex

def compile? (pattern : List Char) : Option Regex :=
  (Reader.read? pattern).map Program.ofTree

/-- Where a match starts and ends, and the same for each group that took part in it. -/
structure Found where
  start : Nat
  stop : Nat
  groups : List (Option (Nat × Nat))
  deriving DecidableEq, Repr

/-- Start and end of each group, from its two slots. -/
def pairs : Slots → List (Option (Nat × Nat))
  | start :: stop :: rest =>
    (start.bind fun a => stop.map fun b => (a, b)) :: pairs rest
  | _ => []

/-- The leftmost match of the pattern anywhere in the text. -/
def find? (r : Regex) (text : List Char) : Option Found :=
  (r.search? text).bind fun slots =>
    match pairs slots with
    | some (start, stop) :: groups => some ⟨start, stop, groups⟩
    | _ => none

/-- The characters from one place to another. -/
def between (text : List Char) (start stop : Nat) : List Char := (text.take stop).drop start

end Regex

end DollarScript
