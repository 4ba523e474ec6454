import DollarScript.Regex
import DollarScript.Text.Span

/-! Patterns: what a kind of token looks like at the front of a text, or as the whole of it. -/
namespace DollarScript

open Text

/-- The bytes that a match covers, and what its groups took. -/
structure Match where
  length : Nat
  captures : List (Option String)
  deriving DecidableEq, Repr

/-- Any way to match a text; nothing is promised about the lengths that it reports. -/
structure Pattern where
  source : String
  matchFront : List Char → Option Match
  matchWhole : List Char → Option Match

namespace Pattern

/-- A text that stands for itself. -/
def literal (s : String) : Pattern where
  source := s
  matchFront := fun text =>
    if s.toList.isPrefixOf text then some ⟨byteLength s.toList, []⟩ else none
  matchWhole := fun text => if s.toList = text then some ⟨byteLength s.toList, []⟩ else none

/-- The pattern text that is tied to the start of a text. -/
def frontText (source : List Char) : List Char := "\\A(?:".toList ++ source ++ ")".toList

/-- The pattern text that is tied to both ends. -/
def wholeText (source : List Char) : List Char := "\\A(?:".toList ++ source ++ ")\\z".toList

/-- A match reaches to its end, wherever it starts. -/
def matchOf (text : List Char) (found : Regex.Found) : Match where
  length := byteLength (text.take found.stop)
  captures := found.groups.map fun g =>
    g.map fun (start, stop) => String.ofList (Regex.between text start stop)

/-- A regular expression. Its source is put between the anchors as text, so parentheses in it may
pair up with those around it. -/
def regex? (source : String) : Option Pattern := do
  let front ← Regex.compile? (frontText source.toList)
  let whole ← Regex.compile? (wholeText source.toList)
  return {
    source := source
    matchFront := fun text => (front.find? text).map (matchOf text)
    matchWhole := fun text => (whole.find? text).map (matchOf text) }

/-- Whether a regular expression is well formed, but too large once it stands between anchors. -/
def isTooLarge (source : String) : Bool :=
  Regex.Reader.isTooLarge (frontText source.toList) ||
    Regex.Reader.isTooLarge (wholeText source.toList)

end Pattern

end DollarScript
