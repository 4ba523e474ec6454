import DollarScript.Text.CaseFold
import DollarScript.Text.Property

/-! Sets of characters as a pattern describes them. -/
namespace DollarScript.Regex

open DollarScript.Text

inductive CharSet where
  | empty
  | range (first last : Char)
  | categories (cs : List Category)
  | white
  | digit
  | word
  | union (a b : CharSet)
  | inter (a b : CharSet)
  | minus (a b : CharSet)
  | complement (a : CharSet)
  /-- Closed under change of case. -/
  | folded (a : CharSet)
  deriving DecidableEq, Repr

namespace CharSet

def contains : CharSet → Char → Bool
  | .empty, _ => false
  | .range first last, c => first ≤ c && c ≤ last
  | .categories cs, c => cs.contains (category c)
  | .white, c => isWhite c
  | .digit, c => isDecimalDigit c
  | .word, c => isWord c
  | .union a b, c => a.contains c || b.contains c
  | .inter a b, c => a.contains c && b.contains c
  | .minus a b, c => a.contains c && !b.contains c
  | .complement a, c => !a.contains c
  | .folded a, c => (caseClass c).any a.contains

def single (c : Char) : CharSet := .range c c

def ofList : List CharSet → CharSet
  | [] => .empty
  | [a] => a
  | a :: b :: rest => .union a (ofList (b :: rest))

def symmetricMinus (a b : CharSet) : CharSet := .union (.minus a b) (.minus b a)

def foldedIf (insensitive : Bool) (a : CharSet) : CharSet := if insensitive then .folded a else a

def complementIf (negated : Bool) (a : CharSet) : CharSet := if negated then .complement a else a

def ofRanges (rs : List (Char × Char)) : CharSet := ofList (rs.map fun r => .range r.1 r.2)

/-- How much a set counts in the size of a pattern; those that span all scripts count for more. -/
def weight : CharSet → Nat
  | .empty | .range _ _ => 1
  | .white => 20
  | .digit => 150
  | .word | .categories _ => 1400
  | .union a b | .inter a b | .minus a b => a.weight + b.weight
  | .complement a | .folded a => a.weight

/-- The classes that go by a name between `[:` and `:]`; they hold ASCII characters only. -/
def ofAsciiName? (name : String) : Option CharSet :=
  match name with
  | "alnum" => some (ofRanges [('0', '9'), ('A', 'Z'), ('a', 'z')])
  | "alpha" => some (ofRanges [('A', 'Z'), ('a', 'z')])
  | "ascii" => some (.range '\x00' '\x7f')
  | "blank" => some (ofRanges [('\t', '\t'), (' ', ' ')])
  | "cntrl" => some (ofRanges [('\x00', '\x1f'), ('\x7f', '\x7f')])
  | "digit" => some (.range '0' '9')
  | "graph" => some (.range '!' '~')
  | "lower" => some (.range 'a' 'z')
  | "print" => some (.range ' ' '~')
  | "punct" => some (ofRanges [('!', '/'), (':', '@'), ('[', '\x60'), ('\x7b', '~')])
  | "space" => some (ofRanges [('\t', '\r'), (' ', ' ')])
  | "upper" => some (.range 'A' 'Z')
  | "word" => some (ofRanges [('0', '9'), ('A', 'Z'), ('_', '_'), ('a', 'z')])
  | "xdigit" => some (ofRanges [('0', '9'), ('A', 'F'), ('a', 'f')])
  | _ => none

end CharSet

end DollarScript.Regex
