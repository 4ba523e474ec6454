import DollarScript.Regex.CharSet

/-! Patterns as trees. -/
namespace DollarScript.Regex

/-- Conditions on the place between two characters. -/
inductive Look where
  | startText
  | endText
  | startLine
  | endLine
  /-- Behind either character that ends a line, but not between the two. -/
  | startLineOrReturn
  | endLineOrReturn
  | wordBoundary
  | notWordBoundary
  | wordStart
  | wordEnd
  | wordStartHalf
  | wordEndHalf
  deriving DecidableEq, Repr

/-- The neighbours of a place in a text; `none` at an end of the text. -/
def Look.holds (look : Look) (before after : Option Char) : Bool :=
  let left := before.any Text.isWord
  let right := after.any Text.isWord
  match look with
  | .startText => before.isNone
  | .endText => after.isNone
  | .startLine => before.isNone || before == some '\n'
  | .endLine => after.isNone || after == some '\n'
  | .startLineOrReturn =>
    before.isNone || before == some '\n' || (before == some '\r' && after != some '\n')
  | .endLineOrReturn =>
    after.isNone || after == some '\r' || (after == some '\n' && before != some '\r')
  | .wordBoundary => left != right
  | .notWordBoundary => left == right
  | .wordStart => !left && right
  | .wordEnd => left && !right
  | .wordStartHalf => !left
  | .wordEndHalf => !right

inductive Tree where
  | empty
  | set (s : CharSet)
  | look (l : Look)
  | group (index : Nat) (body : Tree)
  | repetition (body : Tree) (least : Nat) (most : Option Nat) (greedy : Bool)
  | concat (items : List Tree)
  | alternate (items : List Tree)
  deriving Repr

namespace Tree

mutual

/-- Whether every match takes at least one character. -/
def consumes : Tree → Bool
  | .empty | .look _ => false
  | .set _ => true
  | .group _ body => body.consumes
  | .repetition body least _ _ => 0 < least && body.consumes
  | .concat items => anyConsumes items
  | .alternate items => allConsume items

def anyConsumes : List Tree → Bool
  | [] => false
  | t :: ts => t.consumes || anyConsumes ts

def allConsume : List Tree → Bool
  | [] => true
  | t :: ts => t.consumes && allConsume ts

end

mutual

/-- Whether no match takes a character. -/
def takesNothing : Tree → Bool
  | .empty | .look _ => true
  | .set _ => false
  | .group _ body => body.takesNothing
  | .repetition body _ most _ => most == some 0 || body.takesNothing
  | .concat items => allTakeNothing items
  | .alternate items => allTakeNothing items

def allTakeNothing : List Tree → Bool
  | [] => true
  | t :: ts => t.takesNothing && allTakeNothing ts

end

mutual

/-- Whether every match is tied to the start of the text. -/
def anchored : Tree → Bool
  | .look l => l == .startText
  | .empty | .set _ => false
  | .group _ body => body.anchored
  | .repetition body least _ _ => 0 < least && body.anchored
  | .concat items => firstAnchored items
  | .alternate items => !items.isEmpty && allAnchored items

/-- Looks at the front of a sequence, past what takes no character. -/
def firstAnchored : List Tree → Bool
  | [] => false
  | t :: ts => t.anchored || (t.takesNothing && firstAnchored ts)

def allAnchored : List Tree → Bool
  | [] => true
  | t :: ts => t.anchored && allAnchored ts

end

mutual

/-- The highest number of a group that is left in the tree. -/
def groups : Tree → Nat
  | .empty | .set _ | .look _ => 0
  | .group index body => max index body.groups
  | .repetition body _ _ _ => body.groups
  | .concat items | .alternate items => allGroups items

def allGroups : List Tree → Nat
  | [] => 0
  | t :: ts => max t.groups (allGroups ts)

end

/-- Repeating what takes no character says nothing after the first time; repeating nothing at
all, or just once, needs no loop. -/
def repeated (body : Tree) (least : Nat) (most : Option Nat) (greedy : Bool) : Tree :=
  let (least, most) :=
    if body.takesNothing then (min least 1, some ((most.getD 1).min 1)) else (least, most)
  if least = 0 ∧ most = some 0 then .empty
  else if least = 1 ∧ most = some 1 then body
  else .repetition body least most greedy

/-- Size of a loop body of size `n`, after counted repetitions are written out. -/
def repetitionSize (n least : Nat) : Option Nat → Nat
  | none => if least = 0 then n + 2 else n * least + 1
  | some most => n * least + (most - least) * (n + 1)

mutual

/-- How many instructions the tree becomes, at most; a set counts by its weight. -/
def size : Tree → Nat
  | .empty => 0
  | .set s => s.weight
  | .look _ => 1
  | .group _ body => body.size + 2
  | .repetition body least most _ => repetitionSize body.size least most
  | .concat items => totalSize items
  | .alternate items => totalSize items + 2 * items.length

def totalSize : List Tree → Nat
  | [] => 0
  | t :: ts => t.size + totalSize ts

end

end Tree

end DollarScript.Regex
