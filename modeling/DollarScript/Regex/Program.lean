import DollarScript.Regex.Tree

/-! Patterns as programs for a machine that follows all ways to match at once. -/
namespace DollarScript.Regex

/-- All but `split`, `jump` and `accept` go on with the next instruction. -/
inductive Inst where
  | take (s : CharSet)
  | look (l : Look)
  /-- Notes the current place in a slot; a group owns two. -/
  | save (slot : Nat)
  /-- Goes on at both places; the first is preferred. -/
  | split (preferred other : Nat)
  | jump (target : Nat)
  | accept
  deriving DecidableEq, Repr

/-- A greedy choice prefers to go in. -/
def Inst.choice (greedy : Bool) (inside outside : Nat) : Inst :=
  if greedy then .split inside outside else .split outside inside

namespace Tree

/-- `count` copies of a block, one after the other. -/
def copies (block : Nat → List Inst) : (count base : Nat) → List Inst
  | 0, _ => []
  | count + 1, base =>
    let code := block base
    code ++ copies block count (base + code.length)

/-- Up to `count` more copies; each may be the last, and all leave for the same place. -/
def optionalCopies (block : Nat → List Inst) (greedy : Bool) (exit : Nat) :
    (count base : Nat) → List Inst
  | 0, _ => []
  | count + 1, base =>
    let code := block (base + 1)
    .choice greedy (base + 1) exit :: code
      ++ optionalCopies block greedy exit count (base + 1 + code.length)

/-- A loop that runs the block at least once. -/
def loopOnce (block : Nat → List Inst) (greedy : Bool) (base : Nat) : List Inst :=
  let code := block base
  let again := base + code.length
  code ++ [.choice greedy base (again + 1)]

/-- A block that takes no fixed number of characters is entered through a choice of its own: the
way that leaves without a round and the way that leaves after one then differ in preference. -/
def loop (block : Nat → List Inst) (consumes greedy : Bool) (base : Nat) : List Inst :=
  if consumes then
    let code := block (base + 1)
    .choice greedy (base + 1) (base + code.length + 2) :: code ++ [.jump base]
  else
    let code := loopOnce block greedy (base + 1)
    .choice greedy (base + 1) (base + 1 + code.length) :: code

mutual

/-- Instructions from address `base` on; whatever follows them is the continuation. -/
def code : Tree → (base : Nat) → List Inst
  | .empty, _ => []
  | .set s, _ => [.take s]
  | .look l, _ => [.look l]
  | .group index body, base =>
    .save (2 * index) :: code body (base + 1) ++ [.save (2 * index + 1)]
  | .repetition body least most greedy, base =>
    let block := code body
    match most with
    | none =>
      match least with
      | 0 => loop block body.consumes greedy base
      | n + 1 =>
        let front := copies block n base
        front ++ loopOnce block greedy (base + front.length)
    | some m =>
      let front := copies block least base
      let rest := base + front.length
      let length := (block rest).length
      front ++ optionalCopies block greedy (rest + (m - least) * (length + 1)) (m - least) rest
  | .concat items, base => codeAll items base
  | .alternate items, base => codeAny items base

def codeAll : List Tree → (base : Nat) → List Inst
  | [], _ => []
  | t :: ts, base =>
    let front := code t base
    front ++ codeAll ts (base + front.length)

/-- Alternatives in order of preference. -/
def codeAny : List Tree → (base : Nat) → List Inst
  | [], _ => [.take .empty]
  | [t], base => code t base
  | t :: u :: ts, base =>
    let front := code t (base + 1)
    let second := base + 1 + front.length + 1
    let back := codeAny (u :: ts) second
    .split (base + 1) second :: front ++ .jump (second + back.length) :: back

end

end Tree

/-- A program, the number of groups that its slots belong to, and whether it can only match at
the start of a text. -/
structure Program where
  code : Array Inst
  groups : Nat
  anchored : Bool

/-- The whole pattern is group 0. -/
def Program.ofTree (t : Tree) : Program where
  code := ((Tree.group 0 t).code 0 ++ [Inst.accept]).toArray
  groups := t.groups
  anchored := t.anchored

end DollarScript.Regex
