import DollarScript.Regex.Program

/-! Running a program on a text: all ways to match advance together, in order of preference. -/
namespace DollarScript.Regex

/-- Places noted so far, counted in characters from the start of the text. -/
abbrev Slots := List (Option Nat)

/-- A way to match: the next instruction and what it has noted. -/
structure Thread where
  pc : Nat
  slots : Slots

/-- A place in a text with its two neighbours. -/
structure Place where
  index : Nat
  before : Option Char
  after : Option Char

/-- Threads found so far, latest first, and the instructions already reached at this place. -/
structure Frontier where
  threads : List Thread
  reached : List Nat

namespace Program

/-- Follows a thread to the instructions that take a character or accept. An instruction that was
already reached here is not followed again: the thread that came first is preferred. Every step
reaches a new instruction, so `fuel` at the number of instructions is enough. -/
def follow (p : Program) (place : Place) :
    (fuel : Nat) → Thread → Frontier → Frontier
  | 0, _, f => f
  | fuel + 1, t, f =>
    if f.reached.contains t.pc then f
    else
      let f : Frontier := ⟨f.threads, t.pc :: f.reached⟩
      match p.code[t.pc]? with
      | none => f
      | some (.take _) | some .accept => ⟨t :: f.threads, f.reached⟩
      | some (.look l) =>
        if l.holds place.before place.after then follow p place fuel ⟨t.pc + 1, t.slots⟩ f else f
      | some (.save slot) =>
        follow p place fuel ⟨t.pc + 1, t.slots.set slot (some place.index)⟩ f
      | some (.jump target) => follow p place fuel ⟨target, t.slots⟩ f
      | some (.split preferred other) =>
        follow p place fuel ⟨other, t.slots⟩ (follow p place fuel ⟨preferred, t.slots⟩ f)

def blank (p : Program) : Slots := List.replicate (2 * (p.groups + 1)) none

def start (p : Program) (place : Place) (f : Frontier) : Frontier :=
  p.follow place (p.code.size + 1) ⟨0, p.blank⟩ f

/-- The slots of the first thread that accepts, and the threads preferred to it. -/
def accepted (p : Program) : List Thread → List Thread × Option Slots
  | [] => ([], none)
  | t :: ts =>
    if p.code[t.pc]? = some .accept then ([], some t.slots)
    else
      let (before, found) := accepted p ts
      (t :: before, found)

/-- Moves one thread over the character `c`, if its instruction takes it. -/
def move (p : Program) (c : Char) (behind : Place) (f : Frontier) (t : Thread) : Frontier :=
  match p.code[t.pc]? with
  | some (.take s) =>
    if s.contains c then p.follow behind (p.code.size + 1) ⟨t.pc + 1, t.slots⟩ f else f
  | _ => f

/-- Moves every thread over the character `c` to the place behind it. -/
def step (p : Program) (c : Char) (behind : Place) (threads : List Thread) : Frontier :=
  threads.foldl (p.move c behind) ⟨[], []⟩

/-- Runs the threads at one place over the rest of the text. A match that is already found gives
way only to threads that were preferred to it; without one, a program that is not anchored also
starts afresh at each place. -/
def runFrom (p : Program) (found : Option Slots) (index : Nat) (threads : List Thread) :
    List Char → Option Slots
  | [] => (accepted p threads).2.or found
  | c :: rest =>
    let (live, new) := accepted p threads
    let found := new.or found
    let behind : Place := ⟨index + 1, some c, rest.head?⟩
    let moved := p.step c behind live
    let moved := if found.isSome || p.anchored then moved else p.start behind moved
    if moved.threads.isEmpty && (found.isSome || p.anchored) then found
    else runFrom p found (index + 1) moved.threads.reverse rest

/-- The slots of the leftmost match, of several the preferred one. -/
def search? (p : Program) (text : List Char) : Option Slots :=
  let place : Place := ⟨0, none, text.head?⟩
  p.runFrom none 0 (p.start place ⟨[], []⟩).threads.reverse text

end Program

end DollarScript.Regex
