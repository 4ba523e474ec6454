import DollarScript.Kind
import DollarScript.Pattern

/-! Registries: the kinds of tokens that a scanner looks for, in the order in which it does. -/
namespace DollarScript

/-- A kind under its canonical name; any of its patterns will do. -/
structure Entry where
  name : String
  priority : Int
  patterns : List Pattern

/-- How much of a text a pattern has to match. -/
inductive Extent where
  | front
  | whole
  deriving DecidableEq, Repr

/-- A match at the front of a text is of use if it takes something and ends between characters. -/
def Match.acceptable (text : List Char) (m : Match) : Bool :=
  0 < m.length && (Text.splitBytes? m.length text).isSome

/-- The match of a pattern, if it is of use. -/
def Pattern.match? (extent : Extent) (text : List Char) (p : Pattern) : Option Match :=
  match extent with
  | .front => (p.matchFront text).filter (·.acceptable text)
  | .whole => p.matchWhole text

/-- The match of the first pattern that has one. -/
def Entry.match? (extent : Extent) (text : List Char) (e : Entry) : Option Match :=
  e.patterns.findSome? (·.match? extent text)

/-- Kinds in the order in which they are tried. -/
structure Registry where
  entries : List Entry

namespace Registry

def empty : Registry := ⟨[]⟩

def size (r : Registry) : Nat := r.entries.length

def indexOf? (r : Registry) (name : String) : Option Nat :=
  r.entries.findIdx? (·.name == Kind.canonical name)

def get? (r : Registry) (name : String) : Option Entry :=
  r.entries.find? (·.name == Kind.canonical name)

/-- Puts an entry behind those of at least its priority. -/
def insertByPriority (e : Entry) : List Entry → List Entry
  | [] => [e]
  | f :: rest => if f.priority < e.priority then e :: f :: rest else f :: insertByPriority e rest

/-- Highest priority first; entries of one priority keep their order. -/
def sortByPriority (entries : List Entry) : List Entry :=
  entries.foldl (fun sorted e => insertByPriority e sorted) []

/-- Adds a pattern to the entry of that name; a name without one gets an entry behind the others. -/
def addPattern (name : String) (pattern : Pattern) (priority : Option Int) :
    List Entry → List Entry
  | [] => [⟨name, priority.getD 0, [pattern]⟩]
  | e :: rest =>
    if e.name == name then
      { e with priority := priority.getD e.priority, patterns := e.patterns ++ [pattern] } :: rest
    else e :: addPattern name pattern priority rest

/-- Registers a pattern for a kind. A priority replaces the one the kind had and puts the kinds in
order again; without one, a new kind has priority 0 and comes last. -/
def register (r : Registry) (name : String) (pattern : Pattern) (priority : Option Int) :
    Registry :=
  let entries := addPattern (Kind.canonical name) pattern priority r.entries
  ⟨if priority.isSome then sortByPriority entries else entries⟩

/-- The match of the kind at an index. -/
def matchAt? (r : Registry) (extent : Extent) (text : List Char) (index : Nat) : Option Match :=
  (r.entries[index]?).bind (·.match? extent text)

/-- The first kind that matches: its index, itself, and the match. -/
structure Hit where
  index : Nat
  entry : Entry
  found : Match

def firstFrom (extent : Extent) (text : List Char) : Nat → List Entry → Option Hit
  | _, [] => none
  | index, e :: rest =>
    match e.match? extent text with
    | some found => some ⟨index, e, found⟩
    | none => firstFrom extent text (index + 1) rest

def first? (r : Registry) (extent : Extent) (text : List Char) : Option Hit :=
  firstFrom extent text 0 r.entries

/-- The registry of the built-in kinds. -/
def builtin : Registry :=
  Kind.table.foldl (fun r entry =>
    match Pattern.regex? entry.pattern with
    | some p => r.register entry.name p (some entry.priority)
    | none => r) empty

end Registry

end DollarScript
