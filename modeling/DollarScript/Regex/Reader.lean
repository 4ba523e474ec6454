import DollarScript.Regex.Tree
import DollarScript.Text.Alphabetic

/-! Reading a pattern. What cannot be read gives `none`, and so does what this reader does not know:
of the properties that `\p` asks for it has the general categories, `any` and `assigned`, but no
scripts, no ages and no others such as `Alphabetic`; and Unicode cannot be turned off by `(?-u)`. -/
namespace DollarScript.Regex.Reader

open DollarScript.Text

/-- Settings that a pattern changes by `(?flags)`. -/
structure Flags where
  insensitive : Bool
  multiline : Bool
  dotAll : Bool
  lazyFirst : Bool
  ignoreBlanks : Bool
  /-- Whether a line also ends at a carriage return. -/
  returns : Bool
  deriving DecidableEq

def Flags.initial : Flags := ⟨false, false, false, false, false, false⟩

/-- What a point stands for. -/
def Flags.point (flags : Flags) : CharSet :=
  if flags.dotAll then .complement .empty
  else if flags.returns then .complement (.union (.single '\r') (.single '\n'))
  else .complement (.single '\n')

def Flags.lineStart (flags : Flags) : Look :=
  if !flags.multiline then .startText else if flags.returns then .startLineOrReturn else .startLine

def Flags.lineEnd (flags : Flags) : Look :=
  if !flags.multiline then .endText else if flags.returns then .endLineOrReturn else .endLine

/-- Blanks, and comments from `#` to the end of the line. -/
def dropIgnored : (comment : Bool) → List Char → List Char
  | _, [] => []
  | true, c :: cs => dropIgnored (c != '\n') cs
  | false, c :: cs =>
    if isWhite c then dropIgnored false cs
    else if c = '#' then dropIgnored true cs
    else c :: cs

def skip (ignoreBlanks : Bool) (cs : List Char) : List Char :=
  if ignoreBlanks then dropIgnored false cs else cs

/-- What one element of a pattern or of a bracketed set stands for. -/
inductive Primitive where
  | char (c : Char)
  | set (s : CharSet)
  | look (l : Look)

def hexValue? (c : Char) : Option Nat :=
  if '0' ≤ c ∧ c ≤ '9' then some (c.toNat - '0'.toNat)
  else if 'a' ≤ c ∧ c ≤ 'f' then some (c.toNat - 'a'.toNat + 10)
  else if 'A' ≤ c ∧ c ≤ 'F' then some (c.toNat - 'A'.toNat + 10)
  else none

/-- The character with a given code point, if there is one. -/
def charOfCode? (n : Nat) : Option Char :=
  if n.isValidChar then some (Char.ofNat n) else none

/-- Exactly `count` hexadecimal digits. -/
def readHexDigits (blanks : Bool) : (count value : Nat) → List Char → Option (Nat × List Char)
  | 0, value, cs => some (value, cs)
  | _ + 1, _, [] => none
  | count + 1, value, c :: cs =>
    (hexValue? c).bind fun d => readHexDigits blanks count (16 * value + d) (skip blanks cs)

/-- Hexadecimal digits up to a closing brace, at least one. `blanks` and `comment` track what
is skipped on the way. -/
def readHexBraced (blanks comment : Bool) (digits : List Nat) : List Char → Option (Nat × List Char)
  | [] => none
  | c :: cs =>
    if comment then readHexBraced blanks (c != '\n') digits cs
    else if blanks ∧ isWhite c then readHexBraced blanks false digits cs
    else if blanks ∧ c = '#' then readHexBraced blanks true digits cs
    else if c = '\x7d' then
      if digits.isEmpty then none
      else some (digits.reverse.foldl (fun n d => 16 * n + d) 0, skip blanks cs)
    else (hexValue? c).bind fun d => readHexBraced blanks false (d :: digits) cs

/-- A character by its code point, after the letter that says how many digits it has. -/
def readHex (blanks : Bool) (count : Nat) (cs : List Char) : Option (Primitive × List Char) := do
  let (value, rest) ←
    match skip blanks cs with
    | '\x7b' :: more => readHexBraced blanks false [] more
    | more => readHexDigits blanks count 0 more
  let c ← charOfCode? value
  return (.char c, rest)

/-- Characters up to a closing brace, those that are skipped left out. -/
def readBraced (blanks comment : Bool) (name : List Char) : List Char → Option (List Char × List Char)
  | [] => none
  | c :: cs =>
    if comment then readBraced blanks (c != '\n') name cs
    else if blanks ∧ isWhite c then readBraced blanks false name cs
    else if blanks ∧ c = '#' then readBraced blanks true name cs
    else if c = '\x7d' then some (name.reverse, cs)
    else readBraced blanks false (c :: name) cs

/-- Splits at the first mark that says which value a property has; the flag tells `≠`. -/
def splitProperty (before : List Char) : List Char → Option (List Char × Bool × List Char)
  | [] => none
  | '!' :: '=' :: rest => some (before.reverse, true, rest)
  | c :: rest =>
    if c = ':' ∨ c = '=' then some (before.reverse, false, rest) else splitProperty (c :: before) rest

/-- Names of the property whose values are the general categories. -/
def isCategoryProperty (name : List Char) : Bool :=
  let bare := (name.filter fun c => c ≠ ' ' ∧ c ≠ '_' ∧ c ≠ '-').map Char.toLower
  String.ofList bare == "gc" || String.ofList bare == "generalcategory"

/-- A set of characters by category, after the letter that asks for it. -/
def readCategories (flags : Flags) (negated : Bool) (cs : List Char) :
    Option (Primitive × List Char) := do
  let (name, rest) ←
    match skip flags.ignoreBlanks cs with
    | [] => none
    | '\x7b' :: more => readBraced flags.ignoreBlanks false [] more
    | '\\' :: _ => none
    | c :: more => some ([c], skip flags.ignoreBlanks more)
  let (different, value) ←
    match splitProperty [] name with
    | none => some (false, name)
    | some (property, different, value) =>
      if isCategoryProperty property then some (different, value) else none
  let categories ← Category.ofName? value
  let set := CharSet.foldedIf flags.insensitive (.categories categories)
  return (.set (.complementIf (negated != different) set), rest)

/-- The four boundaries that are asked for by name. -/
def boundaryOfName? (name : String) : Option Look :=
  match name with
  | "start" => some .wordStart
  | "end" => some .wordEnd
  | "start-half" => some .wordStartHalf
  | "end-half" => some .wordEndHalf
  | _ => none

def isBoundaryChar (c : Char) : Bool := c.isAlpha || c == '-'

/-- A word boundary: a braced name may follow. Braces that cannot hold a name are left to be read
as a count. -/
def readBoundary (blanks : Bool) (cs : List Char) : Option (Primitive × List Char) :=
  match cs with
  | '\x7b' :: more =>
    match skip blanks more with
    | [] => none
    | c :: inside =>
      if isBoundaryChar c then do
        let (name, rest) ← readBraced blanks false [] (c :: inside)
        let look ← boundaryOfName? (String.ofList name)
        return (.look look, rest)
      else some (.look .wordBoundary, cs)
  | _ => some (.look .wordBoundary, cs)

/-- Characters that may stand behind a backslash for themselves. -/
def isEscapable (c : Char) : Bool :=
  c.toNat < 128 && !c.isAlphanum && c != '<' && c != '>'

/-- What follows a backslash. -/
def readEscape (flags : Flags) : List Char → Option (Primitive × List Char)
  | [] => none
  | c :: cs =>
    match c with
    | 'x' => readHex flags.ignoreBlanks 2 cs
    | 'u' => readHex flags.ignoreBlanks 4 cs
    | 'U' => readHex flags.ignoreBlanks 8 cs
    | 'p' => readCategories flags false cs
    | 'P' => readCategories flags true cs
    | 'd' => some (.set .digit, cs)
    | 's' => some (.set .white, cs)
    | 'w' => some (.set .word, cs)
    | 'D' => some (.set (.complement .digit), cs)
    | 'S' => some (.set (.complement .white), cs)
    | 'W' => some (.set (.complement .word), cs)
    | 'a' => some (.char '\x07', cs)
    | 'f' => some (.char '\x0c', cs)
    | 't' => some (.char '\t', cs)
    | 'n' => some (.char '\n', cs)
    | 'r' => some (.char '\r', cs)
    | 'v' => some (.char '\x0b', cs)
    | 'A' => some (.look .startText, cs)
    | 'z' => some (.look .endText, cs)
    | 'b' => readBoundary flags.ignoreBlanks cs
    | 'B' => some (.look .notWordBoundary, cs)
    | '<' => some (.look .wordStart, cs)
    | '>' => some (.look .wordEnd, cs)
    | c => if isEscapable c then some (.char c, cs) else none

/-- A part of a pattern, and how deeply the text it was read from is nested. -/
structure Item (α : Type) where
  value : α
  depth : Nat

def maxDepth {α : Type} (items : List (Item α)) : Nat := (items.map Item.depth).foldl max 0

/-- Members of a set between brackets, latest first. -/
abbrev Members := List (Item CharSet)

def Members.join (members : Members) : Item CharSet :=
  match members with
  | [] => ⟨.empty, 0⟩
  | [m] => m
  | _ => ⟨.ofList (members.reverse.map Item.value), maxDepth members + 1⟩

/-- Operators between sets; they group to the left. -/
inductive SetOp where
  | inter
  | minus
  | symmetricMinus
  deriving DecidableEq

def SetOp.apply (insensitive : Bool) : SetOp → Item CharSet → Item CharSet → Item CharSet
  | op, a, b =>
    let x := CharSet.foldedIf insensitive a.value
    let y := CharSet.foldedIf insensitive b.value
    let set : CharSet := match op with
      | .inter => .inter x y
      | .minus => .minus x y
      | .symmetricMinus => .symmetricMinus x y
    ⟨set, max a.depth b.depth + 1⟩

/-- An open bracket: the members before it, whether it is negated, and an operator in it that
waits for its right side. -/
structure SetFrame where
  outer : Members
  negated : Bool
  pending : Option (SetOp × Item CharSet)

/-- Takes the members read since the last operator together with what waited for them. -/
def SetFrame.close (insensitive : Bool) (frame : SetFrame) (members : Members) : Item CharSet :=
  match frame.pending with
  | none => members.join
  | some (op, left) => op.apply insensitive left members.join

/-- What may stand first in a bracket: hyphens, or else a closing bracket, stand for themselves. -/
def readSetFront (blanks : Bool) : (fuel : Nat) → Members → List Char → Option (Members × List Char)
  | 0, _, _ => none
  | fuel + 1, members, cs =>
    match cs with
    | [] => none
    | '-' :: rest => readSetFront blanks fuel (⟨.single '-', 0⟩ :: members) (skip blanks rest)
    | ']' :: rest =>
      if members.isEmpty then
        let rest := skip blanks rest
        if rest.isEmpty then none else some ([⟨.single ']', 0⟩], rest)
      else some (members, cs)
    | _ => some (members, cs)

/-- Behind an opening bracket: the negation, then what may stand first. -/
def readSetOpen (blanks : Bool) (cs : List Char) : Option (Bool × Members × List Char) :=
  let cs := skip blanks cs
  let (negated, cs) := match cs with
    | '^' :: rest => (true, skip blanks rest)
    | _ => (false, cs)
  (readSetFront blanks (cs.length + 1) [] cs).map fun (members, rest) => (negated, members, rest)

/-- A class in colons, behind its opening bracket; `none` if it is none. -/
def readNamedClass? (cs : List Char) : Option (CharSet × Bool × List Char) :=
  match cs with
  | ':' :: more =>
    let (negated, more) := match more with
      | '^' :: rest => (true, rest)
      | _ => (false, more)
    let name := more.takeWhile (· != ':')
    match more.dropWhile (· != ':') with
    | ':' :: ']' :: rest =>
      (CharSet.ofAsciiName? (String.ofList name)).map fun set => (set, negated, rest)
    | _ => none
  | _ => none

def readSetPrimitive (flags : Flags) : List Char → Option (Primitive × List Char)
  | [] => none
  | '\\' :: rest => readEscape flags rest
  | c :: rest => some (.char c, rest)

def Primitive.asSet? : Primitive → Option CharSet
  | .char c => some (.single c)
  | .set s => some s
  | .look _ => none

/-- One member of a bracket: a character, a set, or a range of characters. -/
def readSetMember (flags : Flags) (cs : List Char) : Option (CharSet × List Char) := do
  let blanks := flags.ignoreBlanks
  let (first, rest) ← readSetPrimitive flags cs
  let rest := skip blanks rest
  match rest with
  | [] => none
  | '-' :: more =>
    match skip blanks more with
    | [] => none
    | ']' :: _ | '-' :: _ => return (← first.asSet?, rest)
    | more =>
      let (last, rest) ← readSetPrimitive flags more
      match first, last with
      | .char a, .char b => if a ≤ b then some (.range a b, rest) else none
      | _, _ => none
  | _ => return (← first.asSet?, rest)

/-- Members, operators and brackets up to the bracket that closes the outermost frame. Every step
takes a character, so `fuel` at the length of the text is enough. -/
def readSetBody (flags : Flags) :
    (fuel : Nat) → SetFrame → List SetFrame → Members → List Char →
      Option (Item CharSet × List Char)
  | 0, _, _, _, _ => none
  | fuel + 1, frame, outer, members, cs =>
    let operator (op : SetOp) (rest : List Char) :=
      let left := frame.close flags.insensitive members
      readSetBody flags fuel { frame with pending := some (op, left) } outer [] rest
    match skip flags.ignoreBlanks cs with
    | [] => none
    | '[' :: rest =>
      match readNamedClass? rest with
      | some (set, negated, rest) =>
        let set := CharSet.complementIf negated (.foldedIf flags.insensitive set)
        readSetBody flags fuel frame outer (⟨set, 0⟩ :: members) rest
      | none =>
        match readSetOpen flags.ignoreBlanks rest with
        | none => none
        | some (negated, front, rest) =>
          readSetBody flags fuel ⟨members, negated, none⟩ (frame :: outer) front rest
    | ']' :: rest =>
      let inside := frame.close flags.insensitive members
      let set := CharSet.complementIf frame.negated (.foldedIf flags.insensitive inside.value)
      let item : Item CharSet := ⟨set, inside.depth + 1⟩
      match outer with
      | [] => some (item, rest)
      | parent :: outer => readSetBody flags fuel parent outer (item :: frame.outer) rest
    | '&' :: '&' :: rest => operator .inter rest
    | '-' :: '-' :: rest => operator .minus rest
    | '~' :: '~' :: rest => operator .symmetricMinus rest
    | cs =>
      match readSetMember flags cs with
      | none => none
      | some (set, rest) => readSetBody flags fuel frame outer (⟨set, 0⟩ :: members) rest

/-- A set between brackets, behind the bracket that opens it. -/
def readSet (flags : Flags) (cs : List Char) : Option (Item CharSet × List Char) :=
  match readSetOpen flags.ignoreBlanks cs with
  | none => none
  | some (negated, front, rest) =>
    readSetBody flags (rest.length + 1) ⟨[], negated, none⟩ [] front rest

/-- A part of a sequence. A change of settings is a part, too, but cannot be repeated. -/
structure Part where
  tree : Tree
  depth : Nat
  repeatable : Bool

def Part.joinAll (parts : List Part) : Item Tree :=
  match parts with
  | [] => ⟨.empty, 0⟩
  | [p] => ⟨p.tree, p.depth⟩
  | _ => ⟨.concat (parts.reverse.map Part.tree), (parts.map Part.depth).foldl max 0 + 1⟩

/-- An open group or the whole pattern: alternatives that are complete and the one being read,
both latest first. -/
structure Level where
  branches : List (Item Tree)
  parts : List Part

def Level.empty : Level := ⟨[], []⟩

def Level.close (level : Level) : Item Tree :=
  let last := Part.joinAll level.parts
  match level.branches with
  | [] => last
  | branches =>
    let all := last :: branches
    ⟨.alternate (all.reverse.map Item.value), maxDepth all + 1⟩

/-- What a closing parenthesis goes back to. -/
structure GroupFrame where
  level : Level
  index : Option Nat
  flags : Flags

structure State where
  level : Level
  outer : List GroupFrame
  flags : Flags
  groups : Nat
  names : List (List Char)

def State.push (s : State) (tree : Tree) (depth : Nat) (repeatable : Bool) : State :=
  { s with level := ⟨s.level.branches, ⟨tree, depth, repeatable⟩ :: s.level.parts⟩ }

def Primitive.toTree (flags : Flags) : Primitive → Tree
  | .char c => .set (.foldedIf flags.insensitive (.single c))
  | .set s => .set s
  | .look l => .look l

/-- The last part again, with a repetition on it. -/
def State.repeatLast? (s : State) (least : Nat) (most : Option Nat) (eager : Bool) :
    Option State :=
  match s.level.parts with
  | [] => none
  | p :: rest =>
    if p.repeatable then
      let tree := p.tree.repeated least most (eager != s.flags.lazyFirst)
      some { s with level := ⟨s.level.branches, ⟨tree, p.depth + 1, true⟩ :: rest⟩ }
    else none

/-- A question mark behind a repetition turns its preference round. -/
def readEager : List Char → Bool × List Char
  | '?' :: rest => (false, rest)
  | cs => (true, cs)

/-- A count of at most 32 bits, blanks around it allowed. -/
def readCount (blanks : Bool) (cs : List Char) : Option Nat × List Char :=
  go (cs.dropWhile isWhite) [] (cs.length + 1)
where
  /-- Digits, latest first. -/
  go (cs : List Char) (digits : List Char) : Nat → Option Nat × List Char
    | 0 => (none, cs)
    | fuel + 1 =>
      match cs with
      | c :: rest =>
        if c.isDigit then go (skip blanks rest) (c :: digits) fuel
        else finish cs digits
      | [] => finish cs digits
  finish (cs digits : List Char) : Option Nat × List Char :=
    let rest := cs.dropWhile isWhite
    let value := digits.reverse.foldl (fun n c => 10 * n + (c.toNat - '0'.toNat)) 0
    (if digits.isEmpty ∨ Nat.pow 2 32 ≤ value then none else some value, skip blanks rest)

/-- A counted repetition behind its opening brace: the least and the greatest count. -/
def readCounts (blanks : Bool) (cs : List Char) : Option (Nat × Option Nat × List Char) :=
  let (first, rest) := readCount blanks (skip blanks cs)
  match first, rest with
  | some least, ',' :: more =>
    match skip blanks more with
    | '\x7d' :: rest => some (least, none, rest)
    | more =>
      match readCount blanks more with
      | (some most, '\x7d' :: rest) => if least ≤ most then some (least, some most, rest) else none
      | _ => none
  | some least, '\x7d' :: rest => some (least, some least, rest)
  | _, _ => none

/-- A group name up to its closing angle. -/
def readName : (name : List Char) → List Char → Option (List Char × List Char)
  | _, [] => none
  | name, c :: cs =>
    if c = '>' then if name.isEmpty then none else some (name.reverse, cs)
    else if c = '_' ∨ isAlphabetic c
        ∨ (!name.isEmpty ∧ (c = '.' ∨ c = '[' ∨ c = ']' ∨ isNumeric c)) then
      readName (c :: name) cs
    else none

def Flags.set? (flags : Flags) (c : Char) (on : Bool) : Option Flags :=
  match c with
  | 'i' => some { flags with insensitive := on }
  | 'm' => some { flags with multiline := on }
  | 's' => some { flags with dotAll := on }
  | 'U' => some { flags with lazyFirst := on }
  | 'x' => some { flags with ignoreBlanks := on }
  | 'R' => some { flags with returns := on }
  | 'u' => if on then some flags else none
  | _ => none

/-- Settings up to a colon or a closing parenthesis; none may come twice, and a minus sign has to
be followed by one. The flag tells whether anything was set. -/
def readFlags (flags : Flags) (seen : List Char) :
    List Char → Option (Flags × Bool × Char × List Char)
  | [] => none
  | c :: cs =>
    if c = ':' ∨ c = ')' then
      if seen.head? = some '-' then none else some (flags, !seen.isEmpty, c, cs)
    else if seen.contains c then none
    else if c = '-' then readFlags flags (c :: seen) cs
    else
      (flags.set? c (!seen.contains '-')).bind fun flags => readFlags flags (c :: seen) cs

def State.openGroup (s : State) (index : Option Nat) (flags : Flags) : State :=
  { s with level := .empty, outer := ⟨s.level, index, s.flags⟩ :: s.outer, flags := flags }

/-- An opening parenthesis: a group, numbered or not, or a change of settings. -/
def readGroup (s : State) (cs : List Char) : Option (State × List Char) :=
  let named (more : List Char) :=
    match readName [] more with
    | some (name, rest) =>
      if s.names.contains name then none
      else
        let s := { s with groups := s.groups + 1, names := name :: s.names }
        some (s.openGroup (some s.groups) s.flags, rest)
    | none => none
  match skip s.flags.ignoreBlanks cs with
  | '?' :: 'P' :: '<' :: more => named more
  | '?' :: '<' :: more => named more
  | '?' :: more =>
    match readFlags s.flags [] more with
    | none => none
    | some (flags, changed, close, rest) =>
      if close = ':' then some (s.openGroup none flags, rest)
      else if changed then some ({ s with flags := flags }.push .empty 0 false, rest)
      else none
  | more =>
    let s := { s with groups := s.groups + 1 }
    some (s.openGroup (some s.groups) s.flags, more)

/-- A closing parenthesis: the group is a part of what surrounds it. -/
def State.closeGroup? (s : State) : Option State :=
  match s.outer with
  | [] => none
  | frame :: outer =>
    let body := s.level.close
    let tree := match frame.index with
      | some index => Tree.group index body.value
      | none => body.value
    some ({ s with level := frame.level, outer := outer, flags := frame.flags }.push tree
      (body.depth + 1) true)

/-- One step: what the next character stands for. -/
def readNext (s : State) : List Char → Option (State × List Char)
  | [] => none
  | c :: cs =>
    let flags := s.flags
    let counted (least : Nat) (most : Option Nat) (cs : List Char) :=
      let (eager, rest) := readEager cs
      (s.repeatLast? least most eager).map (·, rest)
    let leaf (tree : Tree) := some (s.push tree 0 true, cs)
    match c with
    | '(' => readGroup s cs
    | ')' => s.closeGroup?.map (·, cs)
    | '|' => some ({ s with level := ⟨Part.joinAll s.level.parts :: s.level.branches, []⟩ }, cs)
    | '[' => (readSet flags cs).map fun (item, rest) => (s.push (.set item.value) item.depth true, rest)
    | '?' => counted 0 (some 1) cs
    | '*' => counted 0 none cs
    | '+' => counted 1 none cs
    | '\x7b' =>
      match readCounts flags.ignoreBlanks cs with
      | some (least, most, rest) => counted least most (skip flags.ignoreBlanks rest)
      | none => none
    | '\\' => (readEscape flags cs).map fun (p, rest) => (s.push (p.toTree flags) 0 true, rest)
    | '.' => leaf (.set flags.point)
    | '^' => leaf (.look flags.lineStart)
    | '$' => leaf (.look flags.lineEnd)
    | c => leaf (Primitive.toTree flags (.char c))

/-- Every step takes a character, so `fuel` above the length of the text is enough. -/
def readAll : (fuel : Nat) → State → List Char → Option (Item Tree)
  | 0, _, _ => none
  | fuel + 1, s, cs =>
    match skip s.flags.ignoreBlanks cs with
    | [] => if s.outer.isEmpty then some s.level.close else none
    | cs => (readNext s cs).bind fun (s, rest) => readAll fuel s rest

/-- How deeply a pattern may be nested. -/
def nestLimit : Nat := 250

/-- How large a pattern may be once its counted repetitions are written out. -/
def sizeLimit : Nat := 300000

/-- The tree of a whole pattern, as far as it is within the limits. -/
def read? (cs : List Char) : Option Tree := do
  let item ← readAll (cs.length + 1) ⟨.empty, [], .initial, 0, []⟩ cs
  if item.depth ≤ nestLimit ∧ item.value.size ≤ sizeLimit then some item.value else none

/-- Whether nothing but its size is wrong with a pattern. -/
def isTooLarge (cs : List Char) : Bool :=
  (readAll (cs.length + 1) ⟨.empty, [], .initial, 0, []⟩ cs).any fun item =>
    item.depth ≤ nestLimit && sizeLimit < item.value.size

end DollarScript.Regex.Reader
