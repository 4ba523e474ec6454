import DollarScript.Toml.Scalar

/-! Reading a TOML document. What is not well formed gives `none`. -/
namespace DollarScript.Toml

def isBlank (c : Char) : Bool := c == ' ' || c == '\t'

def dropBlanks (cs : List Char) : List Char := cs.dropWhile isBlank

/-- A line end at the front. -/
def dropNewline? : List Char → Option (List Char)
  | '\n' :: cs => some cs
  | '\r' :: '\n' :: cs => some cs
  | _ => none

/-- The rest of a comment, up to the line end. -/
def dropComment? : List Char → Option (List Char)
  | [] => some []
  | '\r' :: '\n' :: cs => some ('\n' :: cs)
  | c :: cs => if c = '\n' then some (c :: cs) else if isControl c then none else dropComment? cs

/-- Blanks, a comment, and the end of the line or of the text. -/
def endLine? (cs : List Char) : Option (List Char) := do
  let rest ← match dropBlanks cs with
    | '#' :: comment => dropComment? comment
    | rest => some rest
  if rest.isEmpty then some [] else dropNewline? rest

/-- Blanks, line ends and comments, as they may stand between items. -/
def dropLayout? : (fuel : Nat) → List Char → Option (List Char)
  | 0, cs => some cs
  | fuel + 1, cs =>
    match dropBlanks cs with
    | '#' :: comment => (dropComment? comment).bind (dropLayout? fuel)
    | rest =>
      match dropNewline? rest with
      | some more => dropLayout? fuel more
      | none => some rest

def layout? (cs : List Char) : Option (List Char) := dropLayout? (cs.length + 1) cs

def isBareKey (c : Char) : Bool := c.isAlphanum || c == '_' || c == '-'

/-- One key, bare or between quotes. -/
def readKey? (cs : List Char) : Option (String × List Char) :=
  match cs with
  | '"' :: rest => readBasic .plain [] rest
  | '\'' :: rest => readLiteral [] rest
  | _ =>
    let key := cs.takeWhile isBareKey
    if key.isEmpty then none else some (String.ofList key, cs.dropWhile isBareKey)

/-- Keys with points between them; blanks may stand around each. -/
def readPathFrom? : (fuel : Nat) → List Char → Option (List String × List Char)
  | 0, _ => none
  | fuel + 1, cs => do
    let (key, rest) ← readKey? (dropBlanks cs)
    match dropBlanks rest with
    | '.' :: more =>
      let (path, rest) ← readPathFrom? fuel more
      return (key :: path, rest)
    | rest => return ([key], rest)

def readPath? (cs : List Char) : Option (List String × List Char) :=
  readPathFrom? (cs.length + 1) cs

/-- Items between brackets, behind the opening one; a comma may stand behind the last. -/
def readItems? (item : List Char → Option (Value × List Char)) :
    (fuel : Nat) → List Char → Option (List Value × List Char)
  | 0, _ => none
  | fuel + 1, cs => do
    match ← layout? cs with
    | ']' :: rest => return ([], rest)
    | cs =>
      let (value, rest) ← item cs
      match ← layout? rest with
      | ',' :: rest =>
        let (values, rest) ← readItems? item fuel rest
        return (value :: values, rest)
      | ']' :: rest => return ([value], rest)
      | _ => none

/-- A key, an equals sign and a value. -/
def readPair? (item : List Char → Option (Value × List Char)) (cs : List Char) :
    Option (List String × Value × List Char) := do
  let (path, rest) ← readPath? cs
  match rest with
  | '=' :: rest =>
    let (value, rest) ← item (dropBlanks rest)
    return (path, value, rest)
  | _ => none

/-- Pairs between braces, behind the opening one; a comma may stand behind the last. -/
def readPairs? (item : List Char → Option (Value × List Char)) :
    (fuel : Nat) → Entries → List Char → Option (Entries × List Char)
  | 0, _, _ => none
  | fuel + 1, entries, cs => do
    match ← layout? cs with
    | '\x7d' :: rest => return (entries, rest)
    | cs =>
      let (path, value, rest) ← readPair? item cs
      let entries ← Entries.insert path value .header entries
      match ← layout? rest with
      | ',' :: rest => readPairs? item fuel entries rest
      | '\x7d' :: rest => return (entries, rest)
      | _ => none

/-- A value with at most `depth` brackets and braces around another. -/
def readValue? : (depth : Nat) → List Char → Option (Value × List Char)
  | depth, cs =>
    match readString? cs with
    | some read => read.map fun (s, rest) => (.str s, rest)
    | none =>
      match depth, cs with
      | depth + 1, '[' :: rest =>
        (readItems? (readValue? depth) (rest.length + 1) rest).map fun (items, rest) =>
          (.array false items, rest)
      | depth + 1, '\x7b' :: rest =>
        (readPairs? (readValue? depth) (rest.length + 1) [] rest).map fun (entries, rest) =>
          (.table .inline entries, rest)
      | _, cs => readScalar? cs

/-- How many brackets and braces may be open at once. -/
def depthLimit : Nat := 80

/-- The document so far, and the path of the header that came last. -/
structure Document where
  entries : Entries
  current : List String

/-- One line: a header, a pair, or nothing. -/
def readLine? (d : Document) (cs : List Char) : Option (Document × List Char) := do
  match dropBlanks cs with
  | '[' :: '[' :: rest =>
    let (path, rest) ← readPath? rest
    let ']' :: ']' :: rest := rest | none
    let entries ← Entries.openItem path d.entries
    return (⟨entries, path⟩, ← endLine? rest)
  | '[' :: rest =>
    let (path, rest) ← readPath? rest
    let ']' :: rest := rest | none
    let entries ← Entries.openTable path d.entries
    return (⟨entries, path⟩, ← endLine? rest)
  | rest =>
    match endLine? rest with
    | some rest => return (d, rest)
    | none =>
      let (path, value, rest) ← readPair? (readValue? depthLimit) rest
      let entries ← Entries.insertAt d.current path value d.entries
      return (⟨entries, d.current⟩, ← endLine? rest)

/-- Every line takes a character, so `fuel` above the length of the text is enough. -/
def readLines? : (fuel : Nat) → Document → List Char → Option Entries
  | 0, _, _ => none
  | fuel + 1, d, cs =>
    if cs.isEmpty then some d.entries
    else (readLine? d cs).bind fun (d, rest) => readLines? fuel d rest

/-- The root table of a document; a byte order mark in front is dropped. -/
def read? (cs : List Char) : Option Entries :=
  let cs := match cs with
    | '\ufeff' :: rest => rest
    | _ => cs
  readLines? (cs.length + 1) ⟨[], []⟩ cs

end DollarScript.Toml
