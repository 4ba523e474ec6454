/-! TOML strings: the four written forms, which of them to write, and reading them. -/
namespace DollarScript.Toml

/-- Controls other than the tab; they can only be written as escapes. -/
def isControl (c : Char) : Bool := (c.toNat < 32 && c != '\t') || c.toNat == 127

def upperHex (n : Nat) : Char :=
  if n < 10 then Char.ofNat ('0'.toNat + n) else Char.ofNat ('A'.toNat + (n - 10))

/-- Escapes that both forms between double quotes share. -/
def escaped (c : Char) : List Char :=
  match c with
  | '\x08' => ['\\', 'b']
  | '\t' => ['\\', 't']
  | '\x0c' => ['\\', 'f']
  | '\r' => ['\\', 'r']
  | '\\' => ['\\', '\\']
  | c =>
    if isControl c then
      ['\\', 'u', '0', '0', upperHex (c.toNat / 16), upperHex (c.toNat % 16)]
    else [c]

/-- On one line, quotes and line ends are escaped, too. -/
def escapedInLine (c : Char) : List Char :=
  match c with
  | '\n' => ['\\', 'n']
  | '"' => ['\\', '"']
  | c => escaped c

/-- Over several lines, only the third of three quotes in a row is escaped; `run` counts those
before it. -/
def escapedLines : (run : Nat) → List Char → List Char
  | _, [] => []
  | run, c :: cs =>
    if c = '"' then
      if run = 2 then '\\' :: '"' :: escapedLines 0 cs else '"' :: escapedLines (run + 1) cs
    else if c = '\n' then '\n' :: escapedLines 0 cs
    else escaped c ++ escapedLines 0 cs

/-- Whether a character stands three times in a row; `run` counts those just before. -/
def hasTriple (quote : Char) : (run : Nat) → List Char → Bool
  | _, [] => false
  | run, c :: cs =>
    if c = quote then run = 2 || hasTriple quote (run + 1) cs else hasTriple quote 0 cs

/-- A text over several lines starts on a line of its own. -/
def opening (cs : List Char) : List Char := if cs.contains '\n' then ['\n'] else []

def inLineBasic (cs : List Char) : List Char := '"' :: cs.flatMap escapedInLine ++ ['"']

def inLineLiteral (cs : List Char) : List Char := '\'' :: cs ++ ['\'']

def linesBasic (cs : List Char) : List Char :=
  ['"', '"', '"'] ++ opening cs ++ escapedLines 0 cs ++ ['"', '"', '"']

def linesLiteral (cs : List Char) : List Char :=
  ['\'', '\'', '\''] ++ opening cs ++ cs ++ ['\'', '\'', '\'']

/-- The first form that needs no escape other than for tabs; if none does, the form with escapes
that keeps lines apart. -/
def written (cs : List Char) : List Char :=
  let controls := cs.any fun c => isControl c && c != '\n'
  let lines := cs.contains '\n'
  if !controls && !lines && !cs.contains '\\' && !cs.contains '"' then inLineBasic cs
  else if !controls && !lines && !cs.contains '\'' then inLineLiteral cs
  else if !controls && !cs.contains '\\' && !hasTriple '"' 0 cs then linesBasic cs
  else if !controls && !hasTriple '\'' 0 cs then linesLiteral cs
  else if lines then linesBasic cs
  else inLineBasic cs

def hexDigit? (c : Char) : Option Nat :=
  if '0' ≤ c ∧ c ≤ '9' then some (c.toNat - '0'.toNat)
  else if 'a' ≤ c ∧ c ≤ 'f' then some (c.toNat - 'a'.toNat + 10)
  else if 'A' ≤ c ∧ c ≤ 'F' then some (c.toNat - 'A'.toNat + 10)
  else none

/-- Where a reader stands between two characters of a string with escapes. -/
inductive Mode where
  | plain
  /-- Behind a backslash. -/
  | escape
  /-- In a code point of which `left` digits are still to come. -/
  | code (left value : Nat)
  /-- Behind a backslash and blanks, where the line has to end. -/
  | lineBreak
  /-- Behind a broken line, where blanks and line ends are passed over. -/
  | broken
  deriving DecidableEq

/-- What an escape of one letter stands for. -/
def shortEscape? (c : Char) : Option Char :=
  match c with
  | 'b' => some '\x08'
  | 't' => some '\t'
  | 'n' => some '\n'
  | 'f' => some '\x0c'
  | 'r' => some '\r'
  | 'e' => some '\x1b'
  | '"' => some '"'
  | '\\' => some '\\'
  | _ => none

/-- How many digits a code point has behind its letter. -/
def codeLength? (c : Char) : Option Nat :=
  match c with
  | 'x' => some 2
  | 'u' => some 4
  | 'U' => some 8
  | _ => none

/-- One character inside an escape: the next mode, and the character that is complete. -/
def stepEscape (mode : Mode) (c : Char) : Option (Mode × Option Char) :=
  match mode with
  | .code 0 _ => none
  | .code (left + 1) value =>
    (hexDigit? c).bind fun d =>
      let value := 16 * value + d
      if left = 0 then
        if value.isValidChar then some (.plain, some (Char.ofNat value)) else none
      else some (.code left value, none)
  | _ =>
    match shortEscape? c, codeLength? c with
    | some e, _ => some (.plain, some e)
    | none, some left => some (.code left 0, none)
    | none, none => none

/-- A string on one line, behind its opening quote. -/
def readBasic (mode : Mode) (done : List Char) : List Char → Option (String × List Char)
  | [] => none
  | c :: cs =>
    match mode with
    | .plain =>
      if c = '"' then some (String.ofList done.reverse, cs)
      else if c = '\\' then readBasic .escape done cs
      else if isControl c then none
      else readBasic .plain (c :: done) cs
    | mode =>
      match stepEscape mode c with
      | none => none
      | some (mode, none) => readBasic mode done cs
      | some (mode, some e) => readBasic mode (e :: done) cs

/-- A string without escapes, behind its opening quote. -/
def readLiteral (done : List Char) : List Char → Option (String × List Char)
  | [] => none
  | c :: cs =>
    if c = '\'' then some (String.ofList done.reverse, cs)
    else if isControl c then none
    else readLiteral (c :: done) cs

/-- Three quotes close; up to two more in front of them belong to the text. -/
def closeLines? (quote : Char) (done : List Char) (cs : List Char) : Option (String × List Char) :=
  match cs with
  | a :: b :: c :: rest =>
    if a = quote ∧ b = quote ∧ c = quote then
      match rest with
      | d :: e :: more =>
        if d = quote ∧ e = quote then some (String.ofList (quote :: quote :: done).reverse, more)
        else if d = quote then some (String.ofList (quote :: done).reverse, e :: more)
        else some (String.ofList done.reverse, rest)
      | [d] =>
        if d = quote then some (String.ofList (quote :: done).reverse, [])
        else some (String.ofList done.reverse, rest)
      | [] => some (String.ofList done.reverse, [])
    else none
  | _ => none

/-- A string over several lines, behind its opening quotes. A backslash at the end of a line joins
it to the next text. A carriage return stands only before a line feed, and is kept. -/
def readBasicLines (mode : Mode) (done : List Char) : List Char → Option (String × List Char)
  | [] => none
  | '\r' :: '\n' :: cs =>
    match mode with
    | .plain => readBasicLines .plain ('\n' :: '\r' :: done) cs
    | .escape | .lineBreak | .broken => readBasicLines .broken done cs
    | .code _ _ => none
  | c :: cs =>
    match mode with
    | .plain | .broken =>
      if mode = .broken ∧ (c = ' ' ∨ c = '\t' ∨ c = '\n') then readBasicLines .broken done cs
      else
        match closeLines? '"' done (c :: cs) with
        | some closed => some closed
        | none =>
          if c = '\\' then readBasicLines .escape done cs
          else if isControl c ∧ c ≠ '\n' then none
          else readBasicLines .plain (c :: done) cs
    | .lineBreak =>
      if c = '\n' then readBasicLines .broken done cs
      else if c = ' ' ∨ c = '\t' then readBasicLines .lineBreak done cs
      else none
    | mode =>
      if mode = .escape ∧ c = '\n' then readBasicLines .broken done cs
      else if mode = .escape ∧ (c = ' ' ∨ c = '\t') then readBasicLines .lineBreak done cs
      else
        match stepEscape mode c with
        | none => none
        | some (mode, none) => readBasicLines mode done cs
        | some (mode, some e) => readBasicLines mode (e :: done) cs

/-- A string over several lines without escapes, behind its opening quotes. -/
def readLiteralLines (done : List Char) : List Char → Option (String × List Char)
  | [] => none
  | '\r' :: '\n' :: cs => readLiteralLines ('\n' :: '\r' :: done) cs
  | c :: cs =>
    match closeLines? '\'' done (c :: cs) with
    | some closed => some closed
    | none => if isControl c ∧ c ≠ '\n' then none else readLiteralLines (c :: done) cs

/-- A line end right behind the opening quotes does not count. -/
def dropOpening : List Char → List Char
  | '\n' :: cs => cs
  | '\r' :: '\n' :: cs => cs
  | cs => cs

/-- A string in any of its forms; `none` if the text starts with no quote. -/
def readString? (cs : List Char) : Option (Option (String × List Char)) :=
  match cs with
  | '"' :: '"' :: '"' :: rest => some (readBasicLines .plain [] (dropOpening rest))
  | '"' :: rest => some (readBasic .plain [] rest)
  | '\'' :: '\'' :: '\'' :: rest => some (readLiteralLines [] (dropOpening rest))
  | '\'' :: rest => some (readLiteral [] rest)
  | _ => none

end DollarScript.Toml
