import DollarScript.Scanner

/-! The same two ways to cut a source, by a cursor that counts bytes: it moves on from token to
token, or from the start of a word to the start of the next. `none` stands for a slice that would
end beyond the source or between the bytes of a character. -/
namespace DollarScript

/-- The characters from one byte up to another. -/
def Text.slice? (start stop : Nat) (source : List Char) : Option (List Char) :=
  if start ≤ stop then
    (splitBytes? start source).bind fun (_, rest) => (splitBytes? (stop - start) rest).map Prod.fst
  else none

/-- The token of a match, or of the unknown kind. -/
def Token.ofHit (hit? : Option Registry.Hit) (text : List Char) (position : Position)
    (span : Span) : Token :=
  match hit? with
  | some hit =>
    ⟨hit.entry.name, String.ofList text, hit.found.captures, some hit.index, position, span⟩
  | none => ⟨Kind.unknown, String.ofList text, [], none, position, span⟩

namespace Scanner

open Text

/-- A scan under way: the bytes behind it, the place it has come to, and its tokens so far. -/
structure Cursor where
  offset : Nat
  position : Position
  tokens : List Token

namespace Cursor

def start : Cursor := ⟨0, .origin, []⟩

/-- Moves over some bytes. -/
def consume? (source : List Char) (length : Nat) (c : Cursor) : Option Cursor :=
  (slice? c.offset (c.offset + length) source).map fun passed =>
    ⟨c.offset + length, c.position.advance passed, c.tokens⟩

/-- Puts down the token that takes some bytes, and moves over them. -/
def emit? (source : List Char) (hit? : Option Registry.Hit) (length : Nat) (c : Cursor) :
    Option Cursor :=
  (slice? c.offset (c.offset + length) source).bind fun text =>
    let token := Token.ofHit hit? text c.position ⟨c.offset, c.offset + length⟩
    consume? source length { c with tokens := c.tokens ++ [token] }

variable (r : Registry) (source : List Char)

/-- Takes a run of blanks, or what the first kind matches, or else one character. -/
def step? (c : Cursor) : Option Cursor :=
  (slice? c.offset (byteLength source) source).bind fun rest =>
    let blanks := byteLength rest - byteLength (rest.dropWhile isWhite)
    if 0 < blanks then c.consume? source blanks
    else
      match r.first? .front rest with
      | some hit => c.emit? source (some hit) hit.found.length
      | none => c.emit? source none ((rest.head?.map Char.utf8Size).getD 1)

/-- Steps while there are bytes left. Every step takes a character, so `fuel` at the length of the
source is enough. -/
def run? : (fuel : Nat) → Cursor → Option Cursor
  | 0, c => if c.offset < byteLength source then none else some c
  | fuel + 1, c =>
    if c.offset < byteLength source then (c.step? r source).bind (run? fuel) else some c

/-- The tokens of a whole source; the token behind them is where the cursor has come to. -/
def scan? : Option TokenStream :=
  (run? r source source.length start).map fun c => ⟨c.tokens, .eof c.position c.offset⟩

end Cursor

/-- The words found so far with their offsets, and where the word under way starts. -/
structure WordMarks where
  words : List (Nat × List Char)
  start : Option Nat

namespace WordMarks

variable (source : List Char)

/-- A blank ends the word that is under way; any other character starts one if none is. -/
def mark? (offset : Nat) (c : Char) (m : WordMarks) : Option WordMarks :=
  match m.start with
  | some start =>
    if isWhite c then
      (slice? start offset source).map fun word => ⟨m.words ++ [(start, word)], none⟩
    else some m
  | none => if isWhite c then some m else some { m with start := some offset }

def markAll? : (offset : Nat) → List Char → WordMarks → Option WordMarks
  | _, [], m => some m
  | offset, c :: rest, m =>
    (m.mark? source offset c).bind (markAll? (offset + c.utf8Size) rest)

/-- The last word may reach to the end of the source. -/
def finish? (m : WordMarks) : Option (List (Nat × List Char)) :=
  match m.start with
  | some start =>
    (slice? start (byteLength source) source).map fun word => m.words ++ [(start, word)]
  | none => some m.words

/-- The words of a source with their offsets. -/
def split? : Option (List (Nat × List Char)) :=
  (markAll? source 0 source ⟨[], none⟩).bind (finish? source)

end WordMarks

/-- The tokens of some words: where the last of them starts, at which place, and the tokens. -/
structure WordCursor where
  last : Nat
  position : Position
  tokens : List Token

namespace WordCursor

variable (r : Registry) (source : List Char)

/-- Moves from the start of the last word to the start of the next, and puts down its token. -/
def step? (w : WordCursor) (found : Nat × List Char) : Option WordCursor :=
  let (start, word) := found
  (slice? w.last start source).map fun passed =>
    let position := w.position.advance passed
    let token := Token.ofHit (r.first? .whole word) word position ⟨start, start + byteLength word⟩
    ⟨start, position, w.tokens ++ [token]⟩

/-- One token for each word of a source. -/
def words? : Option (List Token) :=
  (WordMarks.split? source).bind fun found =>
    (found.foldlM (step? r source) ⟨0, .origin, []⟩).map tokens

end WordCursor

end Scanner

end DollarScript
