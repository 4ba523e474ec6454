import DollarScript.Registry
import DollarScript.Token

/-! Cutting a source into tokens, from the front or word by word. -/
namespace DollarScript.Scanner

open Text

/-- What stands at the front of a text: its kind and how many characters it takes. -/
structure Piece where
  kind : String
  captures : List (Option String)
  index : Option Nat
  chars : List Char

def Piece.unknown (chars : List Char) : Piece := ⟨Kind.unknown, [], none, chars⟩

/-- The piece that the first matching kind cuts off; a lone character if there is no such kind. -/
def frontPiece (r : Registry) (text : List Char) : Piece :=
  match r.first? .front text with
  | some hit =>
    match splitBytes? hit.found.length text with
    | some (chars, _) => ⟨hit.entry.name, hit.found.captures, some hit.index, chars⟩
    | none => .unknown (text.take 1)
  | none => .unknown (text.take 1)

/-- The longest run without blanks, under the first kind that matches all of it. -/
def wordPiece (r : Registry) (text : List Char) : Piece :=
  let word := text.takeWhile fun c => !isWhite c
  match r.first? .whole word with
  | some hit => ⟨hit.entry.name, hit.found.captures, some hit.index, word⟩
  | none => .unknown word

def Piece.toToken (p : Piece) (position : Position) (offset : Nat) : Token :=
  ⟨p.kind, String.ofList p.chars, p.captures, p.index, position,
    ⟨offset, offset + byteLength p.chars⟩⟩

/-- Cuts a text. Blanks between tokens are passed over; at any other character `cut` says what
the token is, and `skip` counts the characters of it that are still to be passed. -/
def cutFrom (cut : List Char → Piece) : (skip : Nat) → Position → (offset : Nat) → List Char → List Token
  | _, _, _, [] => []
  | skip + 1, position, offset, c :: rest =>
    cutFrom cut skip (position.step c) (offset + c.utf8Size) rest
  | 0, position, offset, c :: rest =>
    if isWhite c then cutFrom cut 0 (position.step c) (offset + c.utf8Size) rest
    else
      let piece := cut (c :: rest)
      piece.toToken position offset
        :: cutFrom cut (piece.chars.length - 1) (position.step c) (offset + c.utf8Size) rest

/-- Tokens from the front on. -/
def tokens (r : Registry) (source : List Char) : List Token :=
  cutFrom (frontPiece r) 0 .origin 0 source

/-- Tokens from the front on, with the token behind them. -/
def scan (r : Registry) (source : List Char) : TokenStream :=
  ⟨tokens r source, .eof (Position.origin.advance source) (byteLength source)⟩

/-- One token for each word. -/
def words (r : Registry) (source : List Char) : List Token :=
  cutFrom (wordPiece r) 0 .origin 0 source

end DollarScript.Scanner
