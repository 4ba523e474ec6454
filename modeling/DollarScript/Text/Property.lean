import DollarScript.Text.CategoryTable

/-! Classes of characters: blank, decimal digit, word, printable, combining. -/
namespace DollarScript.Text

/-- Membership in ascending ranges; the search stops at the first range above `n`. -/
def inRanges (n : Nat) : List (Nat × Nat) → Bool
  | [] => false
  | (first, last) :: rest => if n < first then false else n ≤ last || inRanges n rest

namespace Category

/-- The category of the last run that starts at or before `n`. -/
def lastRun (n : Nat) (found : Category) : List (Nat × Category) → Category
  | [] => found
  | (first, c) :: rest => if first ≤ n then lastRun n c rest else found

/-- The last page whose first run starts at or before `n`. -/
def lastPage (n : Nat) (found : List (Nat × Category)) :
    List (List (Nat × Category)) → List (Nat × Category)
  | [] => found
  | page :: rest =>
    match page with
    | (first, _) :: _ => if first ≤ n then lastPage n page rest else found
    | [] => found

end Category

def category (c : Char) : Category :=
  Category.lastRun c.toNat .cn (Category.lastPage c.toNat [] Category.pages)

def whiteRanges : List (Nat × Nat) := [
  (0x9, 0xD), (0x20, 0x20), (0x85, 0x85), (0xA0, 0xA0), (0x1680, 0x1680), (0x2000, 0x200A),
  (0x2028, 0x2029), (0x202F, 0x202F), (0x205F, 0x205F), (0x3000, 0x3000)]

/-- The White_Space property. -/
def isWhite (c : Char) : Bool := inRanges c.toNat whiteRanges

def isDecimalDigit (c : Char) : Bool := category c == .nd

/-- Joiners and circled letters, which count as part of a word whatever their category. -/
def wordExtras : List (Nat × Nat) := [
  (0x200C, 0x200D), (0x24B6, 0x24E9), (0x1F130, 0x1F149), (0x1F150, 0x1F169), (0x1F170, 0x1F189)]

/-- Letters, marks, decimal digits, letter numbers, connectors and the extras. -/
def isWord (c : Char) : Bool :=
  match category c with
  | .lu | .ll | .lt | .lm | .lo | .mn | .mc | .me | .nd | .nl | .pc => true
  | _ => inRanges c.toNat wordExtras

/-- Characters outside the mark categories that still extend the one before them. -/
def extenderExtras : List (Nat × Nat) := [
  (0x9BE, 0x9BE), (0x9D7, 0x9D7), (0xB3E, 0xB3E), (0xB57, 0xB57), (0xBBE, 0xBBE), (0xBD7, 0xBD7),
  (0xCC0, 0xCC0), (0xCC2, 0xCC2), (0xCC7, 0xCC8), (0xCCA, 0xCCB), (0xCD5, 0xCD6), (0xD3E, 0xD3E),
  (0xD57, 0xD57), (0xDCF, 0xDCF), (0xDDF, 0xDDF), (0x1715, 0x1715), (0x1734, 0x1734),
  (0x1B35, 0x1B35), (0x1B3B, 0x1B3B), (0x1B3D, 0x1B3D), (0x1B43, 0x1B44), (0x1BAA, 0x1BAA),
  (0x1BF2, 0x1BF3), (0x200C, 0x200C), (0x302E, 0x302F), (0xA953, 0xA953), (0xA9C0, 0xA9C0),
  (0xFF9E, 0xFF9F), (0x111C0, 0x111C0), (0x11235, 0x11235), (0x1133E, 0x1133E),
  (0x1134D, 0x1134D), (0x11357, 0x11357), (0x113B8, 0x113B8), (0x113C2, 0x113C2),
  (0x113C5, 0x113C5), (0x113C7, 0x113C9), (0x113CF, 0x113CF), (0x114B0, 0x114B0),
  (0x114BD, 0x114BD), (0x115AF, 0x115AF), (0x116B6, 0x116B6), (0x11930, 0x11930),
  (0x1193D, 0x1193D), (0x11F41, 0x11F41), (0x16FF0, 0x16FF1), (0x1D165, 0x1D166),
  (0x1D16D, 0x1D172), (0xE0020, 0xE007F)]

/-- The Grapheme_Extend property. -/
def isExtender (c : Char) : Bool :=
  match category c with
  | .mn | .me => true
  | _ => inRanges c.toNat extenderExtras

/-- Characters with a shape of their own; of the separators only the plain space. -/
def isPrintable (c : Char) : Bool :=
  match category c with
  | .zs | .zl | .zp => c == ' '
  | .cc | .cf | .cs | .co | .cn => false
  | _ => true

end DollarScript.Text
