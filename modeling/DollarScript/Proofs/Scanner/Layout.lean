import DollarScript.Proofs.Parser.Displacement
import DollarScript.Proofs.Scanner.Separation

/-! Blanks keep tokens apart and mean nothing else: recognised tokens may be laid out anew. -/
namespace DollarScript

/-- The text of a token, character by character. -/
def Token.chars (t : Token) : List Char := t.text.toList

namespace Text

/-- Nothing but blanks. -/
def Blank (gap : List Char) : Prop := ∀ c ∈ gap, isWhite c = true

instance (gap : List Char) : Decidable (Blank gap) := List.decidableBAll _ gap

/-- Texts in order, each with its gap behind it, and `front` before them all. -/
def laidOut (front : List Char) (texts gaps : List (List Char)) : List Char :=
  front ++ (List.zipWith (· ++ ·) texts gaps).flatten

theorem laidOut_front (front : List Char) (texts gaps : List (List Char)) :
    laidOut front texts gaps = front ++ laidOut [] texts gaps := rfl

theorem laidOut_cons (text gap : List Char) (texts gaps : List (List Char)) :
    laidOut [] (text :: texts) (gap :: gaps) = text ++ (gap ++ laidOut [] texts gaps) := by
  simp [laidOut]

theorem Blank.head {c : Char} {gap : List Char} (h : Blank (c :: gap)) : isWhite c = true :=
  h c List.mem_cons_self

theorem Blank.tail {c : Char} {gap : List Char} (h : Blank (c :: gap)) : Blank gap :=
  fun d hd => h d (List.mem_cons_of_mem _ hd)

end Text

namespace Scanner

open Text

variable {gap text : List Char} {gaps : List (List Char)}

theorem cutFrom_gap (cut : List Char → Piece) (h : Blank gap) (position : Position) (offset : Nat)
    (text : List Char) :
    cutFrom cut 0 position offset (gap ++ text) =
      cutFrom cut 0 (position.advance gap) (offset + byteLength gap) text := by
  induction gap generalizing position offset with
  | nil => rfl
  | cons c gap ih =>
    rw [List.cons_append, cutFrom_blank _ _ _ h.head, ih h.tail, byteLength_cons, Nat.add_assoc]
    rfl

/-- A gap that separates two texts starts with a blank, and behind the last text nothing is needed. -/
theorem apart_gap {rest : List Char} (hgap : Blank gap) (hapart : gap = [] → rest = []) :
    Apart (gap ++ rest) := by
  cases gap with
  | nil =>
    rw [hapart rfl]
    exact apart_nil
  | cons c gap => exact apart_cons.mpr hgap.head

/-- The next token of known kind is cut off as it was, and cutting goes on behind it. -/
theorem cutFrom_again {c : Char} {rest after behind : List Char} (hc : isWhite c = false)
    (hchars : (frontPiece .builtin (c :: (rest ++ after))).chars = c :: rest)
    (hknown : (frontPiece .builtin (c :: (rest ++ after))).kind ≠ Kind.unknown)
    (hbehind : Apart behind) (position : Position) (offset : Nat) :
    cutFrom (frontPiece .builtin) 0 position offset (c :: (rest ++ behind)) =
      (frontPiece .builtin (c :: (rest ++ after))).toToken position offset ::
        cutFrom (frontPiece .builtin) 0 (position.advance (c :: rest))
          (offset + byteLength (c :: rest)) behind := by
  have hagain := frontPiece_again hchars hknown hbehind
  rw [← hagain] at hchars ⊢
  exact cutFrom_token position offset hc hchars rfl

theorem displaced_toToken (p : Piece) (position position' : Position) (offset offset' : Nat) :
    (p.toToken position offset).displaced = (p.toToken position' offset').displaced := rfl

/-- Cutting texts of known kinds with blanks between them gives them back. -/
theorem cutFrom_laidOut (position position' : Position) (offset offset' : Nat)
    (hknown : ∀ t ∈ cutFrom (frontPiece .builtin) 0 position offset text, t.kind ≠ Kind.unknown)
    (hlength : gaps.length = (cutFrom (frontPiece .builtin) 0 position offset text).length)
    (hblank : ∀ gap ∈ gaps, Blank gap) (hapart : ∀ gap ∈ gaps.dropLast, gap ≠ []) :
    (cutFrom (frontPiece .builtin) 0 position' offset' (laidOut []
        ((cutFrom (frontPiece .builtin) 0 position offset text).map Token.chars) gaps)).map
          Token.displaced =
      (cutFrom (frontPiece .builtin) 0 position offset text).map Token.displaced := by
  induction text using (splits_frontPiece .builtin).induction
    generalizing position position' offset offset' gaps with
  | nil => rfl
  | blank c text hc ih =>
    rw [cutFrom_blank _ _ _ hc] at hknown hlength ⊢
    exact ih _ _ _ _ hknown hlength hblank hapart
  | piece c rest after hc hchars ih =>
    rw [cutFrom_token position offset hc hchars rfl] at hknown hlength ⊢
    cases gaps with
    | nil => cases hlength
    | cons gap gaps =>
      have hgap : Blank gap := hblank gap List.mem_cons_self
      have hlater : ∀ g ∈ gaps.dropLast, g ≠ [] := by
        intro g hg
        apply hapart
        cases gaps with
        | nil => cases hg
        | cons next gaps => exact List.mem_cons_of_mem _ hg
      have hothers := ih (position.advance (c :: rest)) ((position'.advance (c :: rest)).advance gap)
        (offset + byteLength (c :: rest)) (offset' + byteLength (c :: rest) + byteLength gap)
        (fun t ht => hknown t (List.mem_cons_of_mem _ ht)) (Nat.succ.inj hlength)
        (fun g hg => hblank g (List.mem_cons_of_mem _ hg)) hlater
      have hkind := hknown _ List.mem_cons_self
      rw [kind_toToken] at hkind
      generalize cutFrom (frontPiece .builtin) 0 (position.advance (c :: rest))
        (offset + byteLength (c :: rest)) after = ts at hothers hlength ⊢
      -- only the gap behind the last token may be empty
      have hlast : gap = [] → laidOut [] (ts.map Token.chars) gaps = [] := by
        intro hnil
        cases gaps with
        | nil => simp [laidOut]
        | cons next gaps => exact absurd hnil (hapart gap (by simp))
      have hfirst : ((frontPiece .builtin (c :: (rest ++ after))).toToken position offset).chars =
          c :: rest := by
        simp [Token.chars, Piece.toToken, hchars]
      rw [List.map_cons, hfirst, laidOut_cons, List.cons_append,
        cutFrom_again hc hchars hkind (apart_gap hgap hlast), cutFrom_gap _ hgap, List.map_cons,
        List.map_cons, hothers, displaced_toToken _ position' position offset' offset]

/-- Blanks in front move tokens, and so do blanks between them, but nothing else changes. -/
theorem scan_laidOut {source front : List Char}
    (hknown : ∀ t ∈ tokens .builtin source, t.isUnknown = false)
    (hlength : gaps.length = (tokens .builtin source).length)
    (hfront : Blank front) (hblank : ∀ gap ∈ gaps, Blank gap)
    (hapart : ∀ gap ∈ gaps.dropLast, gap ≠ []) :
    (scan .builtin (laidOut front ((tokens .builtin source).map Token.chars) gaps)).displaced =
      (scan .builtin source).displaced := by
  have hkinds : ∀ t ∈ tokens .builtin source, t.kind ≠ Kind.unknown := by
    intro t ht
    simpa [Token.isUnknown, Token.is] using hknown t ht
  have htokens : (tokens .builtin (laidOut front ((tokens .builtin source).map Token.chars)
      gaps)).map Token.displaced = (tokens .builtin source).map Token.displaced := by
    rw [laidOut_front, tokens, cutFrom_gap _ hfront]
    exact cutFrom_laidOut _ _ _ _ hkinds hlength hblank hapart
  simp only [TokenStream.displaced, scan, htokens]
  rfl

end Scanner

open Text Scanner

/-- Layout does not matter. If every token of a source is of a known kind, then its tokens may be
written down again with any blanks between them, and any or none around them: the scan finds the same
tokens at other places, and every parse gives the same program and the same causes. -/
theorem layout_irrelevant (source front : List Char) (gaps : List (List Char))
    (hknown : ∀ t ∈ tokens .builtin source, t.isUnknown = false)
    (hlength : gaps.length = (tokens .builtin source).length)
    (hfront : Blank front) (hblank : ∀ gap ∈ gaps, Blank gap)
    (hapart : ∀ gap ∈ gaps.dropLast, gap ≠ []) :
    let source' := laidOut front ((tokens .builtin source).map Token.chars) gaps
    (tokens .builtin source').map Token.displaced =
        (tokens .builtin source).map Token.displaced ∧
      ∀ options, (parse .builtin options source').program = (parse .builtin options source).program ∧
        (parse .builtin options source').causes = (parse .builtin options source).causes := by
  intro source'
  have hscan : (scan .builtin source').displaced = (scan .builtin source).displaced :=
    scan_laidOut hknown hlength hfront hblank hapart
  exact ⟨congrArg TokenStream.tokens hscan, parseTokens_of_displaced hscan⟩

/-- Tokens that touch each other, and the same with a gap behind each of them. -/
theorem layout_of_tight_assignment :
    (tokens .builtin "$x=$y===3.5".toList).length = 5 ∧
    ∀ options,
      (parse .builtin options "\t$x = $y\n=== 3.5".toList).program =
        (parse .builtin options "$x=$y===3.5".toList).program := by
  obtain ⟨hknown, hlength, htexts⟩ :
      (∀ t ∈ tokens .builtin "$x=$y===3.5".toList, t.isUnknown = false) ∧
      (tokens .builtin "$x=$y===3.5".toList).length = 5 ∧
      (tokens .builtin "$x=$y===3.5".toList).map Token.chars =
        ["$x".toList, "=".toList, "$y".toList, "===".toList, "3.5".toList] := by
    rw [Registry.builtin_eq]
    decide +kernel
  obtain ⟨-, hparse⟩ := layout_irrelevant "$x=$y===3.5".toList ['\t']
    [[' '], [' '], ['\n'], [' '], []] hknown hlength.symm (by decide) (by decide) (by decide)
  rw [htexts] at hparse
  exact ⟨hlength, fun options => (hparse options).1⟩

end DollarScript
