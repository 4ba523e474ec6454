import DollarScript.Proofs.Scanner.Positions
import DollarScript.Proofs.Scanner.Separation
import DollarScript.Proofs.Scanner.Unmatched

/-! A scan may start at any token of a source: it finds this token and all behind it again, at places
that are counted from there. -/
namespace DollarScript

open Text

/-- The place `q'` is `q` as counted from the place `p`: lines begin at that of `p`, and in this line
columns begin at that of `p`. -/
structure Position.CountedFrom (p q q' : Position) : Prop where
  notBefore : p.line ≤ q.line
  line : q'.line + (p.line - 1) = q.line
  sameLine : q.line = p.line → q'.column + (p.column - 1) = q.column
  laterLine : q.line ≠ p.line → q'.column = q.column

/-- The token `t'` is `t` as it is found by a scan of the text that starts at `first`. -/
structure Token.FoundFrom (first t t' : Token) : Prop where
  kind : t'.kind = t.kind
  text : t'.text = t.text
  captures : t'.captures = t.captures
  index : t'.index = t.index
  start : t'.span.start + first.span.start = t.span.start
  stop : t'.span.stop + first.span.start = t.span.stop
  position : first.position.CountedFrom t.position t'.position

namespace Position

variable {p q q' : Position}

/-- Lines and columns are counted from 1. -/
def Proper (p : Position) : Prop := 1 ≤ p.line ∧ 1 ≤ p.column

theorem advance_append (p : Position) (cs ds : List Char) :
    p.advance (cs ++ ds) = (p.advance cs).advance ds :=
  List.foldl_append

theorem proper_behind (cs : List Char) : (behind cs).Proper := by
  simp [Proper, behind]

theorem countedFrom_origin (hp : p.Proper) : p.CountedFrom p origin := by
  obtain ⟨hline, hcolumn⟩ := hp
  refine ⟨Nat.le_refl _, ?_, fun _ => ?_, fun h => absurd rfl h⟩ <;> simp only [origin] <;> omega

theorem CountedFrom.step (h : p.CountedFrom q q') (c : Char) :
    p.CountedFrom (q.step c) (q'.step c) := by
  obtain ⟨hbefore, hline, hsame, hlater⟩ := h
  by_cases hc : c = '\n'
  · -- behind a line end no place is in the line of `p` any more
    simp only [Position.step, hc, if_true]
    exact ⟨by simp only; omega, by simp only; omega, fun h => by simp only at h; omega, fun _ => rfl⟩
  · simp only [Position.step, hc, if_false]
    refine ⟨hbefore, hline, fun h => ?_, fun h => ?_⟩
    · have := hsame h
      simp only
      omega
    · exact congrArg (· + 1) (hlater h)

theorem CountedFrom.advance (h : p.CountedFrom q q') (cs : List Char) :
    p.CountedFrom (q.advance cs) (q'.advance cs) := by
  induction cs generalizing q q' with
  | nil => exact h
  | cons c cs ih => exact ih (h.step c)

end Position

namespace Scanner

variable {cut : List Char → Piece} {first : Token} {position position' : Position}
  {offset offset' : Nat} {text : List Char} {j : Nat}

theorem foundFrom_toToken (piece : Piece)
    (hposition : first.position.CountedFrom position position')
    (hoffset : offset' + first.span.start = offset) :
    first.FoundFrom (piece.toToken position offset) (piece.toToken position' offset') := by
  refine ⟨rfl, rfl, rfl, rfl, hoffset, ?_, hposition⟩
  simp only [Piece.toToken]
  omega

/-- What a cut finds depends on the characters alone; only the places are carried along. -/
theorem cutFrom_foundFrom (cut : List Char → Piece) (skip : Nat) (text : List Char)
    (hposition : first.position.CountedFrom position position')
    (hoffset : offset' + first.span.start = offset) :
    List.Forall₂ first.FoundFrom (cutFrom cut skip position offset text)
      (cutFrom cut skip position' offset' text) := by
  induction text generalizing skip position position' offset offset' with
  | nil => exact .nil
  | cons c text ih =>
    have hlater : ∀ skip, List.Forall₂ first.FoundFrom
        (cutFrom cut skip (position.step c) (offset + c.utf8Size) text)
        (cutFrom cut skip (position'.step c) (offset' + c.utf8Size) text) := by
      intro skip
      exact ih skip (hposition.step c) (by omega)
    cases skip with
    | succ skip => exact hlater skip
    | zero =>
      simp only [cutFrom]
      split
      · exact hlater 0
      · exact .cons (foundFrom_toToken _ hposition hoffset) (hlater _)

/-- From a token on, the tokens are those of a cut that starts there. -/
theorem cutFrom_drop (hcut : Splits cut)
    (h : (cutFrom cut 0 position offset text)[j]? = some first) :
    ∃ before rest, text = before ++ rest ∧ first.span.start = offset + byteLength before ∧
      first.position = position.advance before ∧
      (cutFrom cut 0 position offset text).drop j =
        cutFrom cut 0 first.position first.span.start rest := by
  induction text using hcut.induction generalizing position offset j with
  | nil => cases h
  | blank c text hc ih =>
    rw [cutFrom_blank _ _ _ hc] at h ⊢
    obtain ⟨before, rest, rfl, hstart, hposition, hdrop⟩ := ih h
    refine ⟨c :: before, rest, rfl, ?_, hposition, hdrop⟩
    rw [hstart, byteLength_cons, Nat.add_assoc]
  | piece c body after hc hchars ih =>
    have htoken := cutFrom_token position offset hc hchars rfl
    cases j with
    | zero =>
      rw [htoken, List.getElem?_cons_zero, Option.some.injEq] at h
      subst h
      exact ⟨[], c :: (body ++ after), rfl, rfl, rfl, rfl⟩
    | succ j =>
      rw [htoken] at h ⊢
      obtain ⟨before, rest, rfl, hstart, hposition, hdrop⟩ := ih h
      refine ⟨c :: (body ++ before), rest, by simp, ?_, ?_, hdrop⟩
      · rw [hstart, ← List.cons_append, byteLength_append, Nat.add_assoc]
      · rw [hposition, ← List.cons_append, Position.advance_append]

end Scanner

open DollarScript.Scanner

/-- Cutting a source off in front of one of its tokens loses nothing behind it: a scan of what is
left finds that token and all others behind it, and the token behind the last, with the same kinds,
texts, captures and indices. Bytes, lines and columns are counted from the place of the token. -/
theorem scan_restarts (r : Registry) (source : List Char) (j : Nat) (first : Token)
    (hfirst : (scan r source).tokens[j]? = some first) :
    ∃ before rest, splitBytes? first.span.start source = some (before, rest) ∧
      List.Forall₂ first.FoundFrom ((scan r source).tokens.drop j) (scan r rest).tokens ∧
      first.FoundFrom (scan r source).eof (scan r rest).eof := by
  obtain ⟨before, rest, hsource, hstart, hposition, hdrop⟩ :=
    cutFrom_drop (splits_frontPiece r) hfirst
  rw [Nat.zero_add] at hstart
  have hcounted : first.position.CountedFrom first.position .origin := by
    refine Position.countedFrom_origin ?_
    rw [hposition, Position.origin_advance]
    exact Position.proper_behind before
  refine ⟨before, rest, splitBytes?_eq_some.mpr ⟨hsource, hstart.symm⟩, ?_, ?_⟩
  · show List.Forall₂ _ ((cutFrom (frontPiece r) 0 .origin 0 source).drop j) _
    rw [hdrop]
    exact cutFrom_foundFrom _ 0 rest hcounted (Nat.zero_add _)
  · have hend : byteLength rest + first.span.start = byteLength source := by
      rw [hsource, byteLength_append, hstart, Nat.add_comm]
    refine ⟨rfl, rfl, rfl, rfl, hend, hend, ?_⟩
    show first.position.CountedFrom (Position.origin.advance source) (Position.origin.advance rest)
    rw [hsource, Position.advance_append, ← hposition]
    exact hcounted.advance rest

/-- A scan from the second sign on: it stands behind a character of two bytes in the second line. -/
theorem scan_restarts_in_second_line :
    let r := oneKindRegistry "sign" "+"
    let first : Token := ⟨"SIGN", "+", [], some 0, ⟨2, 3⟩, ⟨5, 6⟩⟩
    (scan r "+\n é+a\n +".toList).tokens[2]? = some first ∧
    List.Forall₂ first.FoundFrom ((scan r "+\n é+a\n +".toList).tokens.drop 2)
      (scan r "+a\n +".toList).tokens ∧
    first.FoundFrom (scan r "+\n é+a\n +".toList).eof (scan r "+a\n +".toList).eof := by
  intro r first
  have hfirst : (scan r "+\n é+a\n +".toList).tokens[2]? = some first := by decide
  obtain ⟨before, rest, hsplit, htokens, heof⟩ := scan_restarts r _ 2 first hfirst
  have hrest : splitBytes? 5 "+\n é+a\n +".toList = some ("+\n é".toList, "+a\n +".toList) := by decide
  obtain ⟨rfl, rfl⟩ := Prod.mk.inj (Option.some.inj (hsplit.symm.trans hrest))
  exact ⟨hfirst, htokens, heof⟩

end DollarScript
