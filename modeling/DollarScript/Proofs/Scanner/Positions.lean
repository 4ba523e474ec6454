import DollarScript.Proofs.Scanner.FirstMatch
import Mathlib.Data.List.Induction

/-! Lines and columns are counted character by character; here they are read off the whole text in
front of a token. -/
namespace DollarScript

open Text

/-- What stands behind the last line end of a text. -/
def Text.lastLine (cs : List Char) : List Char := (cs.reverse.takeWhile (· ≠ '\n')).reverse

/-- The place behind a text: a line for each line end, a column for each character since. -/
def Position.behind (cs : List Char) : Position := ⟨1 + cs.count '\n', 1 + (lastLine cs).length⟩

/-- The token starts between two characters of the source, and its line and column are those of
the place behind all that stands in front of it. -/
def Token.PlacedIn (source : List Char) (t : Token) : Prop :=
  ∃ before after, source = before ++ after ∧ byteLength before = t.span.start ∧
    t.position = .behind before

theorem Text.lastLine_concat (cs : List Char) (c : Char) :
    lastLine (cs ++ [c]) = if c = '\n' then [] else lastLine cs ++ [c] := by
  by_cases hc : c = '\n'
  · simp [lastLine, hc]
  · simp [lastLine, hc]

namespace Position

theorem advance_concat (p : Position) (cs : List Char) (c : Char) :
    p.advance (cs ++ [c]) = (p.advance cs).step c := by
  simp [advance]

/-- One more character moves the place as a step does. -/
theorem behind_concat (cs : List Char) (c : Char) :
    behind (cs ++ [c]) = (behind cs).step c := by
  by_cases hc : c = '\n'
  · subst hc
    simp [behind, step, lastLine_concat, Nat.add_assoc]
  · simp [behind, step, lastLine_concat, hc, Nat.add_assoc]

theorem origin_advance (cs : List Char) : origin.advance cs = behind cs := by
  induction cs using List.reverseRecOn with
  | nil => rfl
  | append_singleton cs c ih => rw [advance_concat, behind_concat, ih]

end Position

namespace Scanner

/-- Whatever the pieces are, a token is placed where the characters before it lead. -/
theorem position_of_mem_cutFrom {cut : List Char → Piece} {text : List Char} {t : Token}
    {skip : Nat} {position : Position} {offset : Nat}
    (h : t ∈ cutFrom cut skip position offset text) :
    ∃ before after, text = before ++ after ∧ offset + byteLength before = t.span.start ∧
      t.position = position.advance before := by
  induction text generalizing skip position offset with
  | nil => simp [cutFrom] at h
  | cons c text ih =>
    -- a token from behind the first character has this character in front of it
    have hlater : ∀ {skip},
        t ∈ cutFrom cut skip (position.step c) (offset + c.utf8Size) text →
        ∃ before after, c :: text = before ++ after ∧
          offset + byteLength before = t.span.start ∧ t.position = position.advance before := by
      intro skip ht
      obtain ⟨before, after, rfl, hstart, hposition⟩ := ih ht
      refine ⟨c :: before, after, rfl, ?_, hposition⟩
      rw [byteLength_cons, ← Nat.add_assoc, hstart]
    cases skip with
    | succ skip => exact hlater h
    | zero =>
      unfold cutFrom at h
      split at h
      · exact hlater h
      · rcases List.mem_cons.mp h with rfl | h
        · exact ⟨[], c :: text, rfl, rfl, rfl⟩
        · exact hlater h

theorem placedIn_of_mem_cutFrom {cut : List Char → Piece} {source : List Char} {t : Token}
    (h : t ∈ cutFrom cut 0 .origin 0 source) : t.PlacedIn source := by
  obtain ⟨before, after, hsource, hstart, hposition⟩ := position_of_mem_cutFrom h
  rw [Nat.zero_add] at hstart
  rw [Position.origin_advance] at hposition
  exact ⟨before, after, hsource, hstart, hposition⟩

theorem eof_placedIn (r : Registry) (source : List Char) :
    (scan r source).eof.PlacedIn source :=
  ⟨source, [], (List.append_nil source).symm, rfl, Position.origin_advance source⟩

end Scanner

open DollarScript.Scanner

/-- Every token of a source, in either way to cut it, and the token behind the last have the line
and the column of the place where they start. -/
theorem positions_faithful (r : Registry) (source : List Char) :
    (∀ t ∈ tokens r source, t.PlacedIn source) ∧
    (∀ t ∈ (scan r source).tokens, t.PlacedIn source) ∧
    ((scan r source).eof.PlacedIn source ∧ (scan r source).eof.span.start = byteLength source) ∧
    ∀ t ∈ words r source, t.PlacedIn source := by
  refine ⟨?_, ?_, ⟨eof_placedIn r source, rfl⟩, ?_⟩
  · intro t ht
    exact placedIn_of_mem_cutFrom ht
  · intro t ht
    exact placedIn_of_mem_cutFrom ht
  · intro t ht
    exact placedIn_of_mem_cutFrom ht

end DollarScript
