import DollarScript.Proofs.Scanner.Restart
import DollarScript.Proofs.Scanner.Words
import DollarScript.Proofs.Text.Runs
import DollarScript.Scanner.Cursor

/-! A cursor that counts bytes never leaves a source or comes to stand within a character, and finds
the tokens and the words that the source is cut into. -/
namespace DollarScript

open Text

theorem Text.slice?_middle (before middle after : List Char) :
    slice? (byteLength before) (byteLength before + byteLength middle)
      (before ++ (middle ++ after)) = some middle := by
  simp only [slice?, Nat.le_add_right, if_true, splitBytes?_append, Option.bind_some,
    Nat.add_sub_cancel_left, Option.map_some]

theorem Text.slice?_suffix (before rest : List Char) :
    slice? (byteLength before) (byteLength (before ++ rest)) (before ++ rest) = some rest := by
  have h := slice?_middle before rest []
  rwa [List.append_nil, ← byteLength_append] at h

namespace Scanner

/-! ### From token to token -/

namespace Cursor

/-- Where the cursor stands when it has passed a text. -/
def behind (before : List Char) (ts : List Token) : Cursor :=
  ⟨byteLength before, Position.origin.advance before, ts⟩

variable {r : Registry} {c : Char} {rest : List Char}

theorem consume?_middle (before middle after : List Char) (ts : List Token) :
    (behind before ts).consume? (before ++ (middle ++ after)) (byteLength middle) =
      some (behind (before ++ middle) ts) := by
  simp only [consume?, behind, slice?_middle, Option.map_some, byteLength_append,
    Position.advance_append]

theorem emit?_middle (hit? : Option Registry.Hit) (before middle after : List Char)
    (ts : List Token) :
    (behind before ts).emit? (before ++ (middle ++ after)) hit? (byteLength middle) =
      some (behind (before ++ middle) (ts ++ [Token.ofHit hit? middle
        (Position.origin.advance before)
        ⟨byteLength before, byteLength before + byteLength middle⟩])) := by
  simp only [emit?, behind, slice?_middle, Option.bind_some]
  exact consume?_middle before middle after _

theorem step?_blanks {blanks after : List Char} (before : List Char) (ts : List Token)
    (hne : blanks ≠ []) (hblanks : ∀ d ∈ blanks, isWhite d = true) (hafter : Stops isWhite after) :
    (behind before ts).step? r (before ++ (blanks ++ after)) =
      some (behind (before ++ blanks) ts) := by
  have hlength : byteLength (blanks ++ after) - byteLength after = byteLength blanks := by
    rw [byteLength_append, Nat.add_sub_cancel]
  have hpos : 0 < byteLength blanks := Nat.pos_of_ne_zero (mt byteLength_eq_zero.mp hne)
  simp only [step?, behind, slice?_suffix, Option.bind_some, dropWhile_run hblanks hafter, hlength,
    hpos, if_true]
  exact consume?_middle before blanks after ts

theorem step?_piece {after : List Char} (before : List Char) (ts : List Token)
    (hc : isWhite c = false) (hchars : (frontPiece r (c :: (rest ++ after))).chars = c :: rest) :
    (behind before ts).step? r (before ++ c :: (rest ++ after)) =
      some (behind (before ++ c :: rest) (ts ++
        [(frontPiece r (c :: (rest ++ after))).toToken (Position.origin.advance before)
          (byteLength before)])) := by
  have hblanks : ¬ 0 < byteLength (c :: (rest ++ after)) -
      byteLength ((c :: (rest ++ after)).dropWhile isWhite) := by
    simp [hc]
  simp only [step?, behind, slice?_suffix, Option.bind_some, hblanks, if_false]
  cases hfirst : r.first? .front (c :: (rest ++ after)) with
  | none =>
    have hpiece : frontPiece r (c :: (rest ++ after)) = .unknown [c] := by
      simp [frontPiece, hfirst]
    rw [hpiece] at hchars ⊢
    obtain rfl := (List.cons.inj hchars).2
    exact emit?_middle none before [c] after ts
  | some hit =>
    obtain ⟨-, hoffers, -⟩ := Registry.first?_front_eq_some.mp hfirst
    obtain ⟨-, front, back, htext, hlength⟩ := hoffers.split
    have hpiece : frontPiece r (c :: (rest ++ after)) =
        ⟨hit.entry.name, hit.found.captures, some hit.index, front⟩ := by
      simp only [frontPiece, hfirst, splitBytes?_eq_some.mpr ⟨htext, hlength⟩]
    rw [hpiece] at hchars ⊢
    obtain rfl : front = c :: rest := hchars
    simp only [← hlength]
    exact emit?_middle (some hit) before (c :: rest) after ts

theorem cutFrom_blanks {cut : List Char → Piece} {blanks : List Char} (position : Position)
    (offset : Nat) (hblanks : ∀ d ∈ blanks, isWhite d = true) (after : List Char) :
    cutFrom cut 0 position offset (blanks ++ after) =
      cutFrom cut 0 (position.advance blanks) (offset + byteLength blanks) after := by
  induction blanks generalizing position offset with
  | nil => rfl
  | cons d blanks ih =>
    rw [List.cons_append, cutFrom_blank _ _ _ (hblanks d List.mem_cons_self),
      ih _ _ fun e he => hblanks e (List.mem_cons_of_mem _ he), byteLength_cons, Nat.add_assoc]
    rfl

/-- From where the cursor stands it finds the tokens of the rest, and it comes to stand behind all
of the source. -/
theorem run?_behind (r : Registry) {fuel : Nat} (before rest : List Char) (ts : List Token)
    (hfuel : rest.length ≤ fuel) :
    run? r (before ++ rest) fuel (behind before ts) = some (behind (before ++ rest) (ts ++
      cutFrom (frontPiece r) 0 (Position.origin.advance before) (byteLength before) rest)) := by
  induction fuel generalizing before rest ts with
  | zero =>
    obtain rfl := List.length_eq_zero_iff.mp (Nat.le_zero.mp hfuel)
    simp [run?, behind, cutFrom]
  | succ fuel ih =>
    cases rest with
    | nil => simp [run?, behind, cutFrom]
    | cons c rest =>
      have hleft : (behind before ts).offset < byteLength (before ++ c :: rest) := by
        have := c.utf8Size_pos
        simp only [behind, byteLength_append, byteLength_cons]
        omega
      rw [run?, if_pos hleft]
      cases hc : isWhite c with
      | true =>
        -- one step takes all blanks, which the cut passes over one by one
        obtain ⟨blanks, after, hsplit, hblanks, hafter⟩ := exists_run isWhite (c :: rest)
        have hne : blanks ≠ [] := by
          rintro rfl
          rw [List.nil_append] at hsplit
          rw [← hsplit, stops_cons, hc] at hafter
          cases hafter
        have hshorter : after.length ≤ fuel := by
          have hlength := congrArg List.length hsplit
          have hpos := List.length_pos_iff.mpr hne
          simp only [List.length_cons, List.length_append] at hlength hfuel
          omega
        have hrun := ih (before ++ blanks) after ts hshorter
        rw [hsplit, step?_blanks before ts hne hblanks hafter, Option.bind_some,
          cutFrom_blanks _ _ hblanks]
        rwa [List.append_assoc, Position.advance_append, byteLength_append] at hrun
      | false =>
        obtain ⟨body, after, rfl, hchars⟩ := splits_frontPiece r c rest hc
        rw [step?_piece before ts hc hchars, Option.bind_some, cutFrom_token _ _ hc hchars rfl]
        have hshorter : after.length ≤ fuel := by
          simp only [List.length_cons, List.length_append] at hfuel
          omega
        have hrun := ih (before ++ c :: body) after (ts ++
          [(frontPiece r (c :: (body ++ after))).toToken (Position.origin.advance before)
            (byteLength before)]) hshorter
        simpa [Position.advance_append] using hrun

/-- The cursor gives the tokens of the source and the token behind them. -/
theorem scan?_eq (r : Registry) (source : List Char) : scan? r source = some (scan r source) := by
  have hrun := run?_behind r [] source [] (Nat.le_refl _)
  rw [List.nil_append, List.nil_append] at hrun
  rw [scan?, show start = behind [] [] from rfl, hrun]
  rfl

end Cursor

/-! ### From word to word -/

/-- The offset and the characters of a word, as its token has them. -/
def placed (t : Token) : Nat × List Char := (t.span.start, t.text.toList)

theorem placed_toToken (piece : Piece) (position : Position) (offset : Nat) :
    placed (piece.toToken position offset) = (offset, piece.chars) := by
  simp [placed, Piece.toToken]

/-- A word has no blanks in it and ends in front of one. -/
theorem run_of_wordPiece {r : Registry} {c : Char} {rest after : List Char}
    (hc : isWhite c = false)
    (hchars : (wordPiece r (c :: (rest ++ after))).chars = c :: rest) :
    (∀ d ∈ c :: rest, isWhite d = false) ∧ Apart after := by
  obtain ⟨rest', behind, htext, hbehind, hword⟩ := word_split hc (rest ++ after)
  rw [chars_wordPiece] at hchars
  obtain rfl := (List.cons.inj (hword.symm.trans hchars)).2
  obtain rfl := List.append_cancel_left htext
  refine ⟨fun d hd => ?_, hbehind⟩
  rw [← hchars] at hd
  simpa using List.mem_takeWhile_imp hd

namespace WordMarks

variable {r : Registry} {before : List Char}

/-- Within a word nothing happens. -/
theorem markAll?_solid {source : List Char} {m : WordMarks} {start : Nat} (word rest : List Char)
    (hstart : m.start = some start) (hsolid : ∀ c ∈ word, isWhite c = false) (offset : Nat) :
    markAll? source offset (word ++ rest) m = markAll? source (offset + byteLength word) rest m := by
  induction word generalizing offset with
  | nil => rfl
  | cons c word ih =>
    have hc := hsolid c List.mem_cons_self
    rw [List.cons_append, markAll?, mark?, hstart]
    simp only [hc, Bool.false_eq_true, if_false, Option.bind_some]
    rw [ih (fun d hd => hsolid d (List.mem_cons_of_mem _ hd)), byteLength_cons, Nat.add_assoc]

/-- The marks of a text, at the end of which the last word is finished. -/
theorem markAll?_finish? (r : Registry) (before text : List Char) (words : List (Nat × List Char))
    (position : Position) :
    (markAll? (before ++ text) (byteLength before) text ⟨words, none⟩).bind
        (finish? (before ++ text)) =
      some (words ++ (cutFrom (wordPiece r) 0 position (byteLength before) text).map placed) := by
  induction text using (splits_wordPiece r).induction generalizing before words position with
  | nil => simp [markAll?, finish?, cutFrom]
  | blank c text hc ih =>
    have hih := ih (before ++ [c]) words (position.step c)
    rw [cutFrom_blank _ _ _ hc, markAll?, mark?]
    simp only [hc, if_true, Option.bind_some]
    simpa using hih
  | piece c rest after hc hchars ih =>
    obtain ⟨hsolid, hafter⟩ := run_of_wordPiece hc hchars
    have hstart : mark? (before ++ c :: (rest ++ after)) (byteLength before) c ⟨words, none⟩ =
        some ⟨words, some (byteLength before)⟩ := by
      simp [mark?, hc]
    rw [cutFrom_token _ _ hc hchars rfl, List.map_cons, placed_toToken, hchars, markAll?, hstart,
      Option.bind_some, markAll?_solid rest after rfl fun d hd => hsolid d (List.mem_cons_of_mem _ hd),
      Nat.add_assoc, ← byteLength_cons]
    have hih := ih (before ++ c :: rest) (words ++ [(byteLength before, c :: rest)])
      (position.advance (c :: rest))
    cases after with
    | nil =>
      have hslice := slice?_suffix before (c :: rest)
      simp only [markAll?, finish?, cutFrom, List.append_nil, Option.bind_some, hslice,
        Option.map_some, List.map_nil]
    | cons d after =>
      -- the blank behind the word ends it, and is passed over where no word is under way
      have hd : isWhite d = true := apart_cons.mp hafter
      have hslice := slice?_middle before (c :: rest) (d :: after)
      simp only [markAll?, mark?, hd, if_true, Option.bind_some, byteLength_append,
        List.append_assoc] at hih
      simp only [List.cons_append] at hih hslice
      simp only [markAll?, mark?, hd, if_true, hslice, Option.map_some, Option.bind_some]
      simpa using hih

/-- The words found are those that have tokens. -/
theorem split?_eq (r : Registry) (source : List Char) :
    split? source = some ((Scanner.words r source).map placed) :=
  markAll?_finish? r [] source [] .origin

end WordMarks

namespace WordCursor

variable {r : Registry}

theorem ofHit_word {text word : List Char} (hchars : (wordPiece r text).chars = word)
    (position : Position) (offset : Nat) :
    Token.ofHit (r.first? .whole word) word position ⟨offset, offset + byteLength word⟩ =
      (wordPiece r text).toToken position offset := by
  rw [chars_wordPiece] at hchars
  simp only [wordPiece, hchars]
  cases r.first? .whole word <;> rfl

/-- The cursor stands at the start of a word, and `gap` lies between it and the rest of the text. -/
theorem foldlM_step? (r : Registry) (before gap text : List Char) (ts : List Token)
    {position : Position} {offset : Nat} (hposition : Position.origin.advance (before ++ gap) = position)
    (hoffset : byteLength (before ++ gap) = offset) :
    ∃ w, ((cutFrom (wordPiece r) 0 position offset text).map placed).foldlM
        (step? r (before ++ (gap ++ text)))
        ⟨byteLength before, Position.origin.advance before, ts⟩ = some w ∧
      w.tokens = ts ++ cutFrom (wordPiece r) 0 position offset text := by
  induction text using (splits_wordPiece r).induction generalizing before gap ts position offset with
  | nil => exact ⟨_, rfl, (List.append_nil ts).symm⟩
  | blank c text hc ih =>
    rw [cutFrom_blank _ _ _ hc]
    have hih := ih before (gap ++ [c]) ts
      (by rw [← List.append_assoc, Position.advance_concat, hposition])
      (by rw [← List.append_assoc, byteLength_append, hoffset])
    rwa [List.append_assoc gap] at hih
  | piece c rest after hc hchars ih =>
    have hslice := slice?_middle before gap (c :: (rest ++ after))
    rw [← byteLength_append, hoffset] at hslice
    obtain ⟨w, hfold, htokens⟩ := ih (before ++ gap) (c :: rest)
      (ts ++ [(wordPiece r (c :: (rest ++ after))).toToken position offset])
      (by rw [Position.advance_append, hposition]) (by rw [byteLength_append, hoffset])
    rw [cutFrom_token _ _ hc hchars rfl]
    refine ⟨w, ?_, by rw [htokens, List.append_assoc]; rfl⟩
    rw [hposition, hoffset, List.append_assoc] at hfold
    rw [List.map_cons, placed_toToken, hchars, List.foldlM_cons]
    simp only [step?, hslice, Option.map_some, ← Position.advance_append, hposition,
      ofHit_word hchars]
    exact hfold

/-- Each word gets its token, at the place to which the cursor moves from word to word. -/
theorem words?_eq (r : Registry) (source : List Char) :
    words? r source = some (words r source) := by
  obtain ⟨w, hfold, htokens⟩ := foldlM_step? r [] [] source [] rfl rfl
  have hsplit : WordMarks.split? source =
      some ((cutFrom (wordPiece r) 0 .origin 0 source).map placed) := WordMarks.split?_eq r source
  rw [words?, hsplit, Option.bind_some]
  exact (congrArg (Option.map tokens) hfold).trans (congrArg some htokens)

end WordCursor

end Scanner

end DollarScript
