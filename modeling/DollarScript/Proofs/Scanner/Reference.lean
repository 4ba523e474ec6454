import DollarScript.Proofs.Registry.Builtin
import DollarScript.Proofs.Scanner.Lossless

/-! The built-in kinds as a scanner written by hand: it looks at the next character and knows what
to read, with no patterns and no order of kinds. -/
namespace DollarScript

namespace Scanner

open Text

/-- A token apart from its place and the number of its kind. -/
structure Lexeme where
  kind : String
  chars : List Char
  captures : List (Option String)
  deriving DecidableEq, Repr

namespace Lexeme

def ofToken (t : Token) : Lexeme := ⟨t.kind, t.text.toList, t.captures⟩

def unknown (c : Char) : Lexeme := ⟨Kind.unknown, [c], []⟩

def ofTaken (kind : String) (taken : Taken) : Lexeme := ⟨kind, taken.chars, taken.captures⟩

/-- A keyword at the front of a text. -/
def keyword? (text : List Char) : Option Lexeme :=
  ((takeOpening Kind.openingWords text).map (ofTaken Kind.keywordBegin)).or
    (((takeKeyword Kind.closingWords text).map (ofTaken Kind.keywordEnd)).or
      ((takeKeyword Kind.otherWords text).map (ofTaken "OTHERKEYWORDS")))

/-- What stands at the front of a text that starts with `c`. -/
def atFront (c : Char) (rest : List Char) : Lexeme :=
  if c = '"' then
    match stringBody? rest with
    | some body => ⟨"STRING", c :: body, []⟩
    | none => unknown c
  else if c = '=' then
    match rest with
    | '=' :: '=' :: _ => ⟨Kind.equalStr, ['=', '=', '='], []⟩
    | '=' :: _ => ⟨Kind.equal, ['=', '='], []⟩
    | _ => ⟨Kind.assign, ['='], []⟩
  else if c = '$' then
    let name := rest.takeWhile isNameChar
    if name.isEmpty then unknown c else ⟨Kind.var, c :: name, []⟩
  else
    ((keyword? (c :: rest)).or (((takeNumber (c :: rest)).map (ofTaken Kind.number)).or
      ((Kind.singles.lookup c).map fun kind => ⟨kind, [c], []⟩))).getD (unknown c)

example : atFront '"' "a\\\"b\" c".toList = ⟨"STRING", "\"a\\\"b\"".toList, []⟩ := by
  decide +kernel

end Lexeme

/-- Skips blanks and reads one lexeme after the other. -/
def lexemes : List Char → List Lexeme
  | [] => []
  | c :: rest =>
    if isWhite c then lexemes rest
    else
      let found := Lexeme.atFront c rest
      found :: lexemes (rest.drop (found.chars.length - 1))
termination_by text => text.length
decreasing_by
  all_goals
    simp only [List.length_drop, List.length_cons]
    omega

/-! ### One lexeme -/

open Registry

def Piece.lexeme (p : Piece) : Lexeme := ⟨p.kind, p.chars, p.captures⟩

/-- What the first rule that applies takes. -/
def firstTaken (text : List Char) (shapes : List Kind.Shape) : Option Lexeme :=
  shapes.findSome? fun s => (s.rule text).map (Lexeme.ofTaken s.kind)

theorem firstTaken_cons (text : List Char) (s : Kind.Shape) (shapes : List Kind.Shape) :
    firstTaken text (s :: shapes) =
      ((s.rule text).map (Lexeme.ofTaken s.kind)).or (firstTaken text shapes) := by
  rw [firstTaken, List.findSome?_cons]
  cases s.rule text <;> rfl

theorem firstFrom_follows {es : List Entry} {shapes : List Kind.Shape}
    (h : List.Forall₂ Follows es shapes) (text : List Char) (index : Nat) :
    (firstTaken text shapes = none ∧ firstFrom .front text index es = none) ∨
      ∃ kind taken hit, firstTaken text shapes = some (.ofTaken kind taken) ∧
        firstFrom .front text index es = some hit ∧ hit.entry.name = kind ∧
        hit.found = ⟨byteLength taken.chars, taken.captures⟩ ∧ taken.chars <+: text := by
  induction h generalizing index with
  | nil => exact .inl ⟨rfl, rfl⟩
  | @cons e s es shapes hes _ ih =>
    rw [firstTaken_cons, firstFrom, hes.taken]
    cases hrule : s.rule text with
    | none => exact ih (index + 1)
    | some taken =>
      exact .inr ⟨s.kind, taken, _, rfl, rfl, hes.name, rfl, (hes.cuts text taken hrule).2⟩

theorem frontPiece_builtin (text : List Char) :
    (frontPiece .builtin text).lexeme =
      (firstTaken text Kind.shapes).getD ⟨Kind.unknown, text.take 1, []⟩ := by
  rcases firstFrom_follows builtin_follows text 0 with
    ⟨hnone, hfirst⟩ | ⟨kind, taken, hit, hsome, hfirst, hname, hfound, back, htext⟩
  · rw [hnone, frontPiece, first?, hfirst]
    rfl
  · have hsplit : splitBytes? (byteLength taken.chars) text = some (taken.chars, back) := by
      rw [← htext, splitBytes?_append]
    rw [hsome, frontPiece, first?, hfirst]
    simp only [hfound, hsplit, Piece.lexeme, hname]
    rfl

/-! ### Dispatch on a character -/

variable {c : Char} {rest : List Char}

theorem takeString_of_ne (h : c ≠ '"') : takeString (c :: rest) = none := by
  simp [takeString, h]

theorem takeVariable_of_ne (h : c ≠ '$') : takeVariable (c :: rest) = none := by
  simp [takeVariable, h]

theorem takeWord_of_ne {w : String} (h : w.toList.head? ≠ some c) (hw : w ≠ "") :
    takeWord w (c :: rest) = none := by
  cases hchars : w.toList with
  | nil => exact absurd (by simpa using hchars) hw
  | cons a cs =>
    rw [hchars] at h
    have hne : a ≠ c := by simpa using h
    simp [takeWord, hchars, hne]

theorem takeNumber_of_not (h : isDecimalDigit c = false) : takeNumber (c :: rest) = none := by
  simp [takeNumber, h]

theorem keyword?_of_not (h : c ∉ ['i', 'e', 'w', 'f', 't', 'r', 'c']) :
    Lexeme.keyword? (c :: rest) = none := by
  simp only [List.mem_cons, List.not_mem_nil, or_false, not_or] at h
  obtain ⟨hi, he, hw, hf, ht, hr, hc⟩ := h
  simp [Lexeme.keyword?, takeOpening, takeKeyword, Kind.openingWords, Kind.closingWords,
    Kind.otherWords, Ne.symm hi, Ne.symm he, Ne.symm hw, Ne.symm hf, Ne.symm ht, Ne.symm hr,
    Ne.symm hc]

theorem firstTaken_singles (entries : List (Char × String)) :
    firstTaken (c :: rest) (entries.map .single) =
      (entries.lookup c).map fun kind => ⟨kind, [c], []⟩ := by
  induction entries with
  | nil => rfl
  | cons entry entries ih =>
    obtain ⟨a, kind⟩ := entry
    rw [List.map_cons, firstTaken_cons, ih, List.lookup_cons]
    by_cases hc : c = a
    · subst hc
      simp [Kind.Shape.single, Kind.Shape.word, takeWord, Lexeme.ofTaken]
    · simp [Kind.Shape.single, Kind.Shape.word, takeWord, Ne.symm hc, beq_false_of_ne hc]

/-- The rules in the order of the kinds. -/
theorem firstTaken_shapes (text : List Char) :
    firstTaken text Kind.shapes =
      ((takeString text).map (.ofTaken "STRING")).or
      (((takeWord "===" text).map (.ofTaken Kind.equalStr)).or
      (((takeWord "==" text).map (.ofTaken Kind.equal)).or
      (((takeVariable text).map (.ofTaken Kind.var)).or
      ((Lexeme.keyword? text).or
      (((takeNumber text).map (.ofTaken Kind.number)).or
      (((takeWord "=" text).map (.ofTaken Kind.assign)).or
      (firstTaken text (Kind.singles.map .single)))))))) := by
  simp only [Kind.shapes, List.cons_append, List.nil_append, firstTaken_cons, Lexeme.keyword?,
    Option.or_assoc]
  rfl

theorem firstTaken_eq_atFront (c : Char) (rest : List Char) :
    (firstTaken (c :: rest) Kind.shapes).getD (.unknown c) = Lexeme.atFront c rest := by
  rw [firstTaken_shapes, firstTaken_singles]
  by_cases hquote : c = '"'
  · subst hquote
    rw [takeWord_of_ne (by decide) (by decide), takeWord_of_ne (by decide) (by decide),
      takeWord_of_ne (by decide) (by decide), takeVariable_of_ne (by decide),
      keyword?_of_not (by decide), takeNumber_of_not (by decide +kernel)]
    cases hbody : stringBody? rest with
    | none => simp [takeString, hbody, Lexeme.atFront, Kind.singles, List.lookup_cons]
    | some body => simp [takeString, hbody, Lexeme.atFront, Lexeme.ofTaken]
  by_cases hequals : c = '='
  · subst hequals
    rw [takeString_of_ne (by decide), takeVariable_of_ne (by decide),
      keyword?_of_not (by decide), takeNumber_of_not (by decide +kernel)]
    cases rest with
    | nil => simp [takeWord, Lexeme.atFront, Lexeme.ofTaken]
    | cons d rest =>
      by_cases hd : d = '='
      · subst hd
        cases rest with
        | nil => simp [takeWord, Lexeme.atFront, Lexeme.ofTaken]
        | cons e rest =>
          by_cases he : e = '='
          · simp [takeWord, Lexeme.atFront, Lexeme.ofTaken, he]
          · simp [takeWord, Lexeme.atFront, Lexeme.ofTaken, he, Ne.symm he]
      · simp [takeWord, Lexeme.atFront, Lexeme.ofTaken, hd, Ne.symm hd]
  have hwords : ∀ w ∈ ["===", "==", "="], takeWord w (c :: rest) = none := by
    intro w hw
    simp only [List.mem_cons, List.not_mem_nil, or_false] at hw
    rcases hw with rfl | rfl | rfl <;>
      exact takeWord_of_ne (by simpa [eq_comm] using hequals) (by decide)
  rw [hwords "===" (by simp), hwords "==" (by simp), hwords "=" (by simp),
    takeString_of_ne hquote]
  by_cases hdollar : c = '$'
  · subst hdollar
    rw [keyword?_of_not (by decide), takeNumber_of_not (by decide +kernel)]
    by_cases hname : (rest.takeWhile isNameChar).isEmpty
    · simp [takeVariable, hname, Lexeme.atFront, Kind.singles, List.lookup_cons]
    · simp [takeVariable, hname, Lexeme.atFront, Lexeme.ofTaken]
  · rw [takeVariable_of_ne hdollar]
    simp [Lexeme.atFront, hquote, hequals, hdollar]

/-! ### The whole text -/

theorem frontPiece_lexeme (c : Char) (rest : List Char) :
    (frontPiece .builtin (c :: rest)).lexeme = Lexeme.atFront c rest := by
  rw [← firstTaken_eq_atFront, frontPiece_builtin]
  rfl

theorem cutFrom_lexemes (position : Position) (offset : Nat) (text : List Char) :
    (cutFrom (frontPiece .builtin) 0 position offset text).map Lexeme.ofToken = lexemes text := by
  induction hn : text.length using Nat.strongRecOn generalizing position offset text with
  | ind n ih =>
    subst hn
    cases text with
    | nil =>
      rw [lexemes]
      rfl
    | cons c text =>
      rw [lexemes]
      by_cases hc : isWhite c = true
      · rw [cutFrom_blank _ _ _ hc, if_pos hc]
        exact ih text.length (by simp) _ _ text rfl
      · have hsolid : isWhite c = false := by simpa using hc
        obtain ⟨after, htext, hcut⟩ := frontPiece_cut .builtin hsolid position offset
        obtain ⟨d, body, hchars, -⟩ := hcut.solid
        rw [hchars] at htext
        obtain ⟨rfl, hrest⟩ : c = d ∧ text = body ++ after := by simpa using htext
        have hfront : Lexeme.ofToken ((frontPiece .builtin (c :: text)).toToken position offset) =
            Lexeme.atFront c text := by
          rw [← frontPiece_lexeme]
          simp [Lexeme.ofToken, Piece.toToken, Piece.lexeme]
        have hafter : text.drop ((Lexeme.atFront c text).chars.length - 1) = after := by
          rw [← frontPiece_lexeme, Piece.lexeme, hchars, hrest]
          exact List.drop_left
        have hshorter : after.length < (c :: text).length := by
          rw [hrest, List.length_cons, List.length_append]
          omega
        rw [cutFrom_token position offset hsolid hchars hrest, if_neg hc, List.map_cons, hfront]
        dsimp only
        rw [hafter, ih after.length hshorter _ _ after rfl]

/-- The scanner of the built-in kinds reads what the one written by hand reads. -/
theorem tokens_builtin (source : List Char) :
    (tokens .builtin source).map Lexeme.ofToken = lexemes source :=
  cutFrom_lexemes .origin 0 source

end Scanner

end DollarScript
