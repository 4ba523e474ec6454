import DollarScript.Proofs.Scanner.Reference
import DollarScript.Proofs.Text.Runs
import Mathlib.Data.List.TakeWhile

/-! Where a token ends and a blank follows, or nothing does, the built-in kinds take the token again,
whatever stood behind it before. -/
namespace DollarScript

namespace Text

/-- The code points of ascending ranges. -/
def codesIn (rs : List (Nat × Nat)) : List Nat := rs.flatMap fun r => List.range' r.1 (r.2 + 1 - r.1)

theorem mem_codesIn {n : Nat} {rs : List (Nat × Nat)} (h : inRanges n rs = true) :
    n ∈ codesIn rs := by
  induction rs with
  | nil => cases h
  | cons r rs ih =>
    obtain ⟨first, last⟩ := r
    unfold inRanges at h
    split at h
    · cases h
    · rw [codesIn, List.flatMap_cons, List.mem_append]
      rcases Bool.or_eq_true_iff.mp h with hlast | hrest
      · left
        have hle : n ≤ last := by simpa using hlast
        rw [List.mem_range'_1]
        omega
      · right
        exact ih hrest

/-- A property of blanks can be checked code point by code point. -/
theorem of_isWhite {P : Char → Prop} {c : Char} (h : ∀ n ∈ codesIn whiteRanges, P (Char.ofNat n))
    (hc : isWhite c = true) : P c := by
  have hcode := h c.toNat (mem_codesIn hc)
  rwa [Char.ofNat_toNat] at hcode

theorem not_word_of_white {c : Char} (hc : isWhite c = true) : isWord c = false :=
  of_isWhite (P := fun c => isWord c = false) (by decide +kernel) hc

theorem not_digit_of_white {c : Char} (hc : isWhite c = true) : isDecimalDigit c = false :=
  of_isWhite (P := fun c => isDecimalDigit c = false) (by decide +kernel) hc

end Text

namespace Scanner

open Text

/-- Nothing follows, or a blank does. -/
def Apart (behind : List Char) : Prop := ∀ c ∈ behind.head?, isWhite c = true

/-- What the rule takes from a text it takes again, if something else stands behind that. -/
def Rule.Settled (rule : Rule) : Prop :=
  ∀ text taken behind, rule text = some taken → Apart behind →
    rule (taken.chars ++ behind) = some taken

variable {behind : List Char} {c : Char}

theorem apart_nil : Apart [] := by
  simp [Apart]

theorem apart_cons : Apart (c :: behind) ↔ isWhite c = true := by
  simp [Apart]

theorem Apart.head (h : Apart behind) {p : Char → Bool}
    (hp : ∀ c, isWhite c = true → p c = false) : behind.head?.any p = false := by
  cases behind with
  | nil => rfl
  | cons c behind => exact hp c (apart_cons.mp h)

/-- A run of characters ends in front of a blank. -/
theorem Apart.stops (h : Apart behind) {p : Char → Bool}
    (hp : ∀ c, isWhite c = true → p c = false) : Stops p behind :=
  fun c hc => hp c (h c hc)

/-! ### One rule at a time -/

theorem settled_word (w : String) : (takeWord w).Settled := by
  intro text taken behind h _
  unfold takeWord at h
  split at h
  · cases h
    simp [takeWord]
  · cases h

/-- The quote that closes a string is found without a look at what follows. -/
theorem stringBody?_again {rest body : List Char} (h : stringBody? rest = some body)
    (behind : List Char) : stringBody? (body ++ behind) = some body := by
  fun_induction stringBody? rest generalizing body with
  | case1 => cases h
  | case2 rest =>
    cases h
    unfold stringBody?
    rfl
  | case3 => cases h
  | case4 => cases h
  | case5 d rest hline hquote ih =>
    obtain ⟨inner, hinner, rfl⟩ := Option.map_eq_some_iff.mp h
    simp [stringBody?, hline, ih hinner]
  | case6 c rest hquote hslash ih =>
    obtain ⟨inner, hinner, rfl⟩ := Option.map_eq_some_iff.mp h
    rw [List.cons_append]
    unfold stringBody?
    rw [if_neg hquote, if_neg hslash, ih hinner]
    rfl

theorem settled_string : takeString.Settled := by
  intro text taken behind h _
  unfold takeString at h
  split at h
  · obtain ⟨body, hbody, rfl⟩ := Option.map_eq_some_iff.mp h
    simp [takeString, stringBody?_again hbody]
  · cases h

theorem not_name_of_white (hc : isWhite c = true) : isNameChar c = false :=
  of_isWhite (P := fun c => isNameChar c = false) (by decide +kernel) hc

theorem settled_variable : takeVariable.Settled := by
  intro text taken behind h hbehind
  unfold takeVariable at h
  split at h
  · rename_i rest
    dsimp only at h
    split at h
    · cases h
    · rename_i hname
      cases h
      have hrun : ∀ c ∈ rest.takeWhile isNameChar, isNameChar c = true :=
        fun _ => List.mem_takeWhile_imp
      have hagain := takeWhile_run hrun (hbehind.stops fun c hc => not_name_of_white hc)
      simp only [List.cons_append, takeVariable, hagain]
      rw [if_neg hname]
  · cases h

/-- No word is the front of another one. -/
def PrefixFree (words : List String) : Prop :=
  ∀ v ∈ words, ∀ w ∈ words, v.toList <+: w.toList → v = w

instance (words : List String) : Decidable (PrefixFree words) :=
  inferInstanceAs (Decidable (∀ _ ∈ words, _))

/-- A search for a word at the front of a text finds the one that stands there. -/
theorem PrefixFree.find? {words : List String} (hfree : PrefixFree words) {w : String}
    (hmem : w ∈ words) {q : String → Bool} (hw : q w = true) (behind : List Char)
    (hq : ∀ v, q v = true → v.toList <+: w.toList ++ behind) : words.find? q = some w := by
  have honly : ∀ v ∈ words, q v = true → v = w := by
    intro v hv hqv
    rcases List.prefix_or_prefix_of_prefix (hq v hqv) (List.prefix_append _ _) with h | h
    · exact hfree v hv w hmem h
    · exact (hfree w hmem v hv h).symm
  cases hfind : words.find? q with
  | none => exact absurd hw (List.find?_eq_none.mp hfind w hmem)
  | some v =>
    rw [honly v (List.mem_of_find?_eq_some hfind) (List.find?_some hfind)]

variable {words : List String}

theorem settled_opening (hfree : PrefixFree words) : (takeOpening words).Settled := by
  intro text taken behind h _
  obtain ⟨w, hfind, rfl⟩ := Option.map_eq_some_iff.mp h
  have hagain : words.find? (fun v => (v.toList ++ [':']).isPrefixOf (w.toList ++ [':'] ++ behind)) =
      some w := by
    refine hfree.find? (List.mem_of_find?_eq_some hfind) (by simp) (':' :: behind) ?_
    intro v hv
    have hprefix := List.isPrefixOf_iff_prefix.mp hv
    rw [List.append_assoc] at hprefix
    exact (List.prefix_append _ _).trans hprefix
  rw [takeOpening, hagain]
  rfl

/-- A word that ends in front of a blank is not the front of a longer word. -/
theorem settled_keyword (hfree : PrefixFree words) : (takeKeyword words).Settled := by
  intro text taken behind h hbehind
  obtain ⟨w, hfind, rfl⟩ := Option.map_eq_some_iff.mp h
  have hagain : words.find? (fun v => v.toList.isPrefixOf (w.toList ++ behind) &&
      !((w.toList ++ behind).drop v.toList.length).head?.any isWord) = some w := by
    refine hfree.find? (List.mem_of_find?_eq_some hfind) ?_ behind ?_
    · have hend : behind.head?.any isWord = false :=
        hbehind.head fun c hc => not_word_of_white hc
      rw [List.drop_left, hend]
      simp
    · intro v hv
      rw [Bool.and_eq_true] at hv
      exact List.isPrefixOf_iff_prefix.mp hv.1
  rw [takeKeyword, hagain]
  rfl

theorem fraction?_apart (h : Apart behind) : fraction? behind = none := by
  unfold fraction?
  split
  · exact absurd (apart_cons.mp h) (by decide)
  · rfl

/-- At least one digit, and nothing but digits. -/
def Digits (cs : List Char) : Prop := cs ≠ [] ∧ ∀ c ∈ cs, isDecimalDigit c = true

/-- Digits, and perhaps a point with digits behind it, which is then what the group took. -/
inductive Numeral : Taken → Prop
  | whole {digits : List Char} : Digits digits → Numeral ⟨digits, [none]⟩
  | fraction {digits decimals : List Char} : Digits digits → Digits decimals →
      Numeral ⟨digits ++ '.' :: decimals, [some (String.ofList ('.' :: decimals))]⟩

theorem digits_takeWhile {text : List Char}
    (h : ¬ (text.takeWhile isDecimalDigit).isEmpty = true) :
    Digits (text.takeWhile isDecimalDigit) :=
  ⟨by simpa using h, fun _ => List.mem_takeWhile_imp⟩

theorem numeral_of_takeNumber {text : List Char} {taken : Taken}
    (h : takeNumber text = some taken) : Numeral taken := by
  unfold takeNumber at h
  dsimp only at h
  split at h
  · cases h
  · rename_i hdigits
    split at h
    · rename_i fraction hfraction
      cases h
      unfold fraction? at hfraction
      split at hfraction
      · dsimp only at hfraction
        split at hfraction
        · cases hfraction
        · rename_i hdecimals
          cases hfraction
          exact .fraction (digits_takeWhile hdigits) (digits_takeWhile hdecimals)
      · cases hfraction
    · cases h
      exact .whole (digits_takeWhile hdigits)

theorem Numeral.takeNumber {taken : Taken} (h : Numeral taken) (hbehind : Apart behind) :
    takeNumber (taken.chars ++ behind) = some taken := by
  have hend : Stops isDecimalDigit behind := hbehind.stops fun c hc => not_digit_of_white hc
  cases h with
  | whole hdigits =>
    have htake := takeWhile_run hdigits.2 hend
    have hdrop := dropWhile_run hdigits.2 hend
    simp [Scanner.takeNumber, htake, hdrop, fraction?_apart hbehind, hdigits.1]
  | @fraction digits decimals hdigits hdecimals =>
    have hpoint : Stops isDecimalDigit ('.' :: (decimals ++ behind)) :=
      stops_cons.mpr (by decide +kernel)
    have htake := takeWhile_run hdigits.2 hpoint
    have hdrop := dropWhile_run hdigits.2 hpoint
    have htake' := takeWhile_run hdecimals.2 hend
    have hfraction : fraction? ('.' :: (decimals ++ behind)) = some ('.' :: decimals) := by
      simp [fraction?, htake', hdecimals.1]
    simp [Scanner.takeNumber, htake, hdrop, hfraction, hdigits.1]

theorem settled_number : takeNumber.Settled := by
  intro text taken behind h hbehind
  exact (numeral_of_takeNumber h).takeNumber hbehind

/-! ### The first rule that applies -/

theorem shapes_settled : ∀ s ∈ Kind.shapes, s.rule.Settled := by
  intro s hs
  simp only [Kind.shapes, List.mem_append, List.mem_cons, List.not_mem_nil, or_false,
    List.mem_map] at hs
  rcases hs with (rfl | rfl | rfl | rfl | rfl | rfl | rfl | rfl | rfl) | ⟨entry, -, rfl⟩
  · exact settled_string
  · exact settled_word _
  · exact settled_word _
  · exact settled_variable
  · exact settled_opening (by decide)
  · exact settled_keyword (by decide)
  · exact settled_keyword (by decide)
  · exact settled_number
  · exact settled_word _
  · exact settled_word _

variable {rest : List Char} {captures : List (Option String)}

theorem atFront_of_string (h : takeString (c :: (rest ++ behind)) = some ⟨c :: rest, captures⟩) :
    Lexeme.atFront c (rest ++ behind) = ⟨"STRING", c :: rest, captures⟩ := by
  by_cases hc : c = '"'
  · subst hc
    obtain ⟨body, hbody, htaken⟩ := Option.map_eq_some_iff.mp h
    cases htaken
    simp [Lexeme.atFront, hbody]
  · rw [takeString_of_ne hc] at h
    cases h

theorem atFront_of_variable
    (h : takeVariable (c :: (rest ++ behind)) = some ⟨c :: rest, captures⟩) :
    Lexeme.atFront c (rest ++ behind) = ⟨Kind.var, c :: rest, captures⟩ := by
  by_cases hc : c = '$'
  · subst hc
    simp only [takeVariable] at h
    split at h
    · cases h
    · rename_i hname
      simp only [Option.some.injEq, Taken.mk.injEq, List.cons.injEq, true_and] at h
      obtain ⟨htake, rfl⟩ := h
      rw [htake] at hname
      simp [Lexeme.atFront, htake, hname]
  · rw [takeVariable_of_ne hc] at h
    cases h

theorem taken_of_takeWord {w : String} {text : List Char} {taken : Taken}
    (h : takeWord w text = some taken) : taken = ⟨w.toList, []⟩ := by
  unfold takeWord at h
  split at h
  · exact (Option.some.inj h).symm
  · cases h

/-- A blank does not make an operator longer. -/
theorem atFront_of_equals {kind w : String}
    (hmem : (kind, w) ∈ [(Kind.equalStr, "==="), (Kind.equal, "=="), (Kind.assign, "=")])
    (hbehind : Apart behind)
    (h : takeWord w (c :: (rest ++ behind)) = some ⟨c :: rest, captures⟩) :
    Lexeme.atFront c (rest ++ behind) = ⟨kind, c :: rest, captures⟩ := by
  have hne : ∀ d more, behind = d :: more → d ≠ '=' := by
    rintro d more rfl rfl
    exact absurd (apart_cons.mp hbehind) (by decide)
  have htaken := taken_of_takeWord h
  simp only [List.mem_cons, Prod.mk.injEq, List.not_mem_nil, or_false] at hmem
  rcases hmem with ⟨rfl, rfl⟩ | ⟨rfl, rfl⟩ | ⟨rfl, rfl⟩
  all_goals
    simp only [Taken.mk.injEq, String.reduceToList, List.cons.injEq] at htaken
    obtain ⟨⟨rfl, rfl⟩, rfl⟩ := htaken
    cases hrest : behind with
    | nil => simp [Lexeme.atFront]
    | cons d more => simp [Lexeme.atFront, hne d more hrest]

theorem atFront_of_keyword? {l : Lexeme} (hc : c ∉ ['"', '=', '$'])
    (h : Lexeme.keyword? (c :: rest) = some l) : Lexeme.atFront c rest = l := by
  simp only [List.mem_cons, List.not_mem_nil, or_false, not_or] at hc
  simp [Lexeme.atFront, hc, h]

theorem atFront_of_opening
    (h : takeOpening Kind.openingWords (c :: (rest ++ behind)) = some ⟨c :: rest, captures⟩) :
    Lexeme.atFront c (rest ++ behind) = ⟨Kind.keywordBegin, c :: rest, captures⟩ := by
  have hc : c ∉ ['"', '=', '$'] := by
    obtain ⟨w, hfind, htaken⟩ := Option.map_eq_some_iff.mp h
    have hmem := List.mem_of_find?_eq_some hfind
    simp only [Kind.openingWords, List.mem_cons, List.not_mem_nil, or_false] at hmem
    rcases hmem with rfl | rfl | rfl | rfl | rfl <;>
      · simp only [Taken.mk.injEq, String.reduceToList, List.cons_append, List.cons.injEq] at htaken
        rw [← htaken.1.1]
        decide
  apply atFront_of_keyword? hc
  rw [Lexeme.keyword?, h]
  rfl

/-- The words that end a condition are none of those that begin one. -/
theorem atFront_of_closing
    (h : takeKeyword Kind.closingWords (c :: (rest ++ behind)) = some ⟨c :: rest, captures⟩) :
    Lexeme.atFront c (rest ++ behind) = ⟨Kind.keywordEnd, c :: rest, captures⟩ := by
  obtain ⟨hc, hopening⟩ : c ∉ ['"', '=', '$'] ∧
      takeOpening Kind.openingWords (c :: (rest ++ behind)) = none := by
    obtain ⟨w, hfind, htaken⟩ := Option.map_eq_some_iff.mp h
    have hmem := List.mem_of_find?_eq_some hfind
    simp only [Kind.closingWords, List.mem_cons, List.not_mem_nil, or_false] at hmem
    rcases hmem with rfl | rfl | rfl <;>
      · simp only [Taken.mk.injEq, String.reduceToList, List.cons.injEq] at htaken
        obtain ⟨⟨rfl, rfl⟩, -⟩ := htaken
        simp [takeOpening, Kind.openingWords]
  apply atFront_of_keyword? hc
  rw [Lexeme.keyword?, hopening, h]
  rfl

/-- The other words do not start with the same letters as those around conditions. -/
theorem atFront_of_other
    (h : takeKeyword Kind.otherWords (c :: (rest ++ behind)) = some ⟨c :: rest, captures⟩) :
    Lexeme.atFront c (rest ++ behind) = ⟨"OTHERKEYWORDS", c :: rest, captures⟩ := by
  obtain ⟨hc, hopening, hclosing⟩ : c ∉ ['"', '=', '$'] ∧
      takeOpening Kind.openingWords (c :: (rest ++ behind)) = none ∧
      takeKeyword Kind.closingWords (c :: (rest ++ behind)) = none := by
    obtain ⟨w, hfind, htaken⟩ := Option.map_eq_some_iff.mp h
    have hmem := List.mem_of_find?_eq_some hfind
    simp only [Kind.otherWords, List.mem_cons, List.not_mem_nil, or_false] at hmem
    rcases hmem with rfl | rfl <;>
      · simp only [Taken.mk.injEq, String.reduceToList, List.cons.injEq] at htaken
        obtain ⟨⟨rfl, rfl⟩, -⟩ := htaken
        simp [takeOpening, takeKeyword, Kind.openingWords, Kind.closingWords]
  apply atFront_of_keyword? hc
  rw [Lexeme.keyword?, hopening, hclosing, h]
  rfl

theorem atFront_of_number
    (h : takeNumber (c :: (rest ++ behind)) = some ⟨c :: rest, captures⟩) :
    Lexeme.atFront c (rest ++ behind) = ⟨Kind.number, c :: rest, captures⟩ := by
  have hdigit : isDecimalDigit c = true := by
    cases hn : isDecimalDigit c with
    | true => rfl
    | false =>
      rw [takeNumber_of_not hn] at h
      cases h
  have hne : ∀ d, isDecimalDigit d = false → c ≠ d := by
    rintro d hd rfl
    rw [hdigit] at hd
    cases hd
  have hquote : c ≠ '"' := hne _ (by decide +kernel)
  have hequals : c ≠ '=' := hne _ (by decide +kernel)
  have hdollar : c ≠ '$' := hne _ (by decide +kernel)
  have hletters : ['i', 'e', 'w', 'f', 't', 'r', 'c'].all (!isDecimalDigit ·) = true := by
    decide +kernel
  have hkeyword : Lexeme.keyword? (c :: (rest ++ behind)) = none := by
    refine keyword?_of_not fun hmem => ?_
    have hletter := List.all_eq_true.mp hletters c hmem
    rw [hdigit] at hletter
    cases hletter
  simp [Lexeme.atFront, hquote, hequals, hdollar, hkeyword, h, Lexeme.ofTaken]

theorem atFront_of_single {entry : Char × String} (hentry : entry ∈ Kind.singles)
    (h : takeWord (String.ofList [entry.1]) (c :: (rest ++ behind)) = some ⟨c :: rest, captures⟩) :
    Lexeme.atFront c (rest ++ behind) = ⟨entry.2, c :: rest, captures⟩ := by
  have hsingles : ∀ entry ∈ Kind.singles, entry.1 ∉ ['"', '=', '$'] ∧
      entry.1 ∉ ['i', 'e', 'w', 'f', 't', 'r', 'c'] ∧ isDecimalDigit entry.1 = false ∧
      Kind.singles.lookup entry.1 = some entry.2 := by decide +kernel
  obtain ⟨hplain, hletter, hdigit, hlookup⟩ := hsingles entry hentry
  have htaken := taken_of_takeWord h
  simp only [String.toList_ofList, Taken.mk.injEq, List.cons.injEq] at htaken
  obtain ⟨⟨rfl, rfl⟩, rfl⟩ := htaken
  simp only [List.mem_cons, List.not_mem_nil, or_false, not_or] at hplain
  simp [Lexeme.atFront, hplain, keyword?_of_not hletter, takeNumber_of_not hdigit, hlookup]

/-- A token in front of a blank has the kind of any rule that takes all of it. -/
theorem atFront_of_rule {s : Kind.Shape} (hs : s ∈ Kind.shapes) (hbehind : Apart behind)
    (h : s.rule (c :: (rest ++ behind)) = some ⟨c :: rest, captures⟩) :
    Lexeme.atFront c (rest ++ behind) = ⟨s.kind, c :: rest, captures⟩ := by
  simp only [Kind.shapes, List.mem_append, List.mem_cons, List.not_mem_nil, or_false,
    List.mem_map] at hs
  rcases hs with (rfl | rfl | rfl | rfl | rfl | rfl | rfl | rfl | rfl) | ⟨entry, hentry, rfl⟩
  · exact atFront_of_string h
  · exact atFront_of_equals (by decide) hbehind h
  · exact atFront_of_equals (by decide) hbehind h
  · exact atFront_of_variable h
  · exact atFront_of_opening h
  · exact atFront_of_closing h
  · exact atFront_of_other h
  · exact atFront_of_number h
  · exact atFront_of_equals (by decide) hbehind h
  · exact atFront_of_single hentry h

/-! ### Pieces -/

theorem Piece.eq_mk {p : Piece} {l : Lexeme} {index : Option Nat} (hlexeme : p.lexeme = l)
    (hindex : p.index = index) : p = ⟨l.kind, l.captures, index, l.chars⟩ := by
  subst hlexeme hindex
  rfl

theorem Piece.kind_of_lexeme {p : Piece} {l : Lexeme} (h : p.lexeme = l) : p.kind = l.kind :=
  congrArg Lexeme.kind h

theorem Piece.chars_of_lexeme {p : Piece} {l : Lexeme} (h : p.lexeme = l) : p.chars = l.chars :=
  congrArg Lexeme.chars h

theorem kind_toToken (p : Piece) (position : Position) (offset : Nat) :
    (p.toToken position offset).kind = p.kind := rfl

theorem text_toToken (p : Piece) (position : Position) (offset : Nat) :
    (p.toToken position offset).text = String.ofList p.chars := rfl

/-- What is cut off is the front of the text, and not nothing. -/
def Splits (cut : List Char → Piece) : Prop :=
  ∀ c text, isWhite c = false →
    ∃ rest after, text = rest ++ after ∧ (cut (c :: text)).chars = c :: rest

/-- A text is empty, or starts with a blank, or starts with a piece. -/
theorem Splits.induction {cut : List Char → Piece} (hcut : Splits cut) {P : List Char → Prop}
    (nil : P []) (blank : ∀ c text, isWhite c = true → P text → P (c :: text))
    (piece : ∀ c rest after, isWhite c = false →
      (cut (c :: (rest ++ after))).chars = c :: rest → P after → P (c :: (rest ++ after)))
    (text : List Char) : P text := by
  induction hn : text.length using Nat.strongRecOn generalizing text with
  | ind n ih =>
    subst hn
    cases text with
    | nil => exact nil
    | cons c text =>
      by_cases hc : isWhite c = true
      · exact blank c text hc (ih text.length (by simp) text rfl)
      · have hsolid : isWhite c = false := by simpa using hc
        obtain ⟨rest, after, rfl, hchars⟩ := hcut c text hsolid
        have hshorter : after.length < (c :: (rest ++ after)).length := by
          rw [List.length_cons, List.length_append]
          omega
        exact piece c rest after hsolid hchars (ih after.length hshorter after rfl)

theorem splits_frontPiece (r : Registry) : Splits (frontPiece r) := by
  intro c text hc
  obtain ⟨after, htext, hcut⟩ : ∃ after, c :: text = (frontPiece r (c :: text)).chars ++ after ∧ _ :=
    frontPiece_cut r hc .origin 0
  obtain ⟨d, rest, hchars, -⟩ := hcut.solid
  rw [hchars, List.cons_append, List.cons.injEq] at htext
  obtain ⟨rfl, rfl⟩ := htext
  exact ⟨rest, after, rfl, hchars⟩

open Registry

theorem builtin_names_nodup : (Registry.builtin.entries.map Entry.name).Nodup := by
  rw [builtin_entries]
  decide

/-- A kind has one index, however it was found. -/
theorem index_of_name {extent extent' : Extent} {text text' : List Char} {hit hit' : Hit}
    (h : Registry.builtin.first? extent text = some hit)
    (h' : Registry.builtin.first? extent' text' = some hit')
    (hname : hit.entry.name = hit'.entry.name) : hit.index = hit'.index := by
  obtain ⟨i, hi, hentry, -⟩ := firstFrom_eq_some.mp h
  obtain ⟨j, hj, hentry', -⟩ := firstFrom_eq_some.mp h'
  have hlt : i < (Registry.builtin.entries.map Entry.name).length := by
    rw [List.length_map]
    exact (List.getElem?_eq_some_iff.mp hentry).1
  have hij : i = j := by
    apply (List.getElem?_inj hlt builtin_names_nodup).mp
    rw [List.getElem?_map, List.getElem?_map, hentry, hentry', Option.map_some, Option.map_some,
      hname]
  omega

theorem frontPiece_of_known {r : Registry} {text : List Char}
    (h : (frontPiece r text).kind ≠ Kind.unknown) :
    ∃ hit, r.first? .front text = some hit ∧ (frontPiece r text).kind = hit.entry.name ∧
      (frontPiece r text).index = some hit.index := by
  unfold frontPiece at h ⊢
  split
  · rename_i hit hfirst
    simp only [hfirst] at h ⊢
    split
    · exact ⟨hit, rfl, rfl, rfl⟩
    · rename_i hsplit
      simp only [hsplit] at h
      exact absurd rfl h
  · rename_i hfirst
    simp only [hfirst] at h
    exact absurd rfl h

theorem shapes_known : ∀ s ∈ Kind.shapes, s.kind ≠ Kind.unknown := by
  have hkinds : ∀ kind ∈ Kind.shapes.map Kind.Shape.kind, kind ≠ Kind.unknown := by decide
  intro s hs
  exact hkinds s.kind (List.mem_map_of_mem hs)

/-- What a rule takes in front of a blank is the piece that the scanner cuts off there. -/
theorem frontPiece_of_rule {s : Kind.Shape} (hs : s ∈ Kind.shapes) (hbehind : Apart behind)
    (h : s.rule (c :: (rest ++ behind)) = some ⟨c :: rest, captures⟩) :
    ∃ hit, Registry.builtin.first? .front (c :: (rest ++ behind)) = some hit ∧
      hit.entry.name = s.kind ∧
      frontPiece .builtin (c :: (rest ++ behind)) =
        ⟨s.kind, captures, some hit.index, c :: rest⟩ := by
  have hlexeme := (frontPiece_lexeme c (rest ++ behind)).trans (atFront_of_rule hs hbehind h)
  have hkind := Piece.kind_of_lexeme hlexeme
  have hknown : (frontPiece .builtin (c :: (rest ++ behind))).kind ≠ Kind.unknown := by
    rw [hkind]
    exact shapes_known s hs
  obtain ⟨hit, hfirst, hname, hindex⟩ := frontPiece_of_known hknown
  exact ⟨hit, hfirst, hname.symm.trans hkind, Piece.eq_mk hlexeme hindex⟩

/-- A piece of a known kind is cut off again when something else stands behind it. -/
theorem frontPiece_again {after : List Char}
    (hchars : (frontPiece .builtin (c :: (rest ++ after))).chars = c :: rest)
    (hknown : (frontPiece .builtin (c :: (rest ++ after))).kind ≠ Kind.unknown)
    (hbehind : Apart behind) :
    frontPiece .builtin (c :: (rest ++ behind)) = frontPiece .builtin (c :: (rest ++ after)) := by
  have hlexeme := frontPiece_builtin (c :: (rest ++ after))
  cases htaken : firstTaken (c :: (rest ++ after)) Kind.shapes with
  | none =>
    rw [htaken] at hlexeme
    exact absurd (Piece.kind_of_lexeme hlexeme) hknown
  | some l =>
    obtain ⟨s, hs, hmap⟩ := List.exists_of_findSome?_eq_some htaken
    obtain ⟨⟨chars, captures⟩, hrule, rfl⟩ := Option.map_eq_some_iff.mp hmap
    rw [htaken, Option.getD_some] at hlexeme
    have hkind := Piece.kind_of_lexeme hlexeme
    obtain ⟨hit, hfirst, hname, hindex⟩ := frontPiece_of_known hknown
    have hpiece := Piece.eq_mk hlexeme hindex
    obtain rfl : chars = c :: rest := by
      rw [hpiece] at hchars
      exact hchars
    obtain ⟨hit', hfirst', hname', hpiece'⟩ :=
      frontPiece_of_rule hs hbehind (shapes_settled s hs _ _ behind hrule hbehind)
    have hindices : hit'.index = hit.index :=
      index_of_name hfirst' hfirst (hname'.trans (hkind.symm.trans hname))
    rw [hpiece, hpiece', hindices]
    rfl

end Scanner

end DollarScript
