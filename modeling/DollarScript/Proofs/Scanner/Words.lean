import DollarScript.Proofs.Scanner.Separation

/-! Where every word is a token by itself, cutting a source word by word and cutting it from the front
come to the same: what a built-in kind matches as a whole, its rule takes from the front. -/
namespace DollarScript

namespace Regex

/-- Behind a match of a whole text nothing may be left. -/
def atEnd : Continuation := fun stop slots =>
  if stop.rest.isEmpty then some (slots.set 1 (some stop.index)) else none

/-- What is noted when the pattern has matched all of a text. -/
def Tree.whole? (body : Tree) (text : List Char) : Option Slots :=
  body.first? atEnd (.origin text) ((List.replicate (2 * (body.groups + 1)) none).set 0 (some 0))

theorem search?_asWhole {body : Tree} (hs : body.steady = true) (text : List Char) :
    (Program.ofTree body.asWhole).search? text = body.whole? text := by
  have hsteady : body.asWhole.steady = true := by
    simp [Tree.asWhole, Tree.steady, Tree.allSteady, hs]
  have hblank : (Program.ofTree body.asWhole).blank =
      List.replicate (2 * (body.groups + 1)) none := by
    simp [Program.blank, Program.ofTree, Tree.asWhole, Tree.groups, Tree.allGroups]
  have hend : (Tree.look .endText).first?
      (fun stop slots => finish stop (slots.set 1 (some stop.index))) = atEnd := by
    funext stop slots
    simp [Look.holds, finish, atEnd]
  rw [Program.search?_ofTree (Tree.anchored_asWhole body) hsteady, hblank]
  simp [Tree.asWhole, Spot.origin, Look.holds, Tree.whole?, hend]

theorem atEnd_eq_some {stop : Spot} {slots found : Slots} :
    atEnd stop slots = some found ↔ stop.rest = [] ∧ slots.set 1 (some stop.index) = found := by
  unfold atEnd
  cases stop.rest with
  | nil => simp
  | cons c rest => simp

theorem eager_atEnd : Eager atEnd := by
  intro spot slots front slots' _ hnone
  unfold atEnd at hnone ⊢
  cases hrest : spot.rest with
  | nil => simp [Spot.past, hrest] at hnone
  | cons c rest => rfl

end Regex

namespace Scanner

open Text Regex

/-- What the tree matches as a whole, the rule takes as a whole, and the groups took the same. -/
def Rule.TakesWhole (rule : Rule) (body : Tree) : Prop :=
  ∀ text slots, body.whole? text = some slots →
    ∃ groups, slots = some 0 :: some text.length :: groups ∧
      rule text = some ⟨text, capturesOf text groups⟩

variable {text : List Char} {words : List String}

theorem eq_of_front {front : List Char} (h : front <+: text)
    (hend : text.drop front.length = []) : front = text := by
  obtain ⟨back, rfl⟩ := h
  rw [List.drop_left] at hend
  rw [hend, List.append_nil]

theorem takesWhole_word (w : String) : (takeWord w).TakesWhole (.word w.toList) := by
  intro text slots h
  rw [Tree.whole?, Tree.first?_word, groups_word] at h
  split at h
  · rename_i hstarts
    obtain ⟨hend, rfl⟩ := atEnd_eq_some.mp h
    obtain rfl := eq_of_front (List.isPrefixOf_iff_prefix.mp hstarts) hend
    exact ⟨[], by simp [Spot.origin], by simp [takeWord, capturesOf, pairs]⟩
  · cases h

theorem takesWhole_string : takeString.TakesWhole stringTree := by
  intro text slots h
  have hgroups : stringTree.groups = 0 := by decide
  rw [Tree.whole?, hgroups] at h
  cases text with
  | nil => simp [stringTree, Spot.origin] at h
  | cons c rest =>
    by_cases hc : c = '"'
    · subst hc
      simp only [stringTree, Spot.origin, Tree.first?_concat_cons, Tree.first?_set_cons,
        CharSet.contains_single, beq_self_eq_true, if_true, Tree.first?_repetition_none, times,
        rounds_string, Option.bind_eq_some_iff] at h
      obtain ⟨body, hbody, h⟩ := h
      obtain ⟨hend, rfl⟩ := atEnd_eq_some.mp h
      obtain rfl := eq_of_front (stringBody?_front hbody) hend
      refine ⟨[], ?_, ?_⟩
      · simp [Nat.add_comm]
      · simp [takeString, hbody, capturesOf, pairs]
    · simp [stringTree, Spot.origin, hc] at h

theorem takesWhole_variable : takeVariable.TakesWhole variableTree := by
  intro text slots h
  have hgroups : variableTree.groups = 0 := by decide
  rw [Tree.whole?, hgroups] at h
  cases text with
  | nil => simp [variableTree, Spot.origin] at h
  | cons c rest =>
    by_cases hc : c = '$'
    · subst hc
      simp only [variableTree, Spot.origin, Tree.first?_concat_cons, Tree.first?_set_cons,
        CharSet.contains_single, beq_self_eq_true, if_true, Tree.first?_concat_nil] at h
      rw [Tree.first?_run _ (eager_atEnd.exhausts nameSet), contains_nameSet] at h
      split at h
      · cases h
      · rename_i hname
        obtain ⟨hend, rfl⟩ := atEnd_eq_some.mp h
        have hall := eq_of_front (List.takeWhile_prefix isNameChar) hend
        refine ⟨[], ?_, ?_⟩
        · simp [hall, Nat.add_comm]
        · rw [hall] at hname
          simp [takeVariable, hall, hname, capturesOf, pairs]
    · simp [variableTree, Spot.origin, hc] at h

/-- A word that is all of the text is found, whichever words are tried before it. -/
theorem takesWhole_keyword (hw : Lettered words)
    (hfind : ∀ w ∈ words, takeKeyword words w.toList = some ⟨w.toList, [some w]⟩) :
    (takeKeyword words).TakesWhole (keywordTree words []) := by
  intro text slots h
  rw [Tree.whole?, first?_keyword hw, groups_keyword words (by decide)] at h
  obtain ⟨w, hmem, h⟩ := List.exists_of_findSome?_eq_some h
  split at h
  · rename_i hstarts
    rw [Bool.and_eq_true] at hstarts
    obtain ⟨hend, rfl⟩ := atEnd_eq_some.mp h
    obtain rfl := eq_of_front (List.isPrefixOf_iff_prefix.mp hstarts.1) hend
    refine ⟨[some 0, some w.toList.length], by simp, ?_⟩
    rw [← capturesOf_word hstarts.1]
    exact hfind w hmem
  · cases h

theorem takesWhole_opening (hw : Lettered words)
    (hfind : ∀ w ∈ words,
      takeOpening words (w.toList ++ [':']) = some ⟨w.toList ++ [':'], [some w]⟩) :
    (takeOpening words).TakesWhole (keywordTree words [.set (.single ':')]) := by
  intro text slots h
  rw [Tree.whole?, first?_keyword hw, groups_keyword words (by decide)] at h
  obtain ⟨w, hmem, h⟩ := List.exists_of_findSome?_eq_some h
  split at h
  · rename_i hstarts
    rw [Bool.and_eq_true] at hstarts
    have hword := capturesOf_word hstarts.1
    obtain ⟨back, rfl⟩ := List.isPrefixOf_iff_prefix.mp hstarts.1
    cases back with
    | nil => simp at h
    | cons c back =>
      simp only [Spot.past_origin, List.drop_left, Tree.first?_concat_cons, Tree.first?_set_cons,
        CharSet.contains_single, Tree.first?_concat_nil] at h
      split at h
      · rename_i hc
        obtain rfl : c = ':' := by simpa using hc
        obtain ⟨rfl, rfl⟩ := atEnd_eq_some.mp h
        refine ⟨[some 0, some w.toList.length], by simp, ?_⟩
        rw [← hword]
        exact hfind w hmem
      · cases h
  · cases h

theorem takesWhole_number : takeNumber.TakesWhole numberTree := by
  intro text slots h
  have hgroups : numberTree.groups = 1 := by decide
  rw [Tree.whole?, hgroups, first?_number eager_atEnd] at h
  dsimp only at h
  split at h
  · cases h
  · rename_i hdigits
    have hsplit := List.takeWhile_append_dropWhile (p := isDecimalDigit) (l := text)
    cases hfraction : fraction? (text.dropWhile isDecimalDigit) with
    | none =>
      rw [hfraction] at h
      obtain ⟨hend, rfl⟩ := atEnd_eq_some.mp h
      have hall := eq_of_front (List.takeWhile_prefix isDecimalDigit) hend
      refine ⟨[none, none], by simp [hall], ?_⟩
      simp only [takeNumber, if_neg hdigits, hfraction]
      rw [hall]
      rfl
    | some fraction =>
      rw [hfraction] at h
      obtain ⟨hend, rfl⟩ := atEnd_eq_some.mp h
      have hback : (text.dropWhile isDecimalDigit).drop fraction.length = [] := by
        rw [← drop_takeWhile]
        exact hend
      have hall := eq_of_front (fraction?_front hfraction) hback
      have htext : text.takeWhile isDecimalDigit ++ fraction = text := by rw [hall, hsplit]
      refine ⟨[some (text.takeWhile isDecimalDigit).length,
        some ((text.takeWhile isDecimalDigit).length + fraction.length)], ?_, ?_⟩
      · have hlength : (text.takeWhile isDecimalDigit).length + fraction.length = text.length := by
          rw [← List.length_append, htext]
        simp [hlength]
      · rw [← capturesOf_fraction hfraction]
        simp only [takeNumber, if_neg hdigits, hfraction, htext]

theorem takesWhole_shape_word (kind w : String) : (Kind.Shape.word kind w).tree.steady = true ∧
    (Kind.Shape.word kind w).rule.TakesWhole (Kind.Shape.word kind w).tree :=
  ⟨steady_word _, takesWhole_word w⟩

theorem shapes_takeWhole : ∀ s ∈ Kind.shapes, s.tree.steady = true ∧ s.rule.TakesWhole s.tree := by
  intro s hs
  simp only [Kind.shapes, List.mem_append, List.mem_cons, List.not_mem_nil, or_false,
    List.mem_map] at hs
  rcases hs with (rfl | rfl | rfl | rfl | rfl | rfl | rfl | rfl | rfl) | ⟨entry, -, rfl⟩
  · exact ⟨by decide, takesWhole_string⟩
  · exact takesWhole_shape_word _ _
  · exact takesWhole_shape_word _ _
  · exact ⟨by decide, takesWhole_variable⟩
  · exact ⟨steady_keyword _ (by decide), takesWhole_opening (by decide +kernel) (by decide)⟩
  · exact ⟨steady_keyword _ (by decide), takesWhole_keyword (by decide +kernel) (by decide)⟩
  · exact ⟨steady_keyword _ (by decide), takesWhole_keyword (by decide +kernel) (by decide)⟩
  · exact ⟨by decide, takesWhole_number⟩
  · exact takesWhole_shape_word _ _
  · exact takesWhole_shape_word _ _

/-- A match of a whole word is what the rule takes from the word. -/
theorem rule_of_matchWhole {s : Kind.Shape} (hs : s ∈ Kind.shapes) {source : String} {m : Match}
    (h : (Pattern.ofTree source s.tree).matchWhole text = some m) :
    s.rule text = some ⟨text, m.captures⟩ := by
  obtain ⟨hsteady, hwhole⟩ := shapes_takeWhole s hs
  obtain ⟨found, hfound, rfl⟩ := Option.map_eq_some_iff.mp h
  rw [find?, search?_asWhole hsteady] at hfound
  obtain ⟨slots, hslots, hfound⟩ := Option.bind_eq_some_iff.mp hfound
  obtain ⟨groups, rfl, hrule⟩ := hwhole text slots hslots
  obtain rfl := Option.some.inj hfound
  exact hrule

/-! ### Pieces -/

open Registry

/-- A kind that matches a whole word takes it by its rule. -/
theorem shape_of_first? {hit : Hit} (h : Registry.builtin.first? .whole text = some hit) :
    ∃ s ∈ Kind.shapes, hit.entry.name = s.kind ∧ s.rule text = some ⟨text, hit.found.captures⟩ := by
  obtain ⟨i, -, hentry, hmatch, -⟩ := firstFrom_eq_some.mp h
  rw [builtin_entries, List.getElem?_zipWith_eq_some] at hentry
  obtain ⟨e, s, -, hs, heq⟩ := hentry
  have hmem := List.mem_of_getElem? hs
  rw [← heq] at hmatch ⊢
  have hwhole : (Pattern.ofTree e.pattern s.tree).matchWhole text = some hit.found := by
    simpa [Entry.match?, entryOf, Pattern.match?] using hmatch
  exact ⟨s, hmem, rfl, rule_of_matchWhole hmem hwhole⟩

theorem chars_wordPiece (r : Registry) (text : List Char) :
    (wordPiece r text).chars = text.takeWhile fun c => !isWhite c := by
  unfold wordPiece
  dsimp only
  split <;> rfl

variable {c : Char}

/-- A word starts with the character that stands first and ends in front of a blank. -/
theorem word_split (hc : isWhite c = false) (text : List Char) :
    ∃ rest behind, text = rest ++ behind ∧ Apart behind ∧
      ((c :: text).takeWhile fun c => !isWhite c) = c :: rest := by
  refine ⟨text.takeWhile fun c => !isWhite c, text.dropWhile fun c => !isWhite c,
    List.takeWhile_append_dropWhile.symm, ?_, by simp [hc]⟩
  intro d hd
  rw [← List.find?_eq_head?_dropWhile_not] at hd
  exact List.find?_some hd

theorem splits_wordPiece (r : Registry) : Splits (wordPiece r) := by
  intro c text hc
  obtain ⟨rest, behind, htext, -, hword⟩ := word_split hc text
  exact ⟨rest, behind, htext, by rw [chars_wordPiece, hword]⟩

theorem wordPiece_of_known {r : Registry} {text word : List Char}
    (hword : (text.takeWhile fun c => !isWhite c) = word)
    (hknown : (wordPiece r text).kind ≠ Kind.unknown) :
    ∃ hit, r.first? .whole word = some hit ∧
      wordPiece r text = ⟨hit.entry.name, hit.found.captures, some hit.index, word⟩ := by
  subst hword
  unfold wordPiece at hknown ⊢
  dsimp only at hknown ⊢
  split at hknown
  · rename_i hit hfirst
    exact ⟨hit, hfirst, rfl⟩
  · exact absurd rfl hknown

/-- A word of a known kind is also what is cut off from the front. -/
theorem wordPiece_eq_frontPiece {text : List Char} (hc : isWhite c = false)
    (hknown : (wordPiece .builtin (c :: text)).kind ≠ Kind.unknown) :
    wordPiece .builtin (c :: text) = frontPiece .builtin (c :: text) := by
  obtain ⟨rest, behind, rfl, hbehind, hword⟩ := word_split hc text
  obtain ⟨hit, hfirst, hpiece⟩ := wordPiece_of_known hword hknown
  obtain ⟨s, hs, hname, hrule⟩ := shape_of_first? hfirst
  obtain ⟨hit', hfirst', hname', hpiece'⟩ :=
    frontPiece_of_rule hs hbehind (shapes_settled s hs _ _ behind hrule hbehind)
  have hindex : hit.index = hit'.index := index_of_name hfirst hfirst' (hname.trans hname'.symm)
  rw [hpiece, hpiece', hname, hindex]

/-- As long as the words are of known kinds, both ways to cut go on at the same places. -/
theorem cutFrom_words (position : Position) (offset : Nat) (text : List Char)
    (hknown : ∀ t ∈ cutFrom (wordPiece .builtin) 0 position offset text, t.kind ≠ Kind.unknown) :
    cutFrom (frontPiece .builtin) 0 position offset text =
      cutFrom (wordPiece .builtin) 0 position offset text := by
  induction text using (splits_wordPiece .builtin).induction generalizing position offset with
  | nil => simp only [cutFrom]
  | blank c text hc ih =>
    rw [cutFrom_blank _ _ _ hc] at hknown ⊢
    rw [cutFrom_blank _ _ _ hc]
    exact ih _ _ hknown
  | piece c rest after hc hchars ih =>
    rw [cutFrom_token position offset hc hchars rfl] at hknown ⊢
    have hkind := hknown _ List.mem_cons_self
    rw [kind_toToken] at hkind
    have hpiece := wordPiece_eq_frontPiece hc hkind
    have hothers := ih _ _ fun t ht => hknown t (List.mem_cons_of_mem _ ht)
    rw [hpiece] at hchars ⊢
    rw [cutFrom_token position offset hc hchars rfl, hothers]

end Scanner

open Scanner

/-- Both ways to scan agree where both apply: if every word of a source is of a known kind, then
cutting from the front gives the same tokens at the same places. -/
theorem tokens_eq_words (source : List Char)
    (hknown : ∀ t ∈ words .builtin source, t.isUnknown = false) :
    tokens .builtin source = words .builtin source := by
  apply cutFrom_words
  intro t ht
  simpa [Token.isUnknown, Token.is] using hknown t ht

theorem tokens_eq_words_of_assignment :
    (words .builtin "$x =\n\"a\" == 3.5".toList).length = 5 ∧
    tokens .builtin "$x =\n\"a\" == 3.5".toList = words .builtin "$x =\n\"a\" == 3.5".toList := by
  obtain ⟨hlength, hknown⟩ : (words .builtin "$x =\n\"a\" == 3.5".toList).length = 5 ∧
      ∀ t ∈ words .builtin "$x =\n\"a\" == 3.5".toList, t.isUnknown = false := by
    rw [Registry.builtin_eq]
    decide +kernel
  exact ⟨hlength, tokens_eq_words _ hknown⟩

end DollarScript
