import DollarScript.Proofs.Scanner.Unmatched
import DollarScript.Proofs.Scanner.Words

/-! Cutting a source word by word gives one token for each longest run of characters that are no
blanks, under the first kind that matches the whole run. -/
namespace DollarScript

open Text

/-- A longest run of characters that are no blanks, with what stands before and behind it. -/
structure Text.WordAt (source before word after : List Char) : Prop where
  split : source = before ++ (word ++ after)
  nonempty : word ≠ []
  solid : ∀ c ∈ word, isWhite c = false
  starts : ∀ c ∈ before.getLast?, isWhite c = true
  ends : ∀ c ∈ after.head?, isWhite c = true

/-- Called on the word, the first pattern that matches the whole of it reports this match. -/
def Entry.MatchesWhole (e : Entry) (word : List Char) (m : Match) : Prop :=
  ∃ before p after, e.patterns = before ++ p :: after ∧ p.matchWhole word = some m ∧
    ∀ q ∈ before, q.matchWhole word = none

/-- None of the patterns matches the whole word. -/
def Entry.RefusesWhole (e : Entry) (word : List Char) : Prop :=
  ∀ p ∈ e.patterns, p.matchWhole word = none

namespace Scanner

/-- The token is the word at the offset. It is of the first kind that matches the whole word, or of
none if there is no such kind. -/
structure OfWord (r : Registry) (offset : Nat) (word : List Char) (t : Token) : Prop where
  text : t.text = String.ofList word
  span : t.span = ⟨offset, offset + byteLength word⟩
  kind : (∃ i e m, t.index = some i ∧ r.entries[i]? = some e ∧ e.MatchesWhole word m ∧
      (∀ k < i, ∀ e', r.entries[k]? = some e' → e'.RefusesWhole word) ∧
      t.kind = e.name ∧ t.captures = m.captures) ∨
    (t.index = none ∧ (∀ e ∈ r.entries, e.RefusesWhole word) ∧ t.kind = Kind.unknown ∧
      t.captures = [])

/-- The tokens are those of the words of a text that starts at an offset, in order. -/
structure ByWords (r : Registry) (offset : Nat) (text : List Char) (ts : List Token) : Prop where
  sound : ∀ t ∈ ts, ∃ before word after, WordAt text before word after ∧
    OfWord r (offset + byteLength before) word t
  complete : ∀ before word after, WordAt text before word after →
    ∃ t ∈ ts, OfWord r (offset + byteLength before) word t
  ordered : ts.Pairwise fun t u => t.span.stop < u.span.start

end Scanner

namespace Text

variable {c : Char} {text before word after behind : List Char}

theorem not_wordAt_nil : ¬ WordAt [] before word after := by
  intro h
  have hsplit := h.split
  simp only [List.nil_eq, List.append_eq_nil_iff] at hsplit
  exact h.nonempty hsplit.2.1

/-- No word starts with a blank, and behind a blank one may start. -/
theorem wordAt_blank (hc : isWhite c = true) :
    WordAt (c :: text) before word after ↔
      ∃ before', before = c :: before' ∧ WordAt text before' word after := by
  constructor
  · rintro ⟨hsplit, hne, hsolid, hstarts, hends⟩
    cases before with
    | nil =>
      cases word with
      | nil => exact absurd rfl hne
      | cons d word =>
        cases hsplit
        rw [hsolid c List.mem_cons_self] at hc
        cases hc
    | cons d before =>
      cases hsplit
      refine ⟨before, rfl, rfl, hne, hsolid, ?_, hends⟩
      by_cases hbefore : before = []
      · simp [hbefore]
      · rwa [← List.getLast?_append_of_ne_nil [c] hbefore]
  · rintro ⟨before, rfl, hsplit, hne, hsolid, hstarts, hends⟩
    refine ⟨by rw [hsplit]; rfl, hne, hsolid, ?_, hends⟩
    by_cases hbefore : before = []
    · simpa [hbefore] using hc
    · rwa [← List.singleton_append, List.getLast?_append_of_ne_nil [c] hbefore]

/-- A word in front is the first, and the others are those of what stands behind it. -/
theorem wordAt_append (h : WordAt (word ++ behind) [] word behind) {word' : List Char} :
    WordAt (word ++ behind) before word' after ↔
      (before = [] ∧ word' = word ∧ after = behind) ∨
      ∃ before', before = word ++ before' ∧ WordAt behind before' word' after := by
  constructor
  · rintro ⟨hsplit, hne, hsolid, hstarts, hends⟩
    by_cases hbefore : before = []
    · -- two words at one place end at the same blank
      subst hbefore
      obtain ⟨rfl, rfl⟩ := run_unique (p := fun c => !isWhite c) (by simpa using h.solid)
        (Scanner.Apart.stops h.ends fun c hc => by simp [hc]) (by simpa using hsolid)
        (Scanner.Apart.stops hends fun c hc => by simp [hc]) hsplit
      exact .inl ⟨rfl, rfl, rfl⟩
    · right
      rcases List.append_eq_append_iff.mp hsplit with ⟨more, rfl, hmore⟩ | ⟨more, rfl, -⟩
      · refine ⟨more, rfl, hmore, hne, hsolid, ?_, hends⟩
        by_cases hnil : more = []
        · simp [hnil]
        · rwa [← List.getLast?_append_of_ne_nil word hnil]
      · -- it would start within the first word, behind a character that is no blank
        have hlast := hstarts _ (List.getLast_mem_getLast? hbefore)
        rw [h.solid _ (by simp [List.getLast_mem hbefore])] at hlast
        cases hlast
  · rintro (⟨rfl, rfl, rfl⟩ | ⟨before', rfl, hbehind⟩)
    · exact h
    · refine ⟨by rw [hbehind.split, List.append_assoc], hbehind.nonempty, hbehind.solid, ?_,
        hbehind.ends⟩
      have hne : before' ≠ [] := by
        rintro rfl
        -- what stands behind the first word starts with a blank
        obtain ⟨c, rest, hword⟩ := List.exists_cons_of_ne_nil hbehind.nonempty
        have hblank := h.ends c (by rw [hbehind.split, hword]; rfl)
        rw [hbehind.solid c (by simp [hword])] at hblank
        cases hblank
      rw [List.getLast?_append_of_ne_nil word hne]
      exact hbehind.starts

end Text

open Registry

variable {word text : List Char} {m : Match} {r : Registry}

theorem Entry.match?_whole_eq_some {e : Entry} :
    e.match? .whole word = some m ↔ e.MatchesWhole word m := by
  simp only [Entry.match?, List.findSome?_eq_some_iff, Pattern.match?, Entry.MatchesWhole]

theorem Entry.match?_whole_eq_none {e : Entry} :
    e.match? .whole word = none ↔ e.RefusesWhole word := by
  simp only [Entry.match?, List.findSome?_eq_none_iff, Pattern.match?, Entry.RefusesWhole]

namespace Scanner

variable {offset : Nat} {ts : List Token} {c : Char} {t u : Token}

/-- The search of the registry is for the whole word. -/
theorem ofWord_wordPiece (r : Registry) (position : Position) (offset : Nat)
    (hword : (text.takeWhile fun c => !isWhite c) = word) :
    OfWord r offset word ((wordPiece r text).toToken position offset) := by
  subst hword
  have hchars := chars_wordPiece r text
  refine ⟨?_, ?_, ?_⟩
  · rw [text_toToken, hchars]
  · simp only [Piece.toToken, hchars]
  · cases hfirst : r.first? .whole (text.takeWhile fun c => !isWhite c) with
    | none =>
      right
      simp only [wordPiece, hfirst, Piece.unknown, Piece.toToken]
      refine ⟨trivial, ?_, trivial, trivial⟩
      simpa only [first?, firstFrom_eq_none, Entry.match?_whole_eq_none] using hfirst
    | some hit =>
      left
      simp only [wordPiece, hfirst, Piece.toToken]
      obtain ⟨i, hi, hentry, hfound, hbefore⟩ := firstFrom_eq_some.mp hfirst
      rw [Nat.zero_add] at hi
      refine ⟨hit.index, hit.entry, hit.found, rfl, hi ▸ hentry,
        Entry.match?_whole_eq_some.mp hfound, ?_, rfl, rfl⟩
      intro k hk e' he'
      exact Entry.match?_whole_eq_none.mp (hbefore k (hi ▸ hk) e' he')

theorem ByWords.nil (r : Registry) (offset : Nat) : ByWords r offset [] [] :=
  ⟨by simp, fun _ _ _ h => absurd h not_wordAt_nil, .nil⟩

theorem ByWords.blank (hc : isWhite c = true) (h : ByWords r (offset + c.utf8Size) text ts) :
    ByWords r offset (c :: text) ts := by
  have hplace : ∀ before,
      offset + byteLength (c :: before) = offset + c.utf8Size + byteLength before := by
    intro before
    rw [byteLength_cons, Nat.add_assoc]
  refine ⟨?_, ?_, h.ordered⟩
  · intro t ht
    obtain ⟨before, word, after, hat, hof⟩ := h.sound t ht
    exact ⟨c :: before, word, after, (wordAt_blank hc).mpr ⟨before, rfl, hat⟩,
      by rwa [hplace]⟩
  · intro before word after hat
    obtain ⟨before, rfl, hlater⟩ := (wordAt_blank hc).mp hat
    rw [hplace]
    exact h.complete before word after hlater

theorem ByWords.cons {behind : List Char} (hat : WordAt (word ++ behind) [] word behind)
    (ht : OfWord r offset word t) (h : ByWords r (offset + byteLength word) behind ts) :
    ByWords r offset (word ++ behind) (t :: ts) := by
  have hplace : ∀ before,
      offset + byteLength (word ++ before) = offset + byteLength word + byteLength before := by
    intro before
    rw [byteLength_append, Nat.add_assoc]
  refine ⟨?_, ?_, List.pairwise_cons.mpr ⟨?_, h.ordered⟩⟩
  · intro u hu
    rcases List.mem_cons.mp hu with rfl | hu
    · exact ⟨[], word, behind, hat, ht⟩
    · obtain ⟨before, word', after, hat', hof⟩ := h.sound u hu
      exact ⟨word ++ before, word', after, (wordAt_append hat).mpr (.inr ⟨before, rfl, hat'⟩),
        by rwa [hplace]⟩
  · intro before word' after hat'
    rcases (wordAt_append hat).mp hat' with ⟨rfl, rfl, rfl⟩ | ⟨before, rfl, hlater⟩
    · exact ⟨t, List.mem_cons_self, ht⟩
    · obtain ⟨u, hu, hof⟩ := h.complete before word' after hlater
      rw [hplace]
      exact ⟨u, List.mem_cons_of_mem _ hu, hof⟩
  · intro u hu
    obtain ⟨before, word', after, hat', hof⟩ := h.sound u hu
    -- a blank stands between a word and the next
    have hne : before ≠ [] := by
      rintro rfl
      have hfirst := (wordAt_append hat).mpr (.inr ⟨[], rfl, hat'⟩)
      have hblank := hfirst.starts
      rw [List.append_nil] at hblank
      have hlast := hblank _ (List.getLast_mem_getLast? hat.nonempty)
      rw [hat.solid _ (List.getLast_mem hat.nonempty)] at hlast
      cases hlast
    have hpos : byteLength before ≠ 0 := fun hzero => hne (byteLength_eq_zero.mp hzero)
    rw [ht.span, hof.span]
    simp only
    omega

/-- Behind a word the next is looked for from the blank on that ends it. -/
theorem cutFrom_byWords (r : Registry) (position : Position) (offset : Nat) (text : List Char) :
    ByWords r offset text (cutFrom (wordPiece r) 0 position offset text) := by
  induction hn : text.length using Nat.strongRecOn generalizing position offset text with
  | ind n ih =>
    subst hn
    cases text with
    | nil => exact .nil r offset
    | cons c text =>
      by_cases hc : isWhite c = true
      · rw [cutFrom_blank _ _ _ hc]
        exact .blank hc (ih text.length (by simp) _ _ text rfl)
      · have hc : isWhite c = false := by simpa using hc
        obtain ⟨rest, behind, rfl, hbehind, hword⟩ := word_split hc text
        have hchars : (wordPiece r (c :: (rest ++ behind))).chars = c :: rest := by
          rw [chars_wordPiece, hword]
        have hsolid : ∀ d ∈ c :: rest, isWhite d = false := by
          intro d hd
          rw [← hword] at hd
          simpa using List.mem_takeWhile_imp hd
        have hat : WordAt (c :: rest ++ behind) [] (c :: rest) behind :=
          ⟨rfl, List.cons_ne_nil _ _, hsolid, by simp, hbehind⟩
        have hshorter : behind.length < (c :: (rest ++ behind)).length := by
          rw [List.length_cons, List.length_append]
          omega
        rw [cutFrom_token position offset hc hchars rfl]
        exact .cons hat (ofWord_wordPiece r position offset hword)
          (ih behind.length hshorter _ _ behind rfl)

/-- One of two tokens would end before the other starts. -/
theorem ByWords.unique (h : ByWords r offset text ts) (ht : t ∈ ts) (hu : u ∈ ts)
    {start : Nat} (htword : OfWord r start word t) (huword : OfWord r start word u) : t = u := by
  obtain ⟨i, hi, rfl⟩ := List.mem_iff_getElem.mp ht
  obtain ⟨j, hj, rfl⟩ := List.mem_iff_getElem.mp hu
  have hordered := List.pairwise_iff_getElem.mp h.ordered
  rcases Nat.lt_trichotomy i j with hlt | heq | hlt
  · have hapart := hordered i j hi hj hlt
    rw [htword.span, huword.span] at hapart
    simp only at hapart
    omega
  · simp only [heq]
  · have hapart := hordered j i hj hi hlt
    rw [htword.span, huword.span] at hapart
    simp only at hapart
    omega

end Scanner

open DollarScript.Scanner

/-- Each token is that of a word of the source, each word has exactly one token, and tokens stand in
the order of their words. -/
theorem words_exact (r : Registry) (source : List Char) :
    (∀ t ∈ words r source, ∃ before word after, WordAt source before word after ∧
      OfWord r (byteLength before) word t) ∧
    (∀ before word after, WordAt source before word after →
      ∃! t, t ∈ words r source ∧ OfWord r (byteLength before) word t) ∧
    (words r source).Pairwise fun t u => t.span.stop < u.span.start := by
  have h : ByWords r 0 source (words r source) := cutFrom_byWords r .origin 0 source
  refine ⟨?_, ?_, h.ordered⟩
  · intro t ht
    obtain ⟨before, word, after, hat, hof⟩ := h.sound t ht
    rw [Nat.zero_add] at hof
    exact ⟨before, word, after, hat, hof⟩
  · intro before word after hat
    obtain ⟨t, ht, hof⟩ := h.complete before word after hat
    rw [Nat.zero_add] at hof
    refine ⟨t, ⟨ht, hof⟩, ?_⟩
    rintro u ⟨hu, huof⟩
    exact h.unique hu ht huof hof

end DollarScript
