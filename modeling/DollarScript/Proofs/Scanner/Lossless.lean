import DollarScript.Proofs.Scanner.FirstMatch

/-! Scanning loses nothing but blanks, and every token is that of the first kind which matches. -/
namespace DollarScript

open Text

/-- The byte at an offset is in the span. -/
def Span.Covers (s : Span) (offset : Nat) : Prop := s.start ≤ offset ∧ offset < s.stop

/-- A token apart from its line and column. -/
def Token.unplaced (t : Token) : Token := { t with position := .origin }

namespace Scanner

/-- The token has the name of the first kind that offers a match for the text, and the length and
the captures of the first match that it offers. -/
def Known (r : Registry) (text body : List Char) (t : Token) : Prop :=
  ∃ i e m, t.index = some i ∧ r.entries[i]? = some e ∧ e.Offers text m ∧
    (∀ k < i, ∀ e', r.entries[k]? = some e' → e'.Refuses text) ∧
    t.kind = e.name ∧ byteLength body = m.length ∧ t.captures = m.captures

/-- No kind offers a match, and the token is a lone character. -/
structure Unknown (r : Registry) (text body : List Char) (t : Token) : Prop where
  index : t.index = none
  refused : ∀ e ∈ r.entries, e.Refuses text
  kind : t.kind = Kind.unknown
  single : body.length = 1
  captures : t.captures = []

/-- The token is `body`, at the offset, which is not the start of a blank; `after` stands behind. -/
structure Cut (r : Registry) (offset : Nat) (body after : List Char) (t : Token) : Prop where
  span : t.span = ⟨offset, offset + byteLength body⟩
  text : t.text = String.ofList body
  solid : ∃ c rest, body = c :: rest ∧ isWhite c = false
  kind : Known r (body ++ after) body t ∨ Unknown r (body ++ after) body t

/-- The tokens are cut from a text that starts at an offset, in order, and only blanks are left. -/
structure Lossless (r : Registry) (start : Nat) (text : List Char) (ts : List Token) : Prop where
  cut : ∀ t ∈ ts, ∃ before body after, text = before ++ (body ++ after) ∧
    Cut r (start + byteLength before) body after t
  apart : ts.Pairwise fun t u => t.span.start < u.span.start ∧ t.span.stop ≤ u.span.start
  blank : ∀ before c after, text = before ++ c :: after →
    (∀ t ∈ ts, ¬ t.span.Covers (start + byteLength before)) → isWhite c = true

variable {r : Registry} {start offset : Nat} {text body after : List Char} {c : Char}
  {t : Token} {ts : List Token}

theorem Cut.pos (h : Cut r offset body after t) : 0 < byteLength body := by
  obtain ⟨c, rest, rfl, -⟩ := h.solid
  have := c.utf8Size_pos
  simp only [byteLength_cons]
  omega

theorem Lossless.nil (r : Registry) (start : Nat) : Lossless r start [] [] := by
  refine ⟨by simp, by simp, ?_⟩
  intro before c after h
  simp at h

theorem Lossless.eq_nil (h : Lossless r start [] ts) : ts = [] := by
  cases ts with
  | nil => rfl
  | cons t ts =>
    obtain ⟨before, body, after, htext, hcut⟩ := h.cut t List.mem_cons_self
    obtain ⟨c, rest, rfl, -⟩ := hcut.solid
    simp at htext

/-- In front of a blank, tokens lie as they do behind it. -/
theorem lossless_blank (hc : isWhite c = true) :
    Lossless r start (c :: text) ts ↔ Lossless r (start + c.utf8Size) text ts := by
  constructor
  · intro h
    refine ⟨?_, h.apart, ?_⟩
    · intro t ht
      obtain ⟨before, body, after, htext, hcut⟩ := h.cut t ht
      cases before with
      | nil =>
        obtain ⟨d, rest, rfl, hd⟩ := hcut.solid
        cases htext
        rw [hc] at hd
        cases hd
      | cons d before =>
        cases htext
        refine ⟨before, body, after, rfl, ?_⟩
        rwa [byteLength_cons, ← Nat.add_assoc] at hcut
    · intro before d after htext hfree
      refine h.blank (c :: before) d after (by rw [htext, List.cons_append]) ?_
      rwa [byteLength_cons, ← Nat.add_assoc]
  · intro h
    refine ⟨?_, h.apart, ?_⟩
    · intro t ht
      obtain ⟨before, body, after, rfl, hcut⟩ := h.cut t ht
      refine ⟨c :: before, body, after, rfl, ?_⟩
      rwa [byteLength_cons, ← Nat.add_assoc]
    · intro before d after htext hfree
      cases before with
      | nil =>
        cases htext
        exact hc
      | cons e before =>
        cases htext
        rw [byteLength_cons, ← Nat.add_assoc] at hfree
        exact h.blank before d after rfl hfree

theorem Lossless.cons (h : Cut r start body after t)
    (hs : Lossless r (start + byteLength body) after ts) :
    Lossless r start (body ++ after) (t :: ts) := by
  have hpos := h.pos
  refine ⟨?_, ?_, ?_⟩
  · intro u hu
    rcases List.mem_cons.mp hu with rfl | hu
    · exact ⟨[], body, after, rfl, h⟩
    · obtain ⟨before, body', after', rfl, hcut⟩ := hs.cut u hu
      refine ⟨body ++ before, body', after', by simp, ?_⟩
      rwa [byteLength_append, ← Nat.add_assoc]
  · refine List.pairwise_cons.mpr ⟨?_, hs.apart⟩
    intro u hu
    obtain ⟨before, body', after', -, hcut⟩ := hs.cut u hu
    rw [h.span, hcut.span]
    simp only
    omega
  · intro before d after' htext hfree
    rcases List.append_eq_append_iff.mp htext with ⟨more, rfl, hmore⟩ | ⟨more, rfl, hmore⟩
    · -- the character stands behind the token
      refine hs.blank more d after' hmore ?_
      intro u hu
      have hu := hfree u (List.mem_cons_of_mem _ hu)
      rwa [byteLength_append, ← Nat.add_assoc] at hu
    · cases more with
      | nil =>
        refine hs.blank [] d after' hmore.symm ?_
        intro u hu
        have hu := hfree u (List.mem_cons_of_mem _ hu)
        simpa using hu
      | cons e more =>
        -- it stands within the token, which therefore covers it
        cases hmore
        have ht := hfree t List.mem_cons_self
        have := d.utf8Size_pos
        simp only [Span.Covers, h.span, byteLength_append, byteLength_cons] at ht
        omega

/-- What stands first in a text that is no blank belongs to the first token. -/
theorem Lossless.uncons (hc : isWhite c = false) (h : Lossless r start (c :: text) ts) :
    ∃ body after t ts', c :: text = body ++ after ∧ ts = t :: ts' ∧ Cut r start body after t ∧
      Lossless r (start + byteLength body) after ts' := by
  obtain ⟨t, ht, hcovers⟩ : ∃ t ∈ ts, t.span.Covers start := by
    refine Classical.byContradiction fun hno => ?_
    have hblank := h.blank [] c text rfl fun t ht hcov => hno ⟨t, ht, hcov⟩
    rw [hc] at hblank
    cases hblank
  obtain ⟨before, body, after, htext, hcut⟩ := h.cut t ht
  have hbefore : before = [] := by
    rw [hcut.span] at hcovers
    apply byteLength_eq_zero.mp
    have := hcovers.1
    simp only at this
    omega
  subst hbefore
  rw [List.nil_append] at htext
  rw [byteLength_nil, Nat.add_zero] at hcut
  obtain ⟨front, ts', rfl⟩ := List.append_of_mem ht
  have hfront : front = [] := by
    cases front with
    | nil => rfl
    | cons u front =>
      -- a token in front of the first character would have no place
      have hapart := (List.pairwise_cons.mp h.apart).1 t (by simp)
      obtain ⟨before', _, _, -, hu⟩ := h.cut u (by simp)
      rw [hu.span, hcut.span] at hapart
      simp only at hapart
      omega
  subst hfront
  refine ⟨body, after, t, ts', htext, rfl, hcut, ?_, h.apart.of_cons, ?_⟩
  · intro u hu
    obtain ⟨before', body', after', htext', hcut'⟩ := h.cut u (by simp [hu])
    have hapart := (List.pairwise_cons.mp h.apart).1 u hu
    rw [hcut.span, hcut'.span] at hapart
    simp only at hapart
    rcases List.append_eq_append_iff.mp (htext.symm.trans htext') with
      ⟨more, rfl, hmore⟩ | ⟨more, rfl, hmore⟩
    · refine ⟨more, body', after', hmore, ?_⟩
      rwa [byteLength_append, ← Nat.add_assoc] at hcut'
    · have hmore' : more = [] := by
        apply byteLength_eq_zero.mp
        simp only [byteLength_append] at hapart
        omega
      subst hmore'
      refine ⟨[], body', after', hmore.symm, ?_⟩
      simpa using hcut'
  · intro before' d after' htext' hfree
    refine h.blank (body ++ before') d after' (by rw [htext, htext', List.append_assoc]) ?_
    intro u hu hcov
    rw [byteLength_append, ← Nat.add_assoc] at hcov
    rcases List.mem_cons.mp hu with rfl | hu
    · have := hcov.2
      rw [hcut.span] at this
      simp only at this
      omega
    · exact hfree u hu hcov

/-- The piece in front of a text is what stands there, under the kind that comes first. -/
theorem frontPiece_cut (r : Registry) (hc : isWhite c = false) (position : Position)
    (offset : Nat) :
    ∃ after, c :: text = (frontPiece r (c :: text)).chars ++ after ∧
      Cut r offset (frontPiece r (c :: text)).chars after
        ((frontPiece r (c :: text)).toToken position offset) := by
  cases hfirst : r.first? .front (c :: text) with
  | none =>
    have hpiece : frontPiece r (c :: text) = .unknown [c] := by
      simp [frontPiece, hfirst]
    rw [hpiece]
    refine ⟨text, rfl, rfl, rfl, ⟨c, [], rfl, hc⟩, .inr ?_⟩
    exact ⟨rfl, Registry.first?_front_eq_none.mp hfirst, rfl, rfl, rfl⟩
  | some hit =>
    obtain ⟨hentry, hoffers, hleast⟩ := Registry.first?_front_eq_some.mp hfirst
    obtain ⟨hpos, front, back, htext, hlen⟩ := hoffers.split
    have hpiece : frontPiece r (c :: text) =
        ⟨hit.entry.name, hit.found.captures, some hit.index, front⟩ := by
      simp only [frontPiece, hfirst, splitBytes?_eq_some.mpr ⟨htext, hlen⟩]
    rw [hpiece]
    refine ⟨back, htext, rfl, rfl, ?_, .inl ?_⟩
    · cases front with
      | nil =>
        rw [byteLength_nil] at hlen
        omega
      | cons d front =>
        cases htext
        exact ⟨_, _, rfl, hc⟩
    · rw [← htext]
      exact ⟨hit.index, hit.entry, hit.found, rfl, hentry, hoffers, hleast, rfl, hlen, rfl⟩

theorem cutFrom_skip (cut : List Char → Piece) (position : Position) (offset : Nat)
    (body after : List Char) : cutFrom cut body.length position offset (body ++ after) =
      cutFrom cut 0 (position.advance body) (offset + byteLength body) after := by
  induction body generalizing position offset with
  | nil => rfl
  | cons c body ih =>
    rw [List.length_cons, List.cons_append, cutFrom, ih, byteLength_cons, ← Nat.add_assoc]
    rfl

theorem cutFrom_blank (cut : List Char → Piece) (position : Position) (offset : Nat)
    (hc : isWhite c = true) : cutFrom cut 0 position offset (c :: text) =
      cutFrom cut 0 (position.step c) (offset + c.utf8Size) text := by
  rw [cutFrom, if_pos hc]

theorem cutFrom_token {cut : List Char → Piece} {rest : List Char} (position : Position)
    (offset : Nat) (hc : isWhite c = false) (hchars : (cut (c :: text)).chars = c :: rest)
    (htext : text = rest ++ after) :
    cutFrom cut 0 position offset (c :: text) = (cut (c :: text)).toToken position offset ::
      cutFrom cut 0 (position.advance (c :: rest)) (offset + byteLength (c :: rest)) after := by
  have hskip := cutFrom_skip cut (position.step c) (offset + c.utf8Size) rest after
  rw [Nat.add_assoc, ← htext] at hskip
  simp only [cutFrom, hc, Bool.false_eq_true, if_false, hchars, List.length_cons,
    Nat.add_sub_cancel, hskip]
  rfl

theorem mem_cutFrom {cut : List Char → Piece} {text : List Char} {t : Token} {skip : Nat}
    {position : Position} {offset : Nat} (h : t ∈ cutFrom cut skip position offset text) :
    ∃ rest position' offset', t = (cut rest).toToken position' offset' := by
  induction text generalizing skip position offset with
  | nil => cases h
  | cons c text ih =>
    cases skip with
    | succ skip => exact ih h
    | zero =>
      unfold cutFrom at h
      split at h
      · exact ih h
      · rcases List.mem_cons.mp h with rfl | h
        · exact ⟨_, _, _, rfl⟩
        · exact ih h

/-- Cutting goes on behind a blank or behind a token, with nothing in between. -/
theorem cutFrom_lossless (r : Registry) (position : Position) (offset : Nat) (text : List Char) :
    Lossless r offset text (cutFrom (frontPiece r) 0 position offset text) := by
  induction hn : text.length using Nat.strongRecOn generalizing position offset text with
  | ind n ih =>
    subst hn
    cases text with
    | nil => exact .nil r offset
    | cons c text =>
      by_cases hc : isWhite c = true
      · rw [cutFrom_blank _ _ _ hc]
        exact (lossless_blank hc).mpr (ih text.length (by simp) _ _ text rfl)
      · have hc : isWhite c = false := by simpa using hc
        obtain ⟨after, htext, hcut⟩ := frontPiece_cut r hc position offset
        obtain ⟨d, rest, hchars, -⟩ := hcut.solid
        rw [hchars] at htext hcut
        obtain ⟨rfl, hrest⟩ : c = d ∧ text = rest ++ after := by simpa using htext
        rw [cutFrom_token position offset hc hchars hrest]
        have hshorter : after.length < (c :: text).length := by
          rw [hrest, List.length_cons, List.length_append]
          omega
        subst hrest
        exact .cons hcut (ih after.length hshorter _ _ after rfl)

theorem Known.first {text : List Char} (h : Known r text body t) :
    ∃ hit, r.first? .front text = some hit ∧ t.index = some hit.index ∧
      t.kind = hit.entry.name ∧ byteLength body = hit.found.length ∧
      t.captures = hit.found.captures := by
  obtain ⟨i, e, m, hi, he, hm, hleast, hkind, hlen, hcaptures⟩ := h
  exact ⟨⟨i, e, m⟩, Registry.first?_front_eq_some.mpr ⟨he, hm, hleast⟩, hi, hkind, hlen,
    hcaptures⟩

/-- A text has one token at most in front. -/
theorem Cut.unique {body' after' : List Char} {t' : Token} (h : Cut r offset body after t)
    (h' : Cut r offset body' after' t') (htext : body ++ after = body' ++ after') :
    body = body' ∧ after = after' ∧ t.unplaced = t'.unplaced := by
  have hkinds := h'.kind
  rw [← htext] at hkinds
  -- the search of the registry has one outcome, and both tokens report it
  obtain ⟨hsplit, hkind, hcaptures, hindex⟩ : (body = body' ∧ after = after') ∧
      t.kind = t'.kind ∧ t.captures = t'.captures ∧ t.index = t'.index := by
    rcases h.kind with hk | hu <;> rcases hkinds with hk' | hu'
    · obtain ⟨hit, hfirst, hi, hn, hl, hc⟩ := hk.first
      obtain ⟨hit', hfirst', hi', hn', hl', hc'⟩ := hk'.first
      cases hfirst.symm.trans hfirst'
      refine ⟨append_inj_of_byteLength htext (hl.trans hl'.symm), ?_⟩
      exact ⟨hn.trans hn'.symm, hc.trans hc'.symm, hi.trans hi'.symm⟩
    · obtain ⟨hit, hfirst, -⟩ := hk.first
      cases hfirst.symm.trans (Registry.first?_front_eq_none.mpr hu'.refused)
    · obtain ⟨hit, hfirst, -⟩ := hk'.first
      cases hfirst.symm.trans (Registry.first?_front_eq_none.mpr hu.refused)
    · refine ⟨List.append_inj htext (hu.single.trans hu'.single.symm), ?_⟩
      exact ⟨hu.kind.trans hu'.kind.symm, hu.captures.trans hu'.captures.symm,
        hu.index.trans hu'.index.symm⟩
  obtain ⟨rfl, rfl⟩ := hsplit
  refine ⟨rfl, rfl, ?_⟩
  rw [Token.unplaced, Token.unplaced, hkind, hcaptures, hindex, h.text, h'.text, h.span, h'.span]

/-- The conditions leave no choice but of lines and columns. -/
theorem Lossless.unique {us : List Token} (h : Lossless r offset text ts)
    (h' : Lossless r offset text us) :
    ts.map Token.unplaced = us.map Token.unplaced := by
  induction hn : text.length using Nat.strongRecOn generalizing offset text ts us with
  | ind n ih =>
    subst hn
    cases text with
    | nil => rw [h.eq_nil, h'.eq_nil]
    | cons c text =>
      by_cases hc : isWhite c = true
      · exact ih text.length (by simp) ((lossless_blank hc).mp h) ((lossless_blank hc).mp h') rfl
      · have hc : isWhite c = false := by simpa using hc
        obtain ⟨body, after, t, ts, htext, rfl, hcut, hts⟩ := h.uncons hc
        obtain ⟨body', after', u, us, htext', rfl, hcut', hus⟩ := h'.uncons hc
        obtain ⟨rfl, rfl, heq⟩ := hcut.unique hcut' (htext.symm.trans htext')
        have hshorter : after.length < (c :: text).length := by
          obtain ⟨d, rest, rfl, -⟩ := hcut.solid
          rw [htext, List.length_append, List.length_cons]
          omega
        rw [List.map_cons, List.map_cons, heq, ih after.length hshorter hts hus rfl]

end Scanner

open DollarScript.Scanner

/-- Whatever its patterns report, a scan cuts a source into tokens with nothing but blanks between
them, each of the first kind that matches where it starts; and no other list of tokens does so. -/
theorem scan_lossless (r : Registry) (source : List Char) :
    Lossless r 0 source (scan r source).tokens ∧
    (scan r source).eof.span = ⟨byteLength source, byteLength source⟩ ∧
    ∀ ts, Lossless r 0 source ts →
      ts.map Token.unplaced = (scan r source).tokens.map Token.unplaced := by
  have h : Lossless r 0 source (scan r source).tokens := cutFrom_lossless r .origin 0 source
  exact ⟨h, rfl, fun ts hts => hts.unique h⟩

end DollarScript
