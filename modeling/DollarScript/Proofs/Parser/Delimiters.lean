import DollarScript.Proofs.Parser.Acceptance
import Mathlib.Data.List.ReduceOption

/-! Delimiters carry no meaning: a program may be written with any of them behind its tests, or with
none, and stays the same program for a parser that is told so. -/
namespace DollarScript

namespace Parser

variable {delimiter delimiter' : Option String} {sym : Symbol}

/-- The tokens of a derivation but for its delimiters, with a mark behind each test. -/
def Derivation.outline : {sym : Symbol} → Derivation delimiter sym → List (Option Token)
  | _, .number t _ _ => [some t.val]
  | _, .var t => [some t.val]
  | _, .bracketed opener inner closer =>
    some opener.val :: (inner.outline ++ [some closer.val])
  | _, .chain first more => first.outline ++ more.outline
  | _, .last => []
  | _, .further _ _ sign operand more => some sign.val :: (operand.outline ++ more.outline)
  | _, .plain e => e.outline
  | _, .comparison left _ _ sign right => left.outline ++ some sign.val :: right.outline
  | _, .assignment target sign value => some target.val :: some sign.val :: value.outline
  | _, .block opener body closer => some opener.val :: (body.outline ++ [some closer.val])
  | _, .alone keyword test _ consequent ending =>
    some keyword.val :: (test.outline ++ none :: (consequent.outline ++
      (ending.toList.map (·.val)).map some))
  | _, .branched keyword test _ consequent other alternate ending =>
    some keyword.val :: (test.outline ++ none :: (consequent.outline ++
      some other.val :: (alternate.outline ++ (ending.toList.map (·.val)).map some)))
  | _, .ofConditional s => s.outline
  | _, .ofAssignment s => s.outline
  | _, .ofBlock s => s.outline
  | _, .nil => []
  | _, .cons s rest => s.outline ++ rest.outline
  | _, .program body eof => body.outline ++ [some eof.val]

/-- The tokens of an outline, with a delimiter at each of its marks where one is asked for. -/
inductive Fills (delimiter : Option String) : List (Option Token) → List Token → Prop
  | nil : Fills delimiter [] []
  | token {t marked ts} : Fills delimiter marked ts → Fills delimiter (some t :: marked) (t :: ts)
  | mark {ds marked ts} : ds.map Token.kind = delimiter.toList → Fills delimiter marked ts →
      Fills delimiter (none :: marked) (ds ++ ts)

namespace Fills

variable {marked marked' : List (Option Token)} {ts us : List Token}

theorem append (h : Fills delimiter marked ts) (h' : Fills delimiter marked' us) :
    Fills delimiter (marked ++ marked') (ts ++ us) := by
  induction h with
  | nil => exact h'
  | token _ ih => exact .token ih
  | mark hd _ ih =>
    rw [List.append_assoc]
    exact .mark hd ih

theorem tokens (ts : List Token) : Fills delimiter (ts.map some) ts := by
  induction ts with
  | nil => exact .nil
  | cons t ts ih => exact .token ih

theorem of_append (h : Fills delimiter (marked ++ marked') us) :
    ∃ ts ts', us = ts ++ ts' ∧ Fills delimiter marked ts ∧ Fills delimiter marked' ts' := by
  induction marked generalizing us with
  | nil => exact ⟨[], us, rfl, .nil, h⟩
  | cons m marked ih =>
    cases h with
    | token h =>
      obtain ⟨ts, ts', rfl, hts, hts'⟩ := ih h
      exact ⟨_ :: ts, ts', rfl, .token hts, hts'⟩
    | @mark ds _ _ hd h =>
      obtain ⟨ts, ts', rfl, hts, hts'⟩ := ih h
      exact ⟨ds ++ ts, ts', (List.append_assoc ..).symm, .mark hd hts, hts'⟩

theorem of_tokens (ts : List Token) (h : Fills delimiter (ts.map some) us) : us = ts := by
  induction ts generalizing us with
  | nil =>
    cases h
    rfl
  | cons t ts ih =>
    cases h with
    | token h => rw [ih h]

theorem of_token {t : Token} (h : Fills delimiter (some t :: marked) us) :
    ∃ ts, us = t :: ts ∧ Fills delimiter marked ts := by
  cases h with
  | token h => exact ⟨_, rfl, h⟩

theorem of_mark (h : Fills delimiter (none :: marked) us) :
    ∃ (delim : { ds : List Token // ds.map Token.kind = delimiter.toList }) (ts : List Token),
      us = delim.val ++ ts ∧ Fills delimiter marked ts := by
  cases h with
  | mark hd h => exact ⟨⟨_, hd⟩, _, rfl, h⟩

/-- Where no delimiter is asked for, the marks are left out. -/
theorem undelimited : ∀ marked, Fills none marked marked.reduceOption
  | [] => .nil
  | some _ :: marked => .token (undelimited marked)
  | none :: marked => @mark none [] _ _ rfl (undelimited marked)

end Fills

variable {marked : List (Option Token)} {ts us : List Token}

/-- What a derivation spells is its outline with the delimiters. -/
theorem Derivation.fills (d : Derivation delimiter sym) : Fills delimiter d.outline d.yield := by
  induction d with
  | number | var => exact .token .nil
  | last | nil => exact .nil
  | bracketed _ _ _ ih | block _ _ _ ih => exact .token (ih.append (.token .nil))
  | chain _ _ ih ih' | cons _ _ ih ih' => exact ih.append ih'
  | further _ _ _ _ _ ih ih' => exact .token (ih.append ih')
  | plain _ ih | ofConditional _ ih | ofAssignment _ ih | ofBlock _ ih => exact ih
  | comparison _ _ _ _ _ ih ih' => exact ih.append (.token ih')
  | assignment _ _ _ ih => exact .token (.token ih)
  | alone _ _ delim _ ending iht ihc =>
    exact .token (iht.append (.mark delim.2 (ihc.append (.tokens _))))
  | branched _ _ delim _ _ _ ending iht ihc iha =>
    exact .token (iht.append (.mark delim.2 (ihc.append (.token (iha.append (.tokens _))))))
  | program _ _ ih => exact ih.append (.token .nil)

/-- No mark comes first. -/
theorem Derivation.outline_head? (d : Derivation delimiter sym) :
    d.outline.head? = d.yield.head?.map some := by
  induction d with
  | chain _ _ ih ih' | cons _ _ ih ih' =>
    simp only [outline, yield, List.head?_append, ih, ih', Option.map_or]
  | comparison _ _ _ _ _ ih _ =>
    simp only [outline, yield, List.head?_append, ih, List.head?_cons, Option.map_or,
      Option.map_some]
  | program _ _ ih =>
    simp only [outline, yield, List.head?_append, ih, List.head?_cons, Option.map_or,
      Option.map_some]
  | plain _ ih | ofConditional _ ih | ofAssignment _ ih | ofBlock _ ih => exact ih
  | _ => rfl

/-- The second derivation spells the tokens, which have the outline of the first; it stands for the
same tree, opens as many brackets, and leaves no more `else` behind. -/
structure Derivation.Refilled (d : Derivation delimiter sym) (us : List Token)
    (d' : Derivation delimiter' sym) : Prop where
  spelled : d'.yield = us
  outline : d'.outline = d.outline
  depth : d'.depth = d.depth
  tree : d'.tree = d.tree
  settled : ∀ t, d.ElseTaken t → d'.ElseTaken t

theorem Derivation.Refilled.head? {d : Derivation delimiter sym} {d' : Derivation delimiter' sym}
    (h : d.Refilled us d') : d'.yield.head? = d.yield.head? := by
  have hmap : d'.yield.head?.map some = d.yield.head?.map some := by
    rw [← d'.outline_head?, ← d.outline_head?, h.outline]
  exact Option.map_injective (fun _ _ => Option.some.inj) hmap

/-- The tokens may be given any delimiters. -/
def Derivation.Refillable (delimiter' : Option String) (d : Derivation delimiter sym) : Prop :=
  ∀ us, Fills delimiter' d.outline us → ∃ d' : Derivation delimiter' sym, d.Refilled us d'

theorem bracketed_refillable {opener : Terminal Kind.openSquare}
    {inner : Derivation delimiter (.expr (.chain .sum))} {closer : Terminal Kind.closeSquare}
    (ih : inner.Refillable delimiter') :
    (Derivation.bracketed opener inner closer).Refillable delimiter' := by
  intro us h
  simp only [Derivation.outline] at h
  obtain ⟨_, rfl, hrest⟩ := h.of_token
  obtain ⟨ts, _, rfl, hinner, hclose⟩ := hrest.of_append
  cases Fills.of_tokens [closer.val] hclose
  obtain ⟨inner', hi⟩ := ih ts hinner
  refine ⟨.bracketed opener inner' closer, ?_, ?_, ?_, hi.tree, fun _ _ => trivial⟩
  · simp only [Derivation.yield, hi.spelled]
  · simp only [Derivation.outline, hi.outline]
  · simp only [Derivation.depth, hi.depth]

theorem chain_refillable {layer : Layer} {first : Derivation delimiter (.expr layer.operandRank)}
    {more : Derivation delimiter (.further layer)} (ihf : first.Refillable delimiter')
    (ihm : more.Refillable delimiter') : (Derivation.chain first more).Refillable delimiter' := by
  intro us h
  obtain ⟨ts, ts', rfl, hf, hm⟩ := Fills.of_append h
  obtain ⟨first', hf⟩ := ihf ts hf
  obtain ⟨more', hm⟩ := ihm ts' hm
  refine ⟨.chain first' more', ?_, ?_, ?_, ?_, fun _ _ => trivial⟩
  · simp only [Derivation.yield, hf.spelled, hm.spelled]
  · simp only [Derivation.outline, hf.outline, hm.outline]
  · simp only [Derivation.depth, hf.depth, hm.depth]
  · simp only [Derivation.tree, hf.tree, hm.tree]

theorem further_refillable {layer : Layer} {op : BinaryOp} {among : op ∈ layer.ops}
    {sign : Terminal op.kind} {operand : Derivation delimiter (.expr layer.operandRank)}
    {more : Derivation delimiter (.further layer)} (iho : operand.Refillable delimiter')
    (ihm : more.Refillable delimiter') :
    (Derivation.further op among sign operand more).Refillable delimiter' := by
  intro us h
  simp only [Derivation.outline] at h
  obtain ⟨_, rfl, hrest⟩ := h.of_token
  obtain ⟨ts, ts', rfl, ho, hm⟩ := hrest.of_append
  obtain ⟨operand', ho⟩ := iho ts ho
  obtain ⟨more', hm⟩ := ihm ts' hm
  refine ⟨.further op among sign operand' more', ?_, ?_, ?_, ?_, fun _ _ => trivial⟩
  · simp only [Derivation.yield, ho.spelled, hm.spelled]
  · simp only [Derivation.outline, ho.outline, hm.outline]
  · simp only [Derivation.depth, ho.depth, hm.depth]
  · simp only [Derivation.tree, ho.tree, hm.tree]

theorem comparison_refillable {left right : Derivation delimiter (.expr (.chain .sum))}
    {op : BinaryOp} {among : op ∈ comparisons} {sign : Terminal op.kind}
    (ihl : left.Refillable delimiter') (ihr : right.Refillable delimiter') :
    (Derivation.comparison left op among sign right).Refillable delimiter' := by
  intro us h
  obtain ⟨ts, _, rfl, hl, hrest⟩ := Fills.of_append h
  obtain ⟨ts', rfl, hr⟩ := hrest.of_token
  obtain ⟨left', hl⟩ := ihl ts hl
  obtain ⟨right', hr⟩ := ihr ts' hr
  refine ⟨.comparison left' op among sign right', ?_, ?_, ?_, ?_, fun _ _ => trivial⟩
  · simp only [Derivation.yield, hl.spelled, hr.spelled]
  · simp only [Derivation.outline, hl.outline, hr.outline]
  · simp only [Derivation.depth, hl.depth, hr.depth]
  · simp only [Derivation.tree, hl.tree, hr.tree]

theorem assignment_refillable {target : Terminal Kind.var} {sign : Terminal Kind.assign}
    {value : Derivation delimiter (.expr (.chain .sum))} (ih : value.Refillable delimiter') :
    (Derivation.assignment target sign value).Refillable delimiter' := by
  intro us h
  simp only [Derivation.outline] at h
  obtain ⟨_, rfl, hrest⟩ := h.of_token
  obtain ⟨ts, rfl, hvalue⟩ := hrest.of_token
  obtain ⟨value', hv⟩ := ih ts hvalue
  refine ⟨.assignment target sign value', ?_, ?_, hv.depth, ?_, fun _ _ => trivial⟩
  · simp only [Derivation.yield, hv.spelled]
  · simp only [Derivation.outline, hv.outline]
  · simp only [Derivation.tree, hv.tree]

theorem block_refillable {opener : Terminal Kind.openCurly}
    {body : Derivation delimiter .statements} {closer : Terminal Kind.closeCurly}
    (ih : body.Refillable delimiter') :
    (Derivation.block opener body closer).Refillable delimiter' := by
  intro us h
  simp only [Derivation.outline] at h
  obtain ⟨_, rfl, hrest⟩ := h.of_token
  obtain ⟨ts, _, rfl, hbody, hclose⟩ := hrest.of_append
  cases Fills.of_tokens [closer.val] hclose
  obtain ⟨body', hb⟩ := ih ts hbody
  refine ⟨.block opener body' closer, ?_, ?_, ?_, hb.tree, fun _ => hb.settled closer.val⟩
  · simp only [Derivation.yield, hb.spelled]
  · simp only [Derivation.outline, hb.outline]
  · simp only [Derivation.depth, hb.depth]

theorem alone_refillable {keyword : Terminal Kind.keywordBegin}
    {test : Derivation delimiter .condition}
    {delim : { ds : List Token // ds.map Token.kind = delimiter.toList }}
    {consequent : Derivation delimiter .block} {ending : Option (Terminal Kind.keywordEnd)}
    (iht : test.Refillable delimiter') (ihc : consequent.Refillable delimiter') :
    (Derivation.alone keyword test delim consequent ending).Refillable delimiter' := by
  intro us h
  simp only [Derivation.outline] at h
  obtain ⟨_, rfl, htest⟩ := h.of_token
  obtain ⟨ts, _, rfl, ht, hmark⟩ := htest.of_append
  obtain ⟨delim', _, rfl, hblock⟩ := hmark.of_mark
  obtain ⟨ts', _, rfl, hc, hend⟩ := hblock.of_append
  cases Fills.of_tokens _ hend
  obtain ⟨test', ht⟩ := iht ts ht
  obtain ⟨consequent', hc⟩ := ihc ts' hc
  refine ⟨.alone keyword test' delim' consequent' ending, ?_, ?_, ?_, ?_, ?_⟩
  · simp only [Derivation.yield, ht.spelled, hc.spelled]
  · simp only [Derivation.outline, ht.outline, hc.outline]
  · simp only [Derivation.depth, ht.depth, hc.depth]
  · simp only [Derivation.tree, ht.tree, hc.tree]
  · rintro t ⟨hs, hnone⟩
    exact ⟨hc.settled t hs, hnone⟩

theorem branched_refillable {keyword : Terminal Kind.keywordBegin}
    {test : Derivation delimiter .condition}
    {delim : { ds : List Token // ds.map Token.kind = delimiter.toList }}
    {consequent alternate : Derivation delimiter .block}
    {other : { t : Token // opensAlternate t }} {ending : Option (Terminal Kind.keywordEnd)}
    (iht : test.Refillable delimiter') (ihc : consequent.Refillable delimiter')
    (iha : alternate.Refillable delimiter') :
    (Derivation.branched keyword test delim consequent other alternate ending).Refillable
      delimiter' := by
  intro us h
  simp only [Derivation.outline] at h
  obtain ⟨_, rfl, htest⟩ := h.of_token
  obtain ⟨ts, _, rfl, ht, hmark⟩ := htest.of_append
  obtain ⟨delim', _, rfl, hblock⟩ := hmark.of_mark
  obtain ⟨ts', _, rfl, hc, helse⟩ := hblock.of_append
  obtain ⟨_, rfl, hblock'⟩ := helse.of_token
  obtain ⟨ts'', _, rfl, ha, hend⟩ := hblock'.of_append
  cases Fills.of_tokens _ hend
  obtain ⟨test', ht⟩ := iht ts ht
  obtain ⟨consequent', hc⟩ := ihc ts' hc
  obtain ⟨alternate', ha⟩ := iha ts'' ha
  refine ⟨.branched keyword test' delim' consequent' other alternate' ending, ?_, ?_, ?_, ?_, ?_⟩
  · simp only [Derivation.yield, ht.spelled, hc.spelled, ha.spelled]
  · simp only [Derivation.outline, ht.outline, hc.outline, ha.outline]
  · simp only [Derivation.depth, ht.depth, hc.depth, ha.depth]
  · simp only [Derivation.tree, ht.tree, hc.tree, ha.tree]
  · rintro t ⟨hs, hsa⟩
    exact ⟨hc.settled t hs, ha.settled t hsa⟩

theorem cons_refillable {s : Derivation delimiter .statement}
    {rest : Derivation delimiter .statements} (ihs : s.Refillable delimiter')
    (ihr : rest.Refillable delimiter') : (Derivation.cons s rest).Refillable delimiter' := by
  intro us h
  obtain ⟨ts, ts', rfl, hs, hr⟩ := Fills.of_append h
  obtain ⟨s', hs⟩ := ihs ts hs
  obtain ⟨rest', hr⟩ := ihr ts' hr
  refine ⟨.cons s' rest', ?_, ?_, ?_, ?_, ?_⟩
  · simp only [Derivation.yield, hs.spelled, hr.spelled]
  · simp only [Derivation.outline, hs.outline, hr.outline]
  · simp only [Derivation.depth, hs.depth, hr.depth]
  · simp only [Derivation.tree, hs.tree, hr.tree]
  · rintro t ⟨hst, hrt⟩
    refine ⟨?_, hr.settled t hrt⟩
    -- the other statements start with the same token, since no mark comes first
    rw [hr.head?]
    exact hs.settled _ hst

theorem program_refillable {body : Derivation delimiter .statements} {eof : Terminal Kind.eof}
    (ih : body.Refillable delimiter') :
    (Derivation.program body eof).Refillable delimiter' := by
  intro us h
  obtain ⟨ts, _, rfl, hb, heof⟩ := Fills.of_append h
  cases Fills.of_tokens [eof.val] heof
  obtain ⟨body', hb⟩ := ih ts hb
  refine ⟨.program body' eof, ?_, ?_, hb.depth, hb.tree, fun _ => hb.settled eof.val⟩
  · simp only [Derivation.yield, hb.spelled]
  · simp only [Derivation.outline, hb.outline]

/-- What is spelled without delimiters stays as it is. -/
theorem refillable_of_tokens {d : Derivation delimiter sym} (d' : Derivation delimiter' sym)
    (hd : d.outline = d'.yield.map some) (hr : d.Refilled d'.yield d') :
    d.Refillable delimiter' := by
  intro us h
  rw [hd] at h
  cases Fills.of_tokens _ h
  exact ⟨d', hr⟩

theorem Derivation.refillable (d : Derivation delimiter sym) : d.Refillable delimiter' := by
  induction d with
  | number t value readable =>
    exact refillable_of_tokens (.number t value readable) rfl
      ⟨rfl, rfl, rfl, rfl, fun _ _ => trivial⟩
  | var t =>
    exact refillable_of_tokens (.var t) rfl ⟨rfl, rfl, rfl, rfl, fun _ _ => trivial⟩
  | bracketed _ _ _ ih => exact bracketed_refillable ih
  | chain _ _ ihf ihm => exact chain_refillable ihf ihm
  | last => exact refillable_of_tokens .last rfl ⟨rfl, rfl, rfl, rfl, fun _ _ => trivial⟩
  | further _ _ _ _ _ iho ihm => exact further_refillable iho ihm
  | plain _ ih =>
    intro us h
    obtain ⟨e, hy, ho, hd, ht, _⟩ := ih us h
    exact ⟨.plain e, hy, ho, hd, ht, fun _ _ => trivial⟩
  | comparison _ _ _ _ _ ihl ihr => exact comparison_refillable ihl ihr
  | assignment _ _ _ ih => exact assignment_refillable ih
  | block _ _ _ ih => exact block_refillable ih
  | alone _ _ _ _ _ iht ihc => exact alone_refillable iht ihc
  | branched _ _ _ _ _ _ _ iht ihc iha => exact branched_refillable iht ihc iha
  | ofConditional _ ih =>
    intro us h
    obtain ⟨s, hy, ho, hd, ht, hs⟩ := ih us h
    exact ⟨.ofConditional s, hy, ho, hd, ht, hs⟩
  | ofAssignment _ ih =>
    intro us h
    obtain ⟨s, hy, ho, hd, ht, _⟩ := ih us h
    exact ⟨.ofAssignment s, hy, ho, hd, ht, fun _ _ => trivial⟩
  | ofBlock _ ih =>
    intro us h
    obtain ⟨s, hy, ho, hd, ht, hs⟩ := ih us h
    exact ⟨.ofBlock s, hy, ho, hd, congrArg Statement.block ht, hs⟩
  | nil => exact refillable_of_tokens .nil rfl ⟨rfl, rfl, rfl, rfl, fun _ _ => trivial⟩
  | cons _ _ ihs ihr => exact cons_refillable ihs ihr
  | program _ _ ih => exact program_refillable ih

theorem Fills.reduceOption_eq (h : Fills none marked ts) : marked.reduceOption = ts := by
  induction h with
  | nil => rfl
  | token _ ih => rw [List.reduceOption_cons_of_some, ih]
  | mark hd _ ih =>
    cases List.map_eq_nil_iff.mp hd
    rw [List.reduceOption_cons_of_none, ih, List.nil_append]

/-- Behind the same tests, the delimiters may be replaced by those of another parser. -/
theorem exists_refilled {eof : Token} {limit : Nat} {d : Derivation delimiter .program}
    (hd : Derives d ⟨ts, eof⟩ limit) (hus : Fills delimiter' d.outline (us ++ [eof])) :
    ∃ d' : Derivation delimiter' .program,
      Derives d' ⟨us, eof⟩ limit ∧ d'.outline = d.outline ∧ d'.tree = d.tree := by
  obtain ⟨d', hr⟩ := d.refillable (us ++ [eof]) hus
  refine ⟨d', ⟨hr.spelled, hr.settled eof hd.settled, ?_⟩, hr.outline, hr.tree⟩
  rw [hr.depth]
  exact hd.shallow

theorem parseTokens_refilled {given given' : Option String} {limit : Nat} {eof : Token}
    (he : eof.kind = Kind.eof)
    (hdel : ∀ k ∈ given, ∀ op : BinaryOp, Kind.canonical k ≠ op.kind)
    (hdel' : ∀ k ∈ given', ∀ op : BinaryOp, Kind.canonical k ≠ op.kind)
    {d : Derivation (given.map Kind.canonical) .program} (hd : Derives d ⟨ts, eof⟩ limit)
    (hus : Fills (given'.map Kind.canonical) d.outline (us ++ [eof])) :
    parseTokens ⟨given', limit⟩ ⟨us, eof⟩ = parseTokens ⟨given, limit⟩ ⟨ts, eof⟩ := by
  obtain ⟨d', hd', _, htree⟩ := exists_refilled hd hus
  have hparse : parseTokens ⟨given, limit⟩ ⟨ts, eof⟩ = ⟨⟨d.tree⟩, []⟩ :=
    parseTokens_of_derives he hdel hd
  have hparse' : parseTokens ⟨given', limit⟩ ⟨us, eof⟩ = ⟨⟨d'.tree⟩, []⟩ :=
    parseTokens_of_derives he hdel' hd'
  rw [hparse, hparse', htree]

/-- The end token stays at the end without the delimiters. -/
theorem exists_erased {d : Derivation delimiter .program} {stream : TokenStream} {limit : Nat}
    (hd : Derives d stream limit) : ∃ us, us ++ [stream.eof] = d.outline.reduceOption := by
  have hy := hd.spelled
  cases d with
  | program body eof =>
    have heof := (List.append_inj' hy rfl).2
    refine ⟨body.outline.reduceOption, ?_⟩
    rw [Derivation.outline, List.reduceOption_append, ← heof]
    rfl

end Parser

open DollarScript.Parser

/-- Delimiters can be erased and inserted. If a parser that asks for a delimiter accepts the tokens,
then the tokens of their derivation without the delimiter behind each test are the same program for
a parser that asks for none. If this one accepts the tokens, then those with a delimiter put behind
each test of their derivation are the same program for the other parser. -/
theorem delimiters_erased_inserted (delimiter : String) (limit : Nat) (ts : List Token)
    (eof : Token) (he : eof.kind = Kind.eof)
    (hdel : ∀ op : BinaryOp, Kind.canonical delimiter ≠ op.kind) :
    ((parseTokens ⟨some delimiter, limit⟩ ⟨ts, eof⟩).success = true →
      ∃ d : Derivation (some (Kind.canonical delimiter)) .program,
        Derives d ⟨ts, eof⟩ limit ∧ (∀ d' limit', Derives d' ⟨ts, eof⟩ limit' → d' = d) ∧
        Fills (some (Kind.canonical delimiter)) d.outline (ts ++ [eof]) ∧
        ∃ us, us ++ [eof] = d.outline.reduceOption ∧
          parseTokens ⟨none, limit⟩ ⟨us, eof⟩ =
            parseTokens ⟨some delimiter, limit⟩ ⟨ts, eof⟩) ∧
    ((parseTokens ⟨none, limit⟩ ⟨ts, eof⟩).success = true →
      ∃ d : Derivation none .program,
        Derives d ⟨ts, eof⟩ limit ∧ (∀ d' limit', Derives d' ⟨ts, eof⟩ limit' → d' = d) ∧
        d.outline.reduceOption = ts ++ [eof] ∧
        ∀ us, Fills (some (Kind.canonical delimiter)) d.outline (us ++ [eof]) →
          parseTokens ⟨some delimiter, limit⟩ ⟨us, eof⟩ =
            parseTokens ⟨none, limit⟩ ⟨ts, eof⟩) := by
  have hops : ∀ k ∈ some delimiter, ∀ op : BinaryOp, Kind.canonical k ≠ op.kind := by
    simpa using hdel
  have hnone : ∀ k ∈ (none : Option String), ∀ op : BinaryOp, Kind.canonical k ≠ op.kind := by
    simp
  constructor
  · intro h
    obtain ⟨d, hd⟩ := derives_of_success he h
    have hfills := d.fills
    rw [hd.spelled] at hfills
    obtain ⟨us, hus⟩ := exists_erased hd
    refine ⟨d, hd, fun d' limit' hd' => derives_unique (by simpa using hops) hd hd', hfills,
      us, hus, ?_⟩
    refine parseTokens_refilled he hops hnone hd ?_
    rw [hus]
    exact .undelimited _
  · intro h
    obtain ⟨d, hd⟩ := derives_of_success he h
    have hfills := d.fills
    rw [hd.spelled] at hfills
    refine ⟨d, hd, fun d' limit' hd' => derives_unique (by simp) hd hd', hfills.reduceOption_eq,
      fun us hus => ?_⟩
    exact parseTokens_refilled he hnone hops hd hus

/-- The colon of `twoBranches` is erased, and a word is put in its place. -/
theorem delimiters_erased_inserted_twoBranches :
    (parseTokens ⟨some "colon", 1⟩ twoBranches).success = true ∧
    parseTokens ⟨none, 1⟩ ⟨twoBranches.tokens.eraseIdx 6, twoBranches.eof⟩ =
      parseTokens ⟨some "colon", 1⟩ twoBranches ∧
    parseTokens ⟨some "then", 1⟩
        ⟨twoBranches.tokens.set 6 (.placeless "THEN" "then" []), twoBranches.eof⟩ =
      parseTokens ⟨none, 1⟩ ⟨twoBranches.tokens.eraseIdx 6, twoBranches.eof⟩ := by
  have hcolon : ∀ op : BinaryOp, Kind.canonical "colon" ≠ op.kind := by
    intro op
    cases op <;> decide
  have hthen : ∀ op : BinaryOp, Kind.canonical "then" ≠ op.kind := by
    intro op
    cases op <;> decide
  have hd : Derives twoBranchesDerivation twoBranches 1 :=
    ⟨by decide, by simp [twoBranchesDerivation, Derivation.ElseTaken], by decide⟩
  have hsuccess : (parseTokens ⟨some "colon", 1⟩ twoBranches).success = true := by
    have hparse : parseTokens ⟨some "colon", 1⟩ twoBranches = ⟨⟨twoBranchesDerivation.tree⟩, []⟩ :=
      parseTokens_of_derives rfl (by simpa using hcolon) hd
    rw [hparse]
    rfl
  have houtline : twoBranchesDerivation.outline = (twoBranches.tokens.take 6).map some ++
      none :: (twoBranches.tokens.drop 7 ++ [twoBranches.eof]).map some := by
    decide
  obtain ⟨d, _, hunique, _, us, hus, herased⟩ :=
    (delimiters_erased_inserted "colon" 1 twoBranches.tokens twoBranches.eof rfl hcolon).1 hsuccess
  -- only one derivation has these tokens, so its marks are those of the one written out
  cases hunique _ _ hd
  have hbare : us ++ [twoBranches.eof] = twoBranches.tokens.eraseIdx 6 ++ [twoBranches.eof] := by
    rw [hus, houtline]
    rfl
  cases List.append_cancel_right hbare
  have hsuccess' : (parseTokens ⟨none, 1⟩
      ⟨twoBranches.tokens.eraseIdx 6, twoBranches.eof⟩).success = true := by
    rw [herased]
    exact hsuccess
  obtain ⟨d', _, hunique', _, hinserted⟩ := (delimiters_erased_inserted "then" 1
    (twoBranches.tokens.eraseIdx 6) twoBranches.eof rfl hthen).2 hsuccess'
  obtain ⟨d'', hd'', houtline'', _⟩ :
      ∃ d'' : Derivation none .program,
        Derives d'' ⟨twoBranches.tokens.eraseIdx 6, twoBranches.eof⟩ 1 ∧
        d''.outline = twoBranchesDerivation.outline ∧ d''.tree = twoBranchesDerivation.tree := by
    refine exists_refilled hd ?_
    rw [hus]
    exact .undelimited _
  cases hunique' d'' 1 hd''
  refine ⟨hsuccess, herased, hinserted _ ?_⟩
  have hword : [Token.placeless "THEN" "then" []].map Token.kind =
      (some (Kind.canonical "then")).toList := by
    decide
  rw [houtline'', houtline]
  exact (Fills.tokens _).append (.mark hword (.tokens _))

end DollarScript
