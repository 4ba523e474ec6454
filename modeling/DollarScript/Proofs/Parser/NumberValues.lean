import DollarScript.Proofs.Number.Reading
import DollarScript.Proofs.Parser.Order
import DollarScript.Proofs.Scanner.Separation

/-! Which numbers of the built-in kinds have a value. The pattern takes the digits of every script,
the value is read from those between `0` and `9` only. -/
namespace DollarScript

namespace Text

/-- Written in the first 128 characters. -/
def Ascii (cs : List Char) : Prop := ∀ c ∈ cs, c.toNat < 128

instance (cs : List Char) : Decidable (Ascii cs) := List.decidableBAll _ cs

variable {c : Char} {cs ds : List Char}

@[simp] theorem ascii_nil : Ascii [] := by
  simp [Ascii]

@[simp] theorem ascii_cons : Ascii (c :: cs) ↔ c.toNat < 128 ∧ Ascii cs := by
  simp [Ascii]

@[simp] theorem ascii_append : Ascii (cs ++ ds) ↔ Ascii cs ∧ Ascii ds := by
  simp [Ascii, or_imp, forall_and]

theorem lt_of_isDigit (h : c.isDigit = true) : c.toNat < 128 := by
  have hle := (Bool.and_eq_true_iff.mp h).2
  have hnine : c.toNat ≤ 57 := by simpa [UInt32.le_iff_toNat_le] using hle
  omega

theorem ascii_of_digits (h : ∀ c ∈ cs, c.isDigit = true) : Ascii cs :=
  fun c hc => lt_of_isDigit (h c hc)

theorem lt_of_toLower (h : c.toLower.toNat < 128) : c.toNat < 128 := by
  unfold Char.toLower at h
  split at h
  · rename_i hupper
    have hlast : c.toNat ≤ 90 := UInt32.le_iff_toNat_le.mp hupper.2
    omega
  · exact h

theorem ascii_of_toLower (h : Ascii (cs.map Char.toLower)) : Ascii cs := by
  intro c hc
  exact lt_of_toLower (h _ (List.mem_map_of_mem hc))

/-- Of the first 128 characters, the decimal digits are those between `0` and `9`. -/
theorem isDigit_of_ascii (hdigit : isDecimalDigit c = true) (hc : c.toNat < 128) :
    c.isDigit = true := by
  have hall : ∀ n < 128, isDecimalDigit (Char.ofNat n) = true → (Char.ofNat n).isDigit = true := by
    decide +kernel
  have hcode := hall c.toNat hc
  rw [Char.ofNat_toNat] at hcode
  exact hcode hdigit

end Text

namespace Binary64

open Text

variable {cs : List Char}

theorem ascii_of_readExponent? {e : Int} (h : readExponent? cs = some e) : Ascii cs := by
  have hdigits : ∀ ds : List Char, ds ≠ [] ∧ ds.all Char.isDigit = true → Ascii ds := by
    intro ds hds
    exact ascii_of_digits (List.all_eq_true.mp hds.2)
  unfold readExponent? at h
  split at h
  rename_i negative digits hsign
  split at h
  · rename_i hds
    have hrest := hdigits digits hds
    split at hsign
    · cases hsign
      exact ascii_cons.mpr ⟨by decide, hrest⟩
    · cases hsign
      exact ascii_cons.mpr ⟨by decide, hrest⟩
    · cases hsign
      exact hrest
  · cases h

theorem ascii_of_readDecimal? {d : Decimal} (h : readDecimal? cs = some d) : Ascii cs := by
  have hrun : ∀ ds : List Char, Ascii (ds.takeWhile Char.isDigit) := by
    intro ds
    exact ascii_of_digits fun c => List.mem_takeWhile_imp
  unfold readDecimal? at h
  extract_lets whole afterWhole at h
  have hafter : cs.dropWhile Char.isDigit = afterWhole := rfl
  clear_value whole afterWhole
  split at h
  rename_i fraction rest hpoint
  -- an exponent, or nothing, stands behind the digits
  have hrest : Ascii rest := by
    split at h
    · cases h
    · split at h
      · exact ascii_nil
      · split at h
        · rename_i hmark
          obtain ⟨e, he, -⟩ := Option.map_eq_some_iff.mp h
          refine ascii_cons.mpr ⟨?_, ascii_of_readExponent? he⟩
          rcases hmark with rfl | rfl <;> decide
        · cases h
  rw [← List.takeWhile_append_dropWhile (p := Char.isDigit) (l := cs), ascii_append, hafter]
  refine ⟨hrun cs, ?_⟩
  split at hpoint
  · rename_i more
    cases hpoint
    rw [← List.takeWhile_append_dropWhile (p := Char.isDigit) (l := more), ascii_cons, ascii_append]
    exact ⟨by decide, hrun more, hrest⟩
  · cases hpoint
    exact hrest

theorem ascii_of_name {name : String} (hname : Ascii name.toList)
    (h : String.ofList (cs.map Char.toLower) = name) : Ascii cs := by
  subst h
  rw [String.toList_ofList] at hname
  exact ascii_of_toLower hname

/-- What has a value is written in the first 128 characters. -/
theorem ascii_of_read? {s : String} {value : Binary64} (h : read? s = some value) :
    Ascii s.toList := by
  unfold read? at h
  split at h
  rename_i negative body hsign
  have hbody : Ascii body := by
    dsimp only at h
    split at h
    · rename_i hname
      rcases hname with hname | hname
      · exact ascii_of_name (by decide) hname
      · exact ascii_of_name (by decide) hname
    · split at h
      · rename_i hname
        exact ascii_of_name (by decide) hname
      · obtain ⟨d, hd, -⟩ := Option.map_eq_some_iff.mp h
        exact ascii_of_readDecimal? hd
  split at hsign
  · rename_i hchars
    cases hsign
    rw [hchars]
    exact ascii_cons.mpr ⟨by decide, hbody⟩
  · rename_i hchars
    cases hsign
    rw [hchars]
    exact ascii_cons.mpr ⟨by decide, hbody⟩
  · cases hsign
    exact hbody

end Binary64

namespace Scanner

open Text

/-- A numeral has a value if its digits are those between `0` and `9`. -/
theorem Numeral.read?_isSome {taken : Taken} (h : Numeral taken) (hascii : Ascii taken.chars) :
    (Binary64.read? (String.ofList taken.chars)).isSome := by
  have hdigits : ∀ {cs : List Char}, Digits cs → Ascii cs → Binary64.AllDigits cs := by
    intro cs hcs hcs' c hc
    exact isDigit_of_ascii (hcs.2 c hc) (hcs' c hc)
  obtain ⟨d, hspells⟩ : ∃ d, Binary64.Spells taken.chars d := by
    cases h with
    | @whole digits hd =>
      exact ⟨_, Binary64.spells_of digits [] hd.1 (hdigits hd hascii) Binary64.allDigits_nil .none
        (by simp [Binary64.scientific]) rfl rfl⟩
    | @fraction digits decimals hd hd' =>
      rw [ascii_append, ascii_cons] at hascii
      exact ⟨_, Binary64.spells_of digits decimals hd.1 (hdigits hd hascii.1)
        (hdigits hd' hascii.2.2) .none (by simp [Binary64.scientific, hd'.1]) rfl rfl⟩
  have hread := Binary64.read?_spelled hspells false
  simp only [Binary64.signText, Bool.false_eq_true, if_false, String.empty_append] at hread
  rw [hread]
  rfl

theorem rule_of_number : ∀ s ∈ Kind.shapes, s.kind = Kind.number → s.rule = takeNumber := by
  intro s hs hkind
  simp only [Kind.shapes, List.mem_append, List.mem_cons, List.not_mem_nil, or_false,
    List.mem_map] at hs
  rcases hs with (rfl | rfl | rfl | rfl | rfl | rfl | rfl | rfl | rfl) | ⟨entry, hentry, rfl⟩
  case inl.inr.inr.inr.inr.inr.inr.inr.inl => rfl
  case inr =>
    have hsingles : ∀ entry ∈ Kind.singles, entry.2 ≠ Kind.number := by decide
    exact absurd hkind (hsingles entry hentry)
  all_goals exact absurd hkind (by decide)

theorem numeral_of_frontPiece {text : List Char}
    (h : (frontPiece .builtin text).kind = Kind.number) :
    ∃ taken, Numeral taken ∧ (frontPiece .builtin text).chars = taken.chars := by
  have hlexeme := frontPiece_builtin text
  cases htaken : firstTaken text Kind.shapes with
  | none =>
    rw [htaken] at hlexeme
    have hkind : Kind.number = Kind.unknown := h.symm.trans (Piece.kind_of_lexeme hlexeme)
    exact absurd hkind (by decide)
  | some l =>
    obtain ⟨s, hs, hmap⟩ := List.exists_of_findSome?_eq_some htaken
    obtain ⟨taken, hrule, rfl⟩ := Option.map_eq_some_iff.mp hmap
    rw [htaken, Option.getD_some] at hlexeme
    have hkind : s.kind = Kind.number := (Piece.kind_of_lexeme hlexeme).symm.trans h
    rw [rule_of_number s hs hkind] at hrule
    exact ⟨taken, numeral_of_takeNumber hrule, Piece.chars_of_lexeme hlexeme⟩

/-- A number of a source has a value exactly if its digits are those between `0` and `9`. -/
theorem read?_of_number {source : List Char} {t : Token} (ht : t ∈ tokens .builtin source)
    (hkind : t.kind = Kind.number) : (Binary64.read? t.text).isSome ↔ Ascii t.text.toList := by
  constructor
  · intro h
    obtain ⟨value, hvalue⟩ := Option.isSome_iff_exists.mp h
    exact Binary64.ascii_of_read? hvalue
  · intro hascii
    obtain ⟨rest, position, offset, rfl⟩ := mem_cutFrom ht
    rw [kind_toToken] at hkind
    obtain ⟨taken, hnumeral, hchars⟩ := numeral_of_frontPiece hkind
    rw [text_toToken, hchars] at hascii ⊢
    rw [String.toList_ofList] at hascii
    exact hnumeral.read?_isSome hascii

end Scanner

namespace Parser

/-- Where a number is said to be no factor, it has no value. -/
def Fault.Valueless (g : Setting) (f : Fault) : Prop :=
  f.cause = .invalidFactor → (g.next f.place).kind = Kind.number →
    Binary64.read? (g.next f.place).text = none

variable {g : Setting} {room depth : Nat} {x : ExprPart} {part : Part} {ts us : List Token}
  {log : List Event} {r : Ending Expr} {q : Ending (List Statement)} {f : Fault}

theorem valueless_other {cause : Cause} (hc : cause ≠ .invalidFactor) :
    (⟨us, cause⟩ : Fault).Valueless g := fun h => absurd h hc

theorem valueless_unexpected (kind : String) : (Fault.unexpected g kind us).Valueless g :=
  valueless_other (by simp)

theorem ExprRun.valueless (h : ExprRun g room x ts r) (hr : r = .error f us) : f.Valueless g := by
  induction h with
  | badNumber _ hnone =>
    cases hr
    exact fun _ _ => hnone
  | noFactor hk =>
    cases hr
    intro _ hnumber
    exact absurd (mem_factorStarts.mpr (.inl hnumber)) hk
  | tooDeep =>
    cases hr
    exact valueless_other (by simp)
  | unclosed =>
    cases hr
    exact valueless_unexpected _
  | innerFails _ _ ih | operandFails _ _ ih => exact ih hr
  | firstFails _ ih => exact ih hr
  | first _ _ _ ih => exact ih hr
  | operand _ _ _ _ ih => exact ih hr
  | _ => cases hr

theorem TestRun.valueless (h : TestRun g room ts (.error f us)) : f.Valueless g := by
  cases h with
  | leftFails h => exact h.valueless rfl
  | rightFails _ _ h => exact h.valueless rfl

theorem HeadRun.valueless (h : HeadRun g room ts (.error f us)) : f.Valueless g := by
  cases h with
  | testFails _ h => exact h.valueless
  | undelimited => exact valueless_unexpected _

theorem Run.valueless (h : Run g depth part ts log q) :
    AllNoted (Fault.Valueless g) (log ++ q.thrown) := by
  induction h with
  | stop | assigned => simp [Ending.thrown]
  | next _ _ _ ih ih' | alternate _ _ _ _ ih ih' =>
    simp only [Ending.thrown, List.append_nil, allNoted_append] at ih ih' ⊢
    exact ⟨ih, ih'⟩
  | alternateFails _ _ _ _ ih ih' =>
    rw [Ending.thrown, List.append_nil] at ih
    rw [List.append_assoc, allNoted_append]
    exact ⟨ih, ih'⟩
  | unopened | unassigned => simpa [Ending.thrown] using valueless_unexpected _
  | tooDeep | invalid => simpa [Ending.thrown] using valueless_other (by simp)
  | unclosed _ _ _ _ ih =>
    simp only [Ending.thrown, List.append_nil, allNoted_append, allNoted_noted] at ih ⊢
    exact ⟨ih, valueless_unexpected _⟩
  | closed _ _ _ _ ih => simpa [Ending.thrown] using ih
  | headFails hh => simpa [Ending.thrown] using hh.valueless
  | valueFails _ _ hv => simpa [Ending.thrown] using hv.valueless rfl
  | consequentFails _ _ ih | alone _ _ _ ih | simple _ _ _ ih | block _ _ ih => exact ih
  | skipped _ _ ih => simpa [Ending.thrown] using ih

end Parser

open Text Scanner
open DollarScript.Parser

/-- Tokens of a source that lie at the same place are the same. -/
theorem token_of_span {r : Registry} {source : List Char} {t u : Token} (ht : t ∈ tokens r source)
    (hu : u ∈ tokens r source) (hspan : t.span = u.span) : t = u := by
  have hlossless : Lossless r 0 source (tokens r source) := cutFrom_lossless r .origin 0 source
  have hapart := List.pairwise_iff_getElem.mp hlossless.apart
  obtain ⟨i, hi, rfl⟩ := List.getElem_of_mem ht
  obtain ⟨j, hj, rfl⟩ := List.getElem_of_mem hu
  rcases Nat.lt_trichotomy i j with hlt | heq | hlt
  · have hstart := (hapart i j hi hj hlt).1
    rw [hspan] at hstart
    omega
  · subst heq
    rfl
  · have hstart := (hapart j i hj hi hlt).1
    rw [hspan] at hstart
    omega

/-- A diagnostic about a token of a source was noted in front of this token. -/
theorem next_of_diagnostic {r : Registry} {source : List Char} {g : Setting} {f : Fault}
    {t : Token} {cause : Cause} (hg : g.eof = (scan r source).eof)
    (hplace : f.place <:+ tokens r source) (ht : t ∈ tokens r source)
    (h : f.diagnostic g = .about cause t) : f.cause = cause ∧ g.next f.place = t := by
  simp only [Fault.diagnostic, Diagnostic.about, Diagnostic.mk.injEq] at h
  obtain ⟨hcause, -, hspan⟩ := h
  refine ⟨hcause, ?_⟩
  cases hf : f.place with
  | nil =>
    -- the end token covers nothing
    have hlossless : Lossless r 0 source (tokens r source) := cutFrom_lossless r .origin 0 source
    obtain ⟨before, body, after, -, hcut⟩ := hlossless.cut t ht
    have hpos := hcut.pos
    rw [hf] at hspan
    have hend : g.next [] = (scan r source).eof := hg
    rw [hend, hcut.span] at hspan
    simp only [scan, Token.eof, Span.mk.injEq] at hspan
    omega
  | cons u us =>
    rw [hf] at hspan
    have hu : u ∈ tokens r source := hplace.subset (by rw [hf]; exact List.mem_cons_self)
    exact token_of_span hu ht hspan

/-- Numbers of the built-in kinds. A number has a value exactly if it is written in the first 128
characters, and then no parse says that it is not a factor. -/
theorem numbers_have_values (source : List Char) :
    ∀ t ∈ tokens .builtin source, t.kind = Kind.number →
      ((Binary64.read? t.text).isSome ↔ Ascii t.text.toList) ∧
      (Ascii t.text.toList →
        ∀ options, .about .invalidFactor t ∉ (parse .builtin options source).errors) := by
  intro t ht hkind
  have hvalue := read?_of_number ht hkind
  refine ⟨hvalue, ?_⟩
  intro hascii options hmem
  obtain ⟨log, ss, hrun, heq⟩ := parseTokens_runs options (scan .builtin source)
  have hanchored := hrun.anchored
  have hvalueless := hrun.valueless
  rw [Ending.thrown, List.append_nil] at hanchored hvalueless
  rw [parse, heq] at hmem
  obtain ⟨f, hf, hdiagnostic⟩ := List.mem_map.mp hmem
  obtain ⟨hcause, hnext⟩ := next_of_diagnostic rfl (hanchored f hf).within ht hdiagnostic
  have hnone := hvalueless f hf hcause
  rw [hnext] at hnone
  have hsome := hvalue.mpr hascii
  rw [hnone hkind] at hsome
  cases hsome

theorem decimal_has_value : ∃ t ∈ tokens .builtin "$x=3.5".toList, t.text = "3.5" ∧
    (Binary64.read? t.text).isSome ∧
    ∀ options, .about .invalidFactor t ∉ (parse .builtin options "$x=3.5".toList).errors := by
  obtain ⟨t, ht, htext, hkind, hascii⟩ : ∃ t ∈ tokens .builtin "$x=3.5".toList,
      t.text = "3.5" ∧ t.kind = Kind.number ∧ Ascii t.text.toList := by
    rw [Registry.builtin_eq]
    decide +kernel
  obtain ⟨hvalue, hparse⟩ := numbers_have_values _ t ht hkind
  exact ⟨t, ht, htext, hvalue.mpr hascii, hparse hascii⟩

/-- The Arabic digit three is a number without a value. -/
theorem arabic_three_has_no_value :
    ∃ t ∈ tokens .builtin "$x=٣".toList, t.kind = Kind.number ∧ Binary64.read? t.text = none ∧
      .about .invalidFactor t ∈ (parse .builtin .default "$x=٣".toList).errors := by
  rw [Registry.builtin_eq]
  decide +kernel

end DollarScript
