import DollarScript.Number.Read
import DollarScript.Proofs.Number.Nearest
import DollarScript.Proofs.Text.Runs

/-! Every finite number is read back from its text, in whatever layout it is written, and what such
a text is made of. -/
namespace DollarScript.Binary64

open Text

/-- Nothing but the digits from `0` to `9`. -/
def AllDigits (cs : List Char) : Prop := ∀ c ∈ cs, c.isDigit = true

/-- An exponent with its mark, or none. -/
inductive Tail : List Char → Int → Prop
  | none : Tail [] 0
  | unsigned {digits : List Char} : digits ≠ [] → AllDigits digits →
      Tail ('e' :: digits) (digitsValue digits)
  | plus {digits : List Char} : digits ≠ [] → AllDigits digits →
      Tail ('e' :: '+' :: digits) (digitsValue digits)
  | minus {digits : List Char} : digits ≠ [] → AllDigits digits →
      Tail ('e' :: '-' :: digits) (-digitsValue digits)

/-- Digits, perhaps a point with digits behind it, and what follows them. -/
def scientific (whole fraction tail : List Char) : List Char :=
  whole ++ ((if fraction = [] then [] else '.' :: fraction) ++ tail)

/-- The text spells the decimal, digit by digit. -/
inductive Spells : List Char → Decimal → Prop
  | intro {whole fraction tail : List Char} {exponent : Int} : whole ≠ [] → AllDigits whole →
      AllDigits fraction → Tail tail exponent → Spells (scientific whole fraction tail)
        ⟨digitsValue (whole ++ fraction), exponent - fraction.length⟩

variable {cs ds whole fraction tail digits text : List Char} {c : Char} {exponent : Int}
  {d : Decimal}

/-! ### Digits -/

@[simp] theorem allDigits_nil : AllDigits [] := by
  simp [AllDigits]

@[simp] theorem allDigits_append : AllDigits (cs ++ ds) ↔ AllDigits cs ∧ AllDigits ds := by
  simp [AllDigits, or_imp, forall_and]

theorem allDigits_toDigits (n : Nat) : AllDigits (Nat.toDigits 10 n) :=
  fun _ h => Nat.isDigit_of_mem_toDigits (by decide) (by decide) h

theorem allDigits_zeros (count : Nat) : AllDigits (List.replicate count '0') := by
  intro c hc
  rw [List.eq_of_mem_replicate hc]
  rfl

theorem foldl_digits (a : Nat) (cs : List Char) :
    cs.foldl (fun n c => 10 * n + digitValue c) a = a * 10 ^ cs.length + digitsValue cs := by
  induction cs generalizing a with
  | nil => simp [digitsValue]
  | cons c cs ih =>
    have hvalue : digitsValue (c :: cs) = digitValue c * 10 ^ cs.length + digitsValue cs := by
      rw [digitsValue, List.foldl_cons, ih, Nat.mul_zero, Nat.zero_add]
    rw [List.foldl_cons, ih, hvalue, Nat.add_mul, Nat.mul_comm 10 a, Nat.mul_assoc,
      List.length_cons, Nat.pow_succ', Nat.add_assoc]

theorem digitsValue_append (cs ds : List Char) :
    digitsValue (cs ++ ds) = digitsValue cs * 10 ^ ds.length + digitsValue ds := by
  rw [digitsValue, List.foldl_append, foldl_digits]
  rfl

theorem digitsValue_toDigits (n : Nat) : digitsValue (Nat.toDigits 10 n) = n :=
  Nat.ofDigitChars_ten_toDigits

@[simp] theorem digitsValue_zeros (count : Nat) :
    digitsValue (List.replicate count '0') = 0 := by
  induction count with
  | zero => rfl
  | succ count ih =>
    rw [List.replicate_succ', digitsValue_append, ih]
    rfl

theorem digitsValue_append_zeros (cs : List Char) (count : Nat) :
    digitsValue (cs ++ List.replicate count '0') = digitsValue cs * 10 ^ count := by
  rw [digitsValue_append, digitsValue_zeros, List.length_replicate, Nat.add_zero]

theorem digitsValue_zeros_append (count : Nat) (cs : List Char) :
    digitsValue (List.replicate count '0' ++ cs) = digitsValue cs := by
  rw [digitsValue_append, digitsValue_zeros, Nat.zero_mul, Nat.zero_add]

theorem trimZeros_append (cs : List Char) :
    ∃ count, cs = trimZeros cs ++ List.replicate count '0' := by
  have hzeros : cs.reverse.takeWhile (· == '0') =
      List.replicate (cs.reverse.takeWhile (· == '0')).length '0' := by
    refine List.eq_replicate_of_mem fun c hc => ?_
    simpa using List.all_takeWhile (p := (· == '0')) |> List.all_eq_true.mp |> (· c hc)
  refine ⟨(cs.reverse.takeWhile (· == '0')).length, ?_⟩
  rw [trimZeros, ← List.reverse_replicate, ← hzeros, ← List.reverse_append,
    List.takeWhile_append_dropWhile, List.reverse_reverse]

/-! ### Reading -/

theorem AllDigits.head_ne (h : AllDigits (c :: cs)) {mark : Char} (hmark : mark.isDigit = false) :
    c ≠ mark := by
  rintro rfl
  rw [h c List.mem_cons_self] at hmark
  cases hmark

theorem readExponent?_tail (h : Tail ('e' :: cs) exponent) : readExponent? cs = some exponent := by
  cases h with
  | unsigned hne hdigits =>
    obtain ⟨c, rest, rfl⟩ := List.exists_cons_of_ne_nil hne
    have hminus : c ≠ '-' := hdigits.head_ne (by decide)
    have hplus : c ≠ '+' := hdigits.head_ne (by decide)
    have hall := List.all_eq_true.mpr hdigits
    simp [readExponent?, hminus, hplus, hall]
  | plus hne hdigits =>
    have hall := List.all_eq_true.mpr hdigits
    simp [readExponent?, hne, hall]
  | minus hne hdigits =>
    have hall := List.all_eq_true.mpr hdigits
    simp [readExponent?, hne, hall]

theorem Tail.stops (h : Tail tail exponent) : Stops Char.isDigit tail := by
  cases h <;> simp

theorem Tail.cases_eq (h : Tail tail exponent) : (tail = [] ∧ exponent = 0) ∨
    ∃ more, tail = 'e' :: more ∧ readExponent? more = some exponent := by
  cases h with
  | none => exact .inl ⟨rfl, rfl⟩
  | unsigned hne hdigits => exact .inr ⟨_, rfl, readExponent?_tail (.unsigned hne hdigits)⟩
  | plus hne hdigits => exact .inr ⟨_, rfl, readExponent?_tail (.plus hne hdigits)⟩
  | minus hne hdigits => exact .inr ⟨_, rfl, readExponent?_tail (.minus hne hdigits)⟩

theorem readDecimal?_spelled (h : Spells text d) : readDecimal? text = some d := by
  cases h with
  | @intro whole fraction tail exponent hne hwhole hfraction htail =>
    by_cases hnone : fraction = []
    · have htake := takeWhile_run hwhole htail.stops
      have hdrop := dropWhile_run hwhole htail.stops
      rcases htail.cases_eq with ⟨rfl, rfl⟩ | ⟨more, rfl, hmore⟩
      · rw [List.append_nil] at htake hdrop
        simp [readDecimal?, scientific, hnone, htake, hdrop, hne]
      · simp [readDecimal?, scientific, hnone, htake, hdrop, hne, hmore]
    · have hpoint : Stops Char.isDigit ('.' :: (fraction ++ tail)) := stops_cons.mpr rfl
      have htake := takeWhile_run hwhole hpoint
      have hdrop := dropWhile_run hwhole hpoint
      have htake' := takeWhile_run hfraction htail.stops
      have hdrop' := dropWhile_run hfraction htail.stops
      rcases htail.cases_eq with ⟨rfl, rfl⟩ | ⟨more, rfl, hmore⟩
      · rw [List.append_nil] at htake hdrop htake' hdrop'
        simp [readDecimal?, scientific, hnone, htake, hdrop, htake', hdrop', hne]
      · simp [readDecimal?, scientific, hnone, htake, hdrop, htake', hdrop', hne, hmore]

theorem Spells.head (h : Spells text d) : ∃ c rest, text = c :: rest ∧ c.isDigit = true := by
  cases h with
  | @intro whole fraction tail exponent hne hwhole _ _ =>
    obtain ⟨c, rest, rfl⟩ := List.exists_cons_of_ne_nil hne
    exact ⟨c, _, rfl, hwhole c List.mem_cons_self⟩

theorem toLower_digit (hc : c.isDigit = true) : c.toLower = c := by
  have hle := (Bool.and_eq_true_iff.mp hc).2
  have hnine : c.toNat ≤ 57 := by simpa [UInt32.le_iff_toNat_le] using hle
  unfold Char.toLower
  refine dif_neg ?_
  rintro ⟨hupper, -⟩
  have hletter : 65 ≤ c.toNat := UInt32.le_iff_toNat_le.mp hupper
  omega

/-- A name does not start with a digit. -/
theorem ne_name {name : String} (hc : c.isDigit = true)
    (hname : name.toList.head?.any Char.isDigit = false) :
    String.ofList ((c :: cs).map Char.toLower) ≠ name := by
  rintro rfl
  rw [String.toList_ofList] at hname
  simp [toLower_digit hc, hc] at hname

/-- What is spelled starts with a digit, so it is neither signed nor a name. -/
theorem read?_spelled (h : Spells text d) (negative : Bool) :
    read? (signText negative ++ String.ofList text) = some (ofDecimal negative d) := by
  obtain ⟨c, rest, rfl, hc⟩ := h.head
  have hminus : c ≠ '-' := by
    rintro rfl
    cases hc
  have hplus : c ≠ '+' := by
    rintro rfl
    cases hc
  have hchars : (signText negative ++ String.ofList (c :: rest)).toList =
      (if negative then ['-'] else []) ++ c :: rest := by
    cases negative <;> simp [signText]
  unfold read?
  rw [hchars]
  split
  rename_i sign body hsign
  obtain ⟨rfl, rfl⟩ : sign = negative ∧ body = c :: rest := by
    cases negative <;> simpa [hminus, hplus, eq_comm] using hsign
  have hnames : ¬ (String.ofList ((c :: rest).map Char.toLower) = "inf" ∨
      String.ofList ((c :: rest).map Char.toLower) = "infinity") := by
    rintro (hname | hname)
    · exact ne_name hc rfl hname
    · exact ne_name hc rfl hname
  dsimp only
  rw [if_neg hnames, if_neg (ne_name hc rfl), readDecimal?_spelled h, Option.map_some]

/-! ### Writing -/

theorem spells_of (whole fraction : List Char) {value : Nat} {e : Int} (hne : whole ≠ [])
    (hwhole : AllDigits whole) (hfraction : AllDigits fraction) (htail : Tail tail exponent)
    (htext : text = scientific whole fraction tail)
    (hvalue : digitsValue (whole ++ fraction) = value)
    (hexponent : exponent - fraction.length = e) : Spells text ⟨value, e⟩ := by
  subst htext hvalue hexponent
  exact .intro hne hwhole hfraction htail

/-- Zeros behind the digits are all that a layout without an exponent adds. -/
theorem spells_positional (pointed : Bool) (hne : digits ≠ []) (hdigits : AllDigits digits)
    (point : Int) : ∃ count, Spells (positionalText pointed digits point).toList
      ((⟨digitsValue digits, point - digits.length⟩ : Decimal).padded count) := by
  by_cases hpoint : point ≤ 0
  · refine ⟨0, spells_of ['0'] (List.replicate (-point).toNat '0' ++ digits) (by decide)
      (allDigits_zeros 1) (allDigits_append.mpr ⟨allDigits_zeros _, hdigits⟩) .none ?_ ?_ ?_⟩
    · simp [positionalText, hpoint, zeros, scientific, hne]
    · have hzeros := digitsValue_zeros_append ((-point).toNat + 1) digits
      rw [List.replicate_succ, List.cons_append] at hzeros
      simpa using hzeros
    · simp only [List.length_append, List.length_replicate]
      omega
  · by_cases hfront : point.toNat < digits.length
    · refine ⟨0, spells_of (digits.take point.toNat) (digits.drop point.toNat) ?_
        (fun c hc => hdigits c (List.mem_of_mem_take hc))
        (fun c hc => hdigits c (List.mem_of_mem_drop hc)) .none ?_ ?_ ?_⟩
      · have hpos : 0 < point.toNat := by omega
        simp [hne, Nat.ne_of_gt hpos]
      · have hdrop : digits.drop point.toNat ≠ [] := by simpa using hfront
        simp [positionalText, hpoint, hfront, scientific, hdrop]
      · rw [List.take_append_drop, Nat.pow_zero, Nat.mul_one]
      · simp only [List.length_drop]
        omega
    · have hpadded : AllDigits (digits ++ List.replicate (point.toNat - digits.length) '0') :=
        allDigits_append.mpr ⟨hdigits, allDigits_zeros _⟩
      cases pointed with
      | false =>
        refine ⟨point.toNat - digits.length, spells_of _ [] (by simp [hne]) hpadded allDigits_nil
          .none ?_ ?_ ?_⟩
        · simp [positionalText, hpoint, hfront, zeros, scientific]
        · rw [List.append_nil, digitsValue_append_zeros]
        · simp only [List.length_nil]
          omega
      | true =>
        refine ⟨point.toNat - digits.length + 1, spells_of _ ['0'] (by simp [hne]) hpadded
          (allDigits_zeros 1) .none ?_ ?_ ?_⟩
        · simp [positionalText, hpoint, hfront, zeros, scientific]
        · rw [List.append_assoc, ← digitsValue_append_zeros, List.replicate_succ']
        · simp only [List.length_singleton]
          omega

/-- The sign and the digits of an exponent, behind its mark. -/
theorem tail_written (plus : Bool) (e : Int) :
    Tail ('e' :: ((if e < 0 then "-" else if plus then "+" else "").toList ++
      Nat.toDigits 10 e.natAbs)) e := by
  have hne : Nat.toDigits 10 e.natAbs ≠ [] := Nat.toDigits_ne_nil
  have hdigits := allDigits_toDigits e.natAbs
  have hvalue := digitsValue_toDigits e.natAbs
  by_cases hneg : e < 0
  · have htail := Tail.minus hne hdigits
    rw [hvalue, show -(e.natAbs : Int) = e by omega] at htail
    simpa [hneg] using htail
  · have hnat : (e.natAbs : Int) = e := by omega
    cases plus with
    | true =>
      have htail := Tail.plus hne hdigits
      rw [hvalue, hnat] at htail
      simpa [hneg] using htail
    | false =>
      have htail := Tail.unsigned hne hdigits
      rw [hvalue, hnat] at htail
      simpa [hneg] using htail

theorem spells_exponent (plus : Bool) (hne : digits ≠ []) (hdigits : AllDigits digits)
    (point : Int) : Spells (exponentText plus digits point).toList
      ⟨digitsValue digits, point - digits.length⟩ := by
  obtain ⟨c, rest, rfl⟩ := List.exists_cons_of_ne_nil hne
  obtain ⟨hc, hrest⟩ := List.forall_mem_cons.mp hdigits
  have hfirst : AllDigits [c] := by simpa [AllDigits] using hc
  refine spells_of [c] rest (by simp) hfirst hrest (tail_written plus (point - 1)) ?_ rfl ?_
  · by_cases hnone : rest = []
    · simp [exponentText, scientific, hnone]
    · simp [exponentText, scientific, hnone]
  · simp only [List.length_cons]
    omega

/-- The digits of a decimal that say something. -/
def written (d : Decimal) : List Char := trimZeros (Nat.toDigits 10 d.digits)

/-- Where its point stands among them. -/
def pointIn (d : Decimal) : Int := (Nat.toDigits 10 d.digits).length + d.exponent

/-- Without the zeros behind its digits a decimal is the same. -/
theorem exists_padded_written (hd : d.digits ≠ 0) :
    written d ≠ [] ∧ AllDigits (written d) ∧
      ∃ count, d = (⟨digitsValue (written d), pointIn d - (written d).length⟩ : Decimal).padded
        count := by
  obtain ⟨count, hcount⟩ := trimZeros_append (Nat.toDigits 10 d.digits)
  rw [← written] at hcount
  have hvalue : d.digits = digitsValue (written d) * 10 ^ count := by
    rw [← digitsValue_append_zeros, ← hcount, digitsValue_toDigits]
  refine ⟨?_, ?_, count, ?_⟩
  · intro hnil
    rw [hnil] at hvalue
    exact hd (by simpa [digitsValue] using hvalue)
  · have hall := allDigits_toDigits d.digits
    rw [hcount, allDigits_append] at hall
    exact hall.1
  · have hexponent : d.exponent = pointIn d - (written d).length - count := by
      rw [pointIn, hcount, List.length_append, List.length_replicate]
      omega
    simp only [Decimal.padded, ← hvalue, ← hexponent]

/-- A decimal in a layout, with or without an exponent. -/
def laidOut (layout : Layout) (inside : Bool) (d : Decimal) : String :=
  if inside then positionalText layout.fraction (written d) (pointIn d)
  else exponentText layout.plus (written d) (pointIn d)

theorem spells_laidOut (layout : Layout) (inside : Bool) (hd : d.digits ≠ 0) :
    ∃ d', Spells (laidOut layout inside d).toList d' ∧ rankOfDecimal d' = rankOfDecimal d := by
  obtain ⟨hne, hall, count, hpadded⟩ := exists_padded_written hd
  have hrank := congrArg rankOfDecimal hpadded
  rw [rankOfDecimal_padded] at hrank
  cases inside with
  | true =>
    obtain ⟨added, hspells⟩ := spells_positional layout.fraction hne hall (pointIn d)
    exact ⟨_, hspells, (rankOfDecimal_padded _ _).trans hrank.symm⟩
  | false => exact ⟨_, spells_exponent layout.plus hne hall (pointIn d), hrank.symm⟩

theorem rankOfDecimal_zero (h : d.digits = 0) : rankOfDecimal d = 0 := if_pos (.inl h)

theorem spells_zero (layout : Layout) :
    ∃ e, Spells (if layout.fraction then "0.0" else "0").toList ⟨0, e⟩ := by
  cases layout.fraction with
  | true =>
    exact ⟨_, spells_of ['0'] ['0'] (by decide) (allDigits_zeros 1) (allDigits_zeros 1) .none
      rfl rfl rfl⟩
  | false =>
    exact ⟨_, spells_of ['0'] [] (by decide) (allDigits_zeros 1) allDigits_nil .none
      rfl rfl rfl⟩

theorem magnitudeText_of_ne (layout : Layout) {rank : Nat} (h : rank ≠ 0) :
    ∃ inside, magnitudeText layout rank = laidOut layout inside (shortest layout.tie rank) :=
  ⟨_, if_neg h⟩

theorem spells_magnitude (layout : Layout) {rank : Nat} (h : rank < ranks) :
    ∃ d, Spells (magnitudeText layout rank).toList d ∧ rankOfDecimal d = rank := by
  by_cases hzero : rank = 0
  · obtain ⟨e, hspells⟩ := spells_zero layout
    rw [magnitudeText, if_pos hzero]
    exact ⟨_, hspells, (rankOfDecimal_zero rfl).trans hzero.symm⟩
  · have hrank := rankOfDecimal_shortest layout.tie h (Nat.pos_of_ne_zero hzero)
    have hdigits : (shortest layout.tie rank).digits ≠ 0 := by
      intro hdigits
      exact hzero (hrank.symm.trans (rankOfDecimal_zero hdigits))
    obtain ⟨inside, htext⟩ := magnitudeText_of_ne layout hzero
    obtain ⟨d, hspells, hd⟩ := spells_laidOut layout inside hdigits
    rw [htext]
    exact ⟨d, hspells, hd.trans hrank⟩

/-- The text of a finite number is read as that number. -/
theorem read?_text (layout : Layout) (negative : Bool) (rank : Fin ranks) :
    read? ((Binary64.finite negative rank).text layout) = some (.finite negative rank) := by
  obtain ⟨d, hspells, hrank⟩ := spells_magnitude layout rank.isLt
  have hread := read?_spelled hspells negative
  rw [String.ofList_toList] at hread
  rw [text, hread]
  simp [ofDecimal, hrank]

/-! ### Characters -/

/-- A finite number is written with nothing else. -/
def isNumeric (c : Char) : Bool := c.isDigit || ['.', 'e', '+', '-'].contains c

def Numeric (cs : List Char) : Prop := ∀ c ∈ cs, isNumeric c = true

@[simp] theorem numeric_nil : Numeric [] := by
  simp [Numeric]

@[simp] theorem numeric_cons : Numeric (c :: cs) ↔ isNumeric c = true ∧ Numeric cs :=
  List.forall_mem_cons

@[simp] theorem numeric_append : Numeric (cs ++ ds) ↔ Numeric cs ∧ Numeric ds :=
  List.forall_mem_append

theorem AllDigits.numeric (h : AllDigits cs) : Numeric cs := by
  intro c hc
  simp [isNumeric, h c hc]

theorem Tail.numeric (h : Tail tail exponent) : Numeric tail := by
  cases h with
  | none => exact numeric_nil
  | unsigned _ hdigits => simp [isNumeric, hdigits.numeric]
  | plus _ hdigits => simp [isNumeric, hdigits.numeric]
  | minus _ hdigits => simp [isNumeric, hdigits.numeric]

theorem Spells.numeric (h : Spells text d) : Numeric text := by
  cases h with
  | @intro whole fraction tail exponent hne hwhole hfraction htail =>
    by_cases hnone : fraction = []
    · simp [scientific, hnone, hwhole.numeric, htail.numeric]
    · simp [scientific, hnone, isNumeric, hwhole.numeric, hfraction.numeric, htail.numeric]

/-- A finite number is a sign or none, and then a digit before anything else. -/
theorem text_finite (layout : Layout) (negative : Bool) (rank : Fin ranks) :
    ∃ c rest, c.isDigit = true ∧ Numeric (c :: rest) ∧
      ((finite negative rank).text layout).toList = (signText negative).toList ++ c :: rest := by
  obtain ⟨d, hspells, -⟩ := spells_magnitude layout rank.isLt
  obtain ⟨c, rest, hrest, hc⟩ := hspells.head
  refine ⟨c, rest, hc, hrest ▸ hspells.numeric, ?_⟩
  rw [text, String.toList_append, hrest]

theorem numeric_text (layout : Layout) (negative : Bool) (rank : Fin ranks) :
    Numeric ((finite negative rank).text layout).toList := by
  obtain ⟨c, rest, -, hnumeric, htext⟩ := text_finite layout negative rank
  rw [htext, numeric_append]
  refine ⟨?_, hnumeric⟩
  cases negative <;> simp [isNumeric, signText]

theorem point_mem_positionalText (digits : List Char) (point : Int) :
    '.' ∈ (positionalText true digits point).toList := by
  simp only [positionalText]
  split
  · simp
  · split
    · simp
    · simp

theorem e_mem_exponentText (plus : Bool) (digits : List Char) (point : Int) :
    'e' ∈ (exponentText plus digits point).toList := by
  simp [exponentText]

/-- Where a whole number shows its point, every number has a point or an exponent. -/
theorem mark_mem_magnitudeText {layout : Layout} (h : layout.fraction = true) (rank : Nat) :
    ∃ c ∈ (magnitudeText layout rank).toList, c = '.' ∨ c = 'e' := by
  by_cases hzero : rank = 0
  · have htext : magnitudeText layout rank = "0.0" := by rw [magnitudeText, if_pos hzero, if_pos h]
    exact ⟨'.', by rw [htext]; decide, .inl rfl⟩
  · obtain ⟨inside, htext⟩ := magnitudeText_of_ne layout hzero
    rw [htext, laidOut, h]
    split
    · exact ⟨'.', point_mem_positionalText _ _, .inl rfl⟩
    · exact ⟨'e', e_mem_exponentText _ _ _, .inr rfl⟩

theorem mark_mem_text {layout : Layout} (h : layout.fraction = true) (negative : Bool)
    (rank : Fin ranks) : ∃ c ∈ ((finite negative rank).text layout).toList, c = '.' ∨ c = 'e' := by
  obtain ⟨c, hc, hmark⟩ := mark_mem_magnitudeText h rank
  refine ⟨c, ?_, hmark⟩
  rw [text, String.toList_append]
  exact List.mem_append_right _ hc

end DollarScript.Binary64
