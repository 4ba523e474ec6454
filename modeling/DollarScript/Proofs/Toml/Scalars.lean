import DollarScript.Proofs.Text.Runs
import DollarScript.Toml.Reader
import Mathlib.Algebra.Group.Int.Defs
import Mathlib.Algebra.Group.Nat.Defs

/-! Numbers and truth values at the end of a line are read back as they are written. -/
namespace DollarScript.Toml

variable {cs rest : List Char} {n : Nat}

/-- A text without quotes reaches to the end of its line. -/
theorem readScalar?_line (h : ∀ c ∈ cs, endsScalar c = false) :
    readScalar? (cs ++ '\n' :: rest) = (scalar? cs).map (·, '\n' :: rest) := by
  have htake : (cs ++ '\n' :: rest).takeWhile (fun c => !endsScalar c) = cs :=
    Text.takeWhile_run (by simpa using h) (Text.stops_cons.mpr (by decide))
  unfold readScalar?
  simp only [htake, List.drop_left]
  split
  · rename_i heq
    simp at heq
  · rfl

/-! ### Decimal digits -/

theorem digitChar_spec : ∀ d < 10, (Nat.digitChar d).isDigit = true ∧
    hexDigit? (Nat.digitChar d) = some d ∧ (d ≠ 0 → Nat.digitChar d ≠ '0') := by decide

theorem isDigit_toDigits (n : Nat) : ∀ c ∈ Nat.toDigits 10 n, c.isDigit = true :=
  fun _ h => Nat.isDigit_of_mem_toDigits (by omega) (by omega) h

theorem valueIn_concat (base : Nat) (cs : List Char) (c : Char) :
    valueIn base (cs ++ [c]) = base * valueIn base cs + (hexDigit? c).getD 0 := by
  simp [valueIn]

theorem valueIn_toDigits (n : Nat) : valueIn 10 (Nat.toDigits 10 n) = n := by
  induction n using Nat.strongRecOn with
  | ind n ih =>
    by_cases hn : n < 10
    · rw [Nat.toDigits_of_lt_base hn]
      simp [valueIn, (digitChar_spec n hn).2.1]
    · have hdigit := (digitChar_spec (n % 10) (by omega)).2.1
      rw [Nat.toDigits_of_base_le (by omega) (by omega), valueIn_concat, ih (n / 10) (by omega),
        hdigit, Option.getD_some]
      omega

theorem head?_toDigits (h : 0 < n) : (Nat.toDigits 10 n).head? ≠ some '0' := by
  induction n using Nat.strongRecOn with
  | ind n ih =>
    by_cases hn : n < 10
    · rw [Nat.toDigits_of_lt_base hn]
      simpa using (digitChar_spec n hn).2.2 (by omega)
    · have hhead := ih (n / 10) (by omega) (by omega)
      rw [Nat.toDigits_of_base_le (by omega) (by omega)]
      cases hdigits : Nat.toDigits 10 (n / 10) with
      | nil => exact absurd hdigits (List.ne_nil_of_length_pos Nat.length_toDigits_pos)
      | cons c cs => simpa [hdigits] using hhead

theorem digitsOf?_digits {after : Bool} (h : ∀ c ∈ cs, c.isDigit = true)
    (hne : after = true ∨ cs ≠ []) : digitsOf? Char.isDigit after cs = some cs := by
  induction cs generalizing after with
  | nil => simp [digitsOf?, hne.resolve_right (by simp)]
  | cons c cs ih =>
    rw [digitsOf?, if_pos (h c List.mem_cons_self),
      ih (fun d hd => h d (List.mem_cons_of_mem _ hd)) (.inl rfl)]
    rfl

/-- Only zero is written with a zero in front. -/
theorem wholeOf?_toDigits (n : Nat) : wholeOf? (Nat.toDigits 10 n) = some (Nat.toDigits 10 n) := by
  have hne : Nat.toDigits 10 n ≠ [] := List.ne_nil_of_length_pos Nat.length_toDigits_pos
  rw [wholeOf?, digitsOf?_digits (isDigit_toDigits n) (.inr hne), Option.bind_some, if_neg]
  rintro ⟨hzero, hlength⟩
  by_cases hn : 0 < n
  · exact head?_toDigits hn hzero
  · rw [show n = 0 by omega] at hlength
    exact hlength rfl

/-! ### Numbers are no dates -/

theorem fixedDigits?_digits {count value : Nat} (hcs : ∀ c ∈ cs, c.isDigit = true)
    (h : fixedDigits? count cs = some (value, rest)) : ∀ c ∈ rest, c.isDigit = true := by
  have hrest : rest = cs.drop count := by
    simp only [fixedDigits?, Option.ite_none_right_eq_some, Option.some.injEq, Prod.mk.injEq] at h
    exact h.2.2.symm
  intro c hc
  rw [hrest] at hc
  exact hcs c (List.mem_of_mem_drop hc)

theorem dropDate?_digits (h : ∀ c ∈ cs, c.isDigit = true) : dropDate? cs = none := by
  cases hyear : fixedDigits? 4 cs with
  | none => simp [dropDate?, hyear]
  | some read =>
    obtain ⟨year, rest⟩ := read
    have hmark : ∀ more, rest ≠ '-' :: more := by
      rintro more rfl
      exact absurd (fixedDigits?_digits h hyear '-' List.mem_cons_self) (by decide)
    simp [dropDate?, hyear]

theorem dropTime?_digits (h : ∀ c ∈ cs, c.isDigit = true) : dropTime? cs = none := by
  cases hhour : fixedDigits? 2 cs with
  | none => simp [dropTime?, dropHourMinute?, hhour]
  | some read =>
    obtain ⟨hour, rest⟩ := read
    have hmark : ∀ more, rest ≠ ':' :: more := by
      rintro more rfl
      exact absurd (fixedDigits?_digits h hhour ':' List.mem_cons_self) (by decide)
    simp [dropTime?, dropHourMinute?, hhour]

theorem isDatetime_digits (h : ∀ c ∈ cs, c.isDigit = true) : isDatetime cs = false := by
  simp [isDatetime, dropDate?_digits h, dropTime?_digits h]

theorem isDatetime_signed (cs : List Char) : isDatetime ('-' :: cs) = false := by
  have hnone : ∀ count, fixedDigits? (count + 1) ('-' :: cs) = none := by
    simp [fixedDigits?]
  simp [isDatetime, dropDate?, dropTime?, dropHourMinute?, hnone]

/-! ### Whole values -/

theorem splitSign_digits (h : ∀ c ∈ cs, c.isDigit = true) : splitSign cs = (false, cs) := by
  unfold splitSign
  split
  · exact absurd (h '-' List.mem_cons_self) (by decide)
  · exact absurd (h '+' List.mem_cons_self) (by decide)
  · rfl

/-- No letter that tells another base stands behind the first digit. -/
theorem integer?_decimal (hx : ∀ c more, cs ≠ '0' :: c :: more ∨ c.isDigit = true) :
    integer? cs = ((wholeOf? (splitSign cs).2).map fun ds =>
      if (splitSign cs).1 then -(valueIn 10 ds : Int) else valueIn 10 ds).bind fun n =>
        if -Int.pow 2 127 ≤ n ∧ n < Int.pow 2 128 then some (.integer n) else none := by
  unfold integer?
  dsimp only
  split
  · exact absurd rfl ((hx 'x' _).resolve_right (by decide))
  · exact absurd rfl ((hx 'o' _).resolve_right (by decide))
  · exact absurd rfl ((hx 'b' _).resolve_right (by decide))
  · rfl

theorem integer?_toDigits (h : n < 2 ^ 64) :
    integer? (Nat.toDigits 10 n) = some (.integer n) := by
  have hx : ∀ c more, Nat.toDigits 10 n ≠ '0' :: c :: more ∨ c.isDigit = true := by
    intro c more
    by_cases heq : Nat.toDigits 10 n = '0' :: c :: more
    · exact .inr (isDigit_toDigits n c (by simp [heq]))
    · exact .inl heq
  have hrange : -Int.pow 2 127 ≤ (n : Int) ∧ (n : Int) < Int.pow 2 128 := by
    have hlow : Int.pow 2 127 = 2 ^ 127 := rfl
    have hhigh : Int.pow 2 128 = 2 ^ 128 := rfl
    omega
  rw [integer?_decimal hx, splitSign_digits (isDigit_toDigits n), wholeOf?_toDigits, Option.map_some,
    Option.bind_some, valueIn_toDigits]
  exact if_pos hrange

theorem integer?_signed (h : n ≤ 2 ^ 64) :
    integer? ('-' :: Nat.toDigits 10 n) = some (.integer (-n)) := by
  have hrange : -Int.pow 2 127 ≤ -(n : Int) ∧ -(n : Int) < Int.pow 2 128 := by
    have hlow : Int.pow 2 127 = 2 ^ 127 := rfl
    have hhigh : Int.pow 2 128 = 2 ^ 128 := rfl
    omega
  rw [integer?_decimal (by simp), splitSign, wholeOf?_toDigits, Option.map_some,
    Option.bind_some, valueIn_toDigits]
  exact if_pos hrange

theorem endsScalar_digit {c : Char} (h : c.isDigit = true) : endsScalar c = false := by
  cases hc : endsScalar c with
  | false => rfl
  | true =>
    simp only [endsScalar, List.contains_eq_mem, decide_eq_true_eq, List.mem_cons,
      List.not_mem_nil, or_false] at hc
    rcases hc with rfl | rfl | rfl | rfl | rfl | rfl | rfl | rfl <;> exact absurd h (by decide)

theorem scalar?_toDigits (h : n < 2 ^ 64) :
    scalar? (Nat.toDigits 10 n) = some (.integer n) := by
  have hletter : ∀ c more, c.isDigit = false → Nat.toDigits 10 n ≠ c :: more := by
    intro c more hc heq
    rw [isDigit_toDigits n c (by simp [heq])] at hc
    cases hc
  rw [scalar?, if_neg (hletter _ _ (by decide)), if_neg (hletter _ _ (by decide)),
    isDatetime_digits (isDigit_toDigits n), integer?_toDigits h]
  rfl

theorem scalar?_signed (h : n ≤ 2 ^ 64) :
    scalar? ('-' :: Nat.toDigits 10 n) = some (.integer (-n)) := by
  rw [scalar?, if_neg (by simp), if_neg (by simp), isDatetime_signed, integer?_signed h]
  rfl

theorem readValue?_string {s : String} (h : readString? cs = some (some (s, rest))) (depth : Nat) :
    readValue? depth cs = some (.str s, rest) := by
  unfold readValue?
  simp only [h, Option.map_some]

theorem readString?_eq_none {c : Char} (hbasic : c ≠ '"') (hliteral : c ≠ '\'') :
    readString? (c :: cs) = none := by
  unfold readString?
  split
  all_goals simp_all

/-- A text that starts with no quote, bracket or brace is read as a scalar. -/
theorem readValue?_scalar {c : Char} {depth : Nat} {value : Value}
    (hfirst : c ∉ ['"', '\'', '[', '\x7b']) (hsolid : ∀ d ∈ c :: cs, endsScalar d = false)
    (hvalue : scalar? (c :: cs) = some value) :
    readValue? depth (c :: cs ++ '\n' :: rest) = some (value, '\n' :: rest) := by
  simp only [List.mem_cons, List.not_mem_nil, or_false, not_or] at hfirst
  obtain ⟨hbasic, hliteral, hbracket, hbrace⟩ := hfirst
  have hread : readScalar? (c :: (cs ++ '\n' :: rest)) = some (value, '\n' :: rest) := by
    rw [← List.cons_append, readScalar?_line hsolid, hvalue]
    rfl
  rw [List.cons_append, readValue?, readString?_eq_none hbasic hliteral]
  · exact hread
  · intro _ more _ heq
    exact hbracket (List.cons.inj heq).1
  · intro _ more _ heq
    exact hbrace (List.cons.inj heq).1

theorem readValue?_boolean (b : Bool) (depth : Nat) (rest : List Char) :
    readValue? depth ((if b then "true" else "false").toList ++ '\n' :: rest) =
      some (.boolean b, '\n' :: rest) := by
  cases b
  · have hsolid : ∀ d ∈ ['f', 'a', 'l', 's', 'e'], endsScalar d = false := by simp [endsScalar]
    exact readValue?_scalar (by decide) hsolid rfl
  · have hsolid : ∀ d ∈ ['t', 'r', 'u', 'e'], endsScalar d = false := by simp [endsScalar]
    exact readValue?_scalar (by decide) hsolid rfl

theorem readValue?_toDigits (h : n < 2 ^ 64) (depth : Nat) (rest : List Char) :
    readValue? depth (Nat.toDigits 10 n ++ '\n' :: rest) = some (.integer n, '\n' :: rest) := by
  have hscalar := scalar?_toDigits h
  have hdigits := isDigit_toDigits n
  cases hcs : Nat.toDigits 10 n with
  | nil => exact absurd hcs (List.ne_nil_of_length_pos Nat.length_toDigits_pos)
  | cons c cs =>
    rw [hcs] at hscalar hdigits
    refine readValue?_scalar ?_ (fun d hd => endsScalar_digit (hdigits d hd)) hscalar
    intro hc
    have hdigit := hdigits c List.mem_cons_self
    simp only [List.mem_cons, List.not_mem_nil, or_false] at hc
    rcases hc with rfl | rfl | rfl | rfl <;> exact absurd hdigit (by decide)

theorem readValue?_signed (h : n ≤ 2 ^ 64) (depth : Nat) (rest : List Char) :
    readValue? depth ('-' :: Nat.toDigits 10 n ++ '\n' :: rest) =
      some (.integer (-n), '\n' :: rest) := by
  refine readValue?_scalar (by decide) ?_ (scalar?_signed h)
  intro d hd
  rcases List.mem_cons.mp hd with rfl | hd
  · decide
  · exact endsScalar_digit (isDigit_toDigits n d hd)

end DollarScript.Toml
