import DollarScript.Proofs.Text.Runs
import DollarScript.Text.Quoted

/-! A quoted text is on one line, and the text can be told from it. -/
namespace DollarScript.Text

variable {c d : Char} {cs ds rest rest' : List Char} {s t : String} {m n : Nat}

/-! ### Hexadecimal digits -/

theorem isAlphanum_digitChar : ∀ d < 16, (Nat.digitChar d).isAlphanum = true := by decide

theorem digitChar_unique : ∀ d < 16, ∀ e < 16, Nat.digitChar d = Nat.digitChar e → d = e := by
  decide

theorem hexDigits_of_lt (h : n < 16) : hexDigits n = [Nat.digitChar n] :=
  Nat.toDigits_of_lt_base h

theorem hexDigits_of_le (h : 16 ≤ n) :
    hexDigits n = hexDigits (n / 16) ++ [Nat.digitChar (n % 16)] :=
  Nat.toDigits_of_base_le (by decide) h

theorem isAlphanum_hexDigits (n : Nat) : ∀ c ∈ hexDigits n, c.isAlphanum = true := by
  induction n using Nat.strongRecOn with
  | ind n ih =>
    intro c hc
    rcases Nat.lt_or_ge n 16 with hn | hn
    · rw [hexDigits_of_lt hn, List.mem_singleton] at hc
      rw [hc]
      exact isAlphanum_digitChar n hn
    · rw [hexDigits_of_le hn, List.mem_append, List.mem_singleton] at hc
      rcases hc with hc | rfl
      · exact ih (n / 16) (by omega) c hc
      · exact isAlphanum_digitChar (n % 16) (by omega)

/-- A number of more than one digit is written differently from one of a single digit. -/
theorem hexDigits_ne_digit (h : 16 ≤ n) (c : Char) : hexDigits n ≠ [c] := by
  intro heq
  rw [hexDigits_of_le h, ← List.nil_append [c]] at heq
  exact absurd (List.append_inj' heq rfl).1 Nat.toDigits_ne_nil

theorem hexDigits_injective (h : hexDigits m = hexDigits n) : m = n := by
  induction m using Nat.strongRecOn generalizing n with
  | ind m ih =>
    rcases Nat.lt_or_ge m 16 with hm | hm
    · rcases Nat.lt_or_ge n 16 with hn | hn
      · rw [hexDigits_of_lt hm, hexDigits_of_lt hn] at h
        exact digitChar_unique m hm n hn (List.cons.inj h).1
      · rw [hexDigits_of_lt hm] at h
        exact absurd h.symm (hexDigits_ne_digit hn _)
    · rcases Nat.lt_or_ge n 16 with hn | hn
      · rw [hexDigits_of_lt hn] at h
        exact absurd h (hexDigits_ne_digit hm _)
      · rw [hexDigits_of_le hm, hexDigits_of_le hn] at h
        obtain ⟨hfront, hlast⟩ := List.append_inj' h rfl
        have hquotient := ih (m / 16) (by omega) hfront
        have hremainder := digitChar_unique (m % 16) (by omega) (n % 16) (by omega)
          (List.cons.inj hlast).1
        omega

/-! ### Single characters -/

/-- Characters whose escape has a letter or a sign of its own. -/
def namedEscapes : List (Char × Char) :=
  [('\x00', '0'), ('\t', 't'), ('\r', 'r'), ('\n', 'n'), ('\\', '\\'), ('"', '"')]

/-- The ways to write a character between quotes. -/
inductive QuotedAs (c : Char) : List Char → Prop
  | itself : c ≠ '\\' → c ≠ '"' → c ≠ '\n' → QuotedAs c [c]
  | named {letter : Char} : (c, letter) ∈ namedEscapes → QuotedAs c ['\\', letter]
  | coded : QuotedAs c ('\\' :: 'u' :: '\x7b' :: (hexDigits c.toNat ++ ['\x7d']))

theorem quotedAs_quotedChar (c : Char) : QuotedAs c (quotedChar c) := by
  unfold quotedChar
  split
  case h_7 hquote hslash hline _ _ _ =>
    split
    · exact .itself ‹_› ‹_› ‹_›
    · exact .coded
  all_goals exact .named (by decide)

/-- No named escape starts as one by code point does, and the name tells the character. -/
theorem namedEscapes_unique : ∀ p ∈ namedEscapes, p.2 ≠ 'u' ∧ p.2 ≠ '\n' ∧
    ∀ q ∈ namedEscapes, p.2 = q.2 → p.1 = q.1 := by decide

theorem quotedAs_unique (hc : QuotedAs c cs) (hd : QuotedAs d ds)
    (h : cs ++ rest = ds ++ rest') : c = d ∧ rest = rest' := by
  cases hc with
  | itself hslash =>
    cases hd with
    | itself => exact List.cons.inj h
    | named | coded => exact absurd (List.cons.inj h).1 hslash
  | named hname =>
    obtain ⟨hu, -, hunique⟩ := namedEscapes_unique _ hname
    cases hd with
    | itself hslash => exact absurd (List.cons.inj h).1.symm hslash
    | named hname' =>
      obtain ⟨hletter, hrest⟩ := List.cons.inj (List.cons.inj h).2
      exact ⟨hunique _ hname' hletter, hrest⟩
    | coded => exact absurd (List.cons.inj (List.cons.inj h).2).1 hu
  | coded =>
    cases hd with
    | itself hslash => exact absurd (List.cons.inj h).1.symm hslash
    | named hname' =>
      exact absurd (List.cons.inj (List.cons.inj h).2).1.symm (namedEscapes_unique _ hname').1
    | coded =>
      simp only [List.cons_append, List.append_assoc, List.nil_append, List.cons.injEq,
        true_and] at h
      -- the digits end at the closing brace
      obtain ⟨hdigits, hrest⟩ := run_unique (isAlphanum_hexDigits _)
        (stops_cons.mpr (by decide)) (isAlphanum_hexDigits _) (stops_cons.mpr (by decide)) h
      exact ⟨Char.toNat_inj.mp (hexDigits_injective hdigits), (List.cons.inj hrest).2⟩

theorem quotedChar_unique (h : quotedChar c ++ rest = quotedChar d ++ rest') :
    c = d ∧ rest = rest' :=
  quotedAs_unique (quotedAs_quotedChar c) (quotedAs_quotedChar d) h

theorem quotedChar_ne_quote : quotedChar c ++ rest ≠ '"' :: rest' := by
  intro h
  have hc := quotedAs_quotedChar c
  generalize quotedChar c = cs at h hc
  cases hc with
  | itself _ hquote => exact hquote (List.cons.inj h).1
  | named | coded => cases (List.cons.inj h).1

theorem newline_not_mem_quotedChar (c : Char) : '\n' ∉ quotedChar c := by
  intro hmem
  have hc := quotedAs_quotedChar c
  generalize quotedChar c = cs at hmem hc
  cases hc with
  | itself _ _ hline => exact hline (List.mem_singleton.mp hmem).symm
  | named hname =>
    simp only [List.mem_cons, List.not_mem_nil, or_false] at hmem
    rcases hmem with hslash | hletter
    · cases hslash
    · exact (namedEscapes_unique _ hname).2.1 hletter.symm
  | coded =>
    simp only [List.mem_cons, List.mem_append, List.not_mem_nil, or_false] at hmem
    rcases hmem with h | h | h | h | h
    · cases h
    · cases h
    · cases h
    · cases isAlphanum_hexDigits _ _ h
    · cases h

/-! ### Texts -/

theorem quoted_toList (s : String) :
    (quoted s).toList = '"' :: (s.toList.flatMap quotedChar ++ ['"']) := by
  simp [quoted]

theorem quoted_injective (h : quoted s = quoted t) : s = t := by
  have hchars := congrArg String.toList h
  rw [quoted_toList, quoted_toList] at hchars
  obtain ⟨hcs, -⟩ := flatMap_unique (fun _ _ _ _ => quotedChar_unique)
    (fun _ _ _ => quotedChar_ne_quote) (List.cons.inj hchars).2
  exact String.toList_inj.mp hcs

theorem newline_not_mem_quoted (s : String) : '\n' ∉ (quoted s).toList := by
  rw [quoted_toList]
  simp [newline_not_mem_quotedChar]

end DollarScript.Text
