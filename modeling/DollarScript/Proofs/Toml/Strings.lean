import DollarScript.Toml.Text

/-! A string that is written at the end of a line is read back, whichever of the forms it got. -/
namespace DollarScript.Toml

/-- The characters behind a backslash, up to the one that completes the escape. -/
inductive Spells (c : Char) : Mode → List Char → Prop
  | last {mode : Mode} {d : Char} (h : stepEscape mode d = some (.plain, some c)) :
    Spells c mode [d]
  | more {mode : Mode} {d : Char} {ds : List Char} (left value : Nat)
      (h : stepEscape mode d = some (.code left value, none)) (hs : Spells c (.code left value) ds) :
    Spells c mode (d :: ds)

/-- A character that stands for itself between double quotes. -/
structure Plain (c : Char) : Prop where
  quote : c ≠ '"'
  backslash : c ≠ '\\'
  control : isControl c = false

variable {c : Char} {cs ds done rest : List Char} {mode : Mode}

theorem hexDigit?_upperHex : ∀ d < 16, hexDigit? (upperHex d) = some d := by decide

theorem isControl_lt (h : isControl c = true) : c.toNat < 128 := by
  simp only [isControl, Bool.or_eq_true, Bool.and_eq_true, decide_eq_true_eq, beq_iff_eq] at h
  omega

theorem ofNat_toNat_valid (c : Char) : c.toNat.isValidChar ∧ Char.ofNat c.toNat = c :=
  ⟨c.valid, c.ofNat_toNat⟩

/-- A control is written by its code point in four digits. -/
theorem spells_code (h : isControl c = true) :
    Spells c .escape ['u', '0', '0', upperHex (c.toNat / 16), upperHex (c.toNat % 16)] := by
  have hlt := isControl_lt h
  have hhigh := hexDigit?_upperHex (c.toNat / 16) (by omega)
  have hlow := hexDigit?_upperHex (c.toNat % 16) (by omega)
  have hvalue : 16 * (c.toNat / 16) + c.toNat % 16 = c.toNat := by omega
  obtain ⟨hvalid, hchar⟩ := ofNat_toNat_valid c
  have hzero : hexDigit? '0' = some 0 := rfl
  refine .more 4 0 rfl (.more 3 0 ?_ (.more 2 0 ?_ (.more 1 (c.toNat / 16) ?_ (.last ?_))))
  · simp [stepEscape, hzero]
  · simp [stepEscape, hzero]
  · simp [stepEscape, hhigh]
  · simp [stepEscape, hlow, hvalue, hvalid, hchar]

/-- Each character is written as it is or as an escape that stands for it. -/
theorem escaped_cases (c : Char) : (∃ code, escaped c = '\\' :: code ∧ Spells c .escape code) ∨
    (escaped c = [c] ∧ c ≠ '\\' ∧ isControl c = false) := by
  unfold escaped
  split
  · exact .inl ⟨_, rfl, .last rfl⟩
  · exact .inl ⟨_, rfl, .last rfl⟩
  · exact .inl ⟨_, rfl, .last rfl⟩
  · exact .inl ⟨_, rfl, .last rfl⟩
  · exact .inl ⟨_, rfl, .last rfl⟩
  · rename_i hbackslash
    split
    · rename_i hcontrol
      exact .inl ⟨_, rfl, spells_code hcontrol⟩
    · rename_i hcontrol
      exact .inr ⟨rfl, hbackslash, by simpa using hcontrol⟩

theorem escapedInLine_cases (c : Char) :
    (∃ code, escapedInLine c = '\\' :: code ∧ Spells c .escape code) ∨
    (escapedInLine c = [c] ∧ Plain c) := by
  unfold escapedInLine
  split
  · exact .inl ⟨_, rfl, .last rfl⟩
  · exact .inl ⟨_, rfl, .last rfl⟩
  · rename_i hquote
    rcases escaped_cases c with h | ⟨h, hbackslash, hcontrol⟩
    · exact .inl h
    · exact .inr ⟨h, hquote, hbackslash, hcontrol⟩

/-! ### One line -/

theorem readBasic_spells (h : Spells c mode ds) (hmode : mode ≠ .plain) :
    readBasic mode done (ds ++ rest) = readBasic .plain (c :: done) rest := by
  induction h with
  | last h =>
    rw [List.cons_append, readBasic, h]
    · rfl
    · exact hmode
  | more left value h _ ih =>
    rw [List.cons_append, readBasic, h]
    · exact ih (by simp)
    · exact hmode

theorem readBasic_escapedInLine (c : Char) : readBasic .plain done (escapedInLine c ++ rest) =
    readBasic .plain (c :: done) rest := by
  rcases escapedInLine_cases c with ⟨code, h, hspells⟩ | ⟨h, hplain⟩
  · rw [h, List.cons_append, readBasic, if_neg (by decide), if_pos rfl]
    exact readBasic_spells hspells (by simp)
  · rw [h, List.singleton_append, readBasic, if_neg hplain.quote, if_neg hplain.backslash,
      hplain.control]
    rfl

theorem readBasic_written (done cs rest : List Char) :
    readBasic .plain done (cs.flatMap escapedInLine ++ '"' :: rest) =
      some (String.ofList (done.reverse ++ cs), rest) := by
  induction cs generalizing done with
  | nil => simp [readBasic]
  | cons c cs ih =>
    rw [List.flatMap_cons, List.append_assoc, readBasic_escapedInLine, ih]
    simp

theorem readLiteral_written (done rest : List Char) (hcontrol : ∀ c ∈ cs, isControl c = false)
    (hquote : '\'' ∉ cs) : readLiteral done (cs ++ '\'' :: rest) =
      some (String.ofList (done.reverse ++ cs), rest) := by
  induction cs generalizing done with
  | nil => simp [readLiteral]
  | cons c cs ih =>
    have hc := hcontrol c List.mem_cons_self
    have hne : c ≠ '\'' := fun h => hquote (h ▸ List.mem_cons_self)
    rw [List.cons_append, readLiteral, if_neg hne, hc,
      ih (c :: done) (fun d hd => hcontrol d (List.mem_cons_of_mem _ hd))
        (fun h => hquote (List.mem_cons_of_mem _ h))]
    simp

/-- Between double quotes the second character is a quote only if nothing stands between them. -/
theorem readString?_inLineBasic (cs rest : List Char) :
    readString? (inLineBasic cs ++ '\n' :: rest) = some (some (String.ofList cs, '\n' :: rest)) := by
  have hread := readBasic_written [] cs ('\n' :: rest)
  rw [inLineBasic, List.cons_append, List.cons_append, List.append_assoc, List.singleton_append]
  cases cs with
  | nil => simpa [readString?] using hread
  | cons c cs =>
    rw [List.flatMap_cons, List.append_assoc] at hread ⊢
    rcases escapedInLine_cases c with ⟨code, h, -⟩ | ⟨h, hplain⟩
    · rw [h] at hread ⊢
      simpa [readString?] using hread
    · rw [h] at hread ⊢
      simpa [readString?, hplain.quote] using hread

theorem readString?_inLineLiteral (hcontrol : ∀ c ∈ cs, isControl c = false)
    (hquote : '\'' ∉ cs) : readString? (inLineLiteral cs ++ '\n' :: rest) =
      some (some (String.ofList cs, '\n' :: rest)) := by
  have hread := readLiteral_written [] ('\n' :: rest) hcontrol hquote
  rw [inLineLiteral, List.cons_append, List.cons_append, List.append_assoc, List.singleton_append]
  cases cs with
  | nil => simpa [readString?] using hread
  | cons c cs =>
    have hne : c ≠ '\'' := fun h => hquote (h ▸ List.mem_cons_self)
    simpa [readString?, hne] using hread

/-! ### Several lines -/

/-- Up to two quotes in front of the three that close belong to the text. -/
theorem closeLines?_closes (quote : Char) (hquote : quote ≠ '\n') {n : Nat} (hn : n ≤ 2) :
    closeLines? quote done
        (List.replicate n quote ++ quote :: quote :: quote :: '\n' :: rest) =
      some (String.ofList (done.reverse ++ List.replicate n quote), '\n' :: rest) := by
  have hne : '\n' ≠ quote := hquote.symm
  obtain rfl | rfl | rfl : n = 0 ∨ n = 1 ∨ n = 2 := by omega
  · cases rest <;> simp [closeLines?, hne]
  · simp [closeLines?, hne, List.replicate]
  · simp [closeLines?, List.replicate]

theorem closeLines?_eq_none {quote : Char} {text : List Char}
    (h : ∀ more, text ≠ quote :: quote :: quote :: more) : closeLines? quote done text = none := by
  unfold closeLines?
  split
  · rw [if_neg]
    rintro ⟨rfl, rfl, rfl⟩
    exact h _ rfl
  · rfl

/-- Three quotes in front come from the closing ones, with up to two quotes of the text. -/
theorem eq_replicate_of_triple {quote : Char} {text tail more : List Char}
    (h : text ++ quote :: quote :: quote :: tail = quote :: quote :: quote :: more)
    (htext : ∀ more, text ≠ quote :: quote :: quote :: more) :
    ∃ n ≤ 2, text = List.replicate n quote := by
  match text with
  | [] => exact ⟨0, by omega, rfl⟩
  | [a] =>
    simp only [List.cons_append, List.cons.injEq] at h
    exact ⟨1, by omega, by simp [h.1]⟩
  | [a, b] =>
    simp only [List.cons_append, List.cons.injEq] at h
    exact ⟨2, by omega, by simp [h.1, h.2.1, List.replicate]⟩
  | a :: b :: c :: text =>
    simp only [List.cons_append, List.cons.injEq] at h
    exact absurd (by rw [h.1, h.2.1, h.2.2.1]) (htext text)

theorem hasTriple_of_le {quote : Char} {run run' : Nat} (hle : run ≤ run') (hrun : run' ≤ 2)
    (h : hasTriple quote run cs = true) : hasTriple quote run' cs = true := by
  induction cs generalizing run run' with
  | nil => simp [hasTriple] at h
  | cons c cs ih =>
    by_cases hc : c = quote
    · simp only [hasTriple, hc, if_true, Bool.or_eq_true, decide_eq_true_eq] at h ⊢
      by_cases htwo : run' = 2
      · exact .inl htwo
      · refine .inr (ih (by omega) (by omega) (h.resolve_left (by omega)))
    · simp only [hasTriple, hc, if_false] at h ⊢
      exact h

theorem hasTriple_tail {quote : Char} (h : hasTriple quote 0 (c :: cs) = false) :
    hasTriple quote 0 cs = false := by
  by_cases hc : c = quote
  · cases htail : hasTriple quote 0 cs with
    | false => rfl
    | true =>
      have := hasTriple_of_le (Nat.zero_le 1) (by omega) htail
      simp [hasTriple, hc, this] at h
  · simpa [hasTriple, hc] using h

theorem ne_triple_of_hasTriple {quote : Char} (h : hasTriple quote 0 cs = false)
    (more : List Char) : cs ≠ quote :: quote :: quote :: more := by
  rintro rfl
  simp [hasTriple] at h

theorem readLiteralLines_closes {closed : String × List Char} {text : List Char}
    (h : closeLines? '\'' done text = some closed) : readLiteralLines done text = some closed := by
  match text with
  | [] => simp [closeLines?] at h
  | c :: text =>
    rw [readLiteralLines, h]
    rintro more rfl rfl
    simp [closeLines?] at h
    split at h <;> simp_all

/-- A carriage return counts as a control, so it is always escaped. -/
theorem ne_return_of_control (h : isControl c = true → c = '\n') : c ≠ '\r' := by
  rintro rfl
  exact absurd (h (by decide)) (by decide)

theorem readLiteralLines_push {text : List Char}
    (hopen : closeLines? '\'' done (c :: text) = none) (hcontrol : isControl c = true → c = '\n') :
    readLiteralLines done (c :: text) = readLiteralLines (c :: done) text := by
  rw [readLiteralLines, hopen]
  · exact if_neg fun h => h.2 (hcontrol h.1)
  · intro more h
    exact absurd h (ne_return_of_control hcontrol)

theorem readLiteralLines_written (done rest : List Char)
    (hcontrol : ∀ c ∈ cs, isControl c = true → c = '\n')
    (htriple : hasTriple '\'' 0 cs = false) :
    readLiteralLines done (cs ++ '\'' :: '\'' :: '\'' :: '\n' :: rest) =
      some (String.ofList (done.reverse ++ cs), '\n' :: rest) := by
  induction cs generalizing done with
  | nil => exact readLiteralLines_closes (closeLines?_closes '\'' (by decide) (Nat.zero_le 2))
  | cons c cs ih =>
    by_cases hclose : ∃ n ≤ 2, c :: cs = List.replicate n '\''
    · obtain ⟨n, hn, heq⟩ := hclose
      rw [heq]
      exact readLiteralLines_closes (closeLines?_closes '\'' (by decide) hn)
    · have hopen : closeLines? '\'' done
          (c :: (cs ++ '\'' :: '\'' :: '\'' :: '\n' :: rest)) = none :=
        closeLines?_eq_none fun more h =>
          hclose (eq_replicate_of_triple h (ne_triple_of_hasTriple htriple))
      rw [List.cons_append, readLiteralLines_push hopen (hcontrol c List.mem_cons_self),
        ih (c :: done) (fun d hd => hcontrol d (List.mem_cons_of_mem _ hd))
          (hasTriple_tail htriple)]
      simp

/-- Only a quote of the text that is not the third in a row is written as a bare quote. -/
theorem escapedLines_eq_quote {run : Nat} {more : List Char}
    (h : escapedLines run cs = '"' :: more) :
    run ≠ 2 ∧ ∃ cs', cs = '"' :: cs' ∧ more = escapedLines (run + 1) cs' := by
  cases cs with
  | nil => simp [escapedLines] at h
  | cons c cs =>
    unfold escapedLines at h
    split at h
    · rename_i hc
      split at h
      · simp at h
      · rename_i hrun
        exact ⟨hrun, cs, by rw [hc], by simpa using h.symm⟩
    · rename_i hc
      split at h
      · simp at h
      · rcases escaped_cases c with ⟨code, hcode, -⟩ | ⟨hself, -⟩
        · simp [hcode] at h
        · simp [hself, hc] at h

theorem escapedLines_ne_triple {run : Nat} (hrun : run ≤ 2) (more : List Char) :
    escapedLines run cs ≠ '"' :: '"' :: '"' :: more := by
  intro h
  obtain ⟨hfirst, cs₁, -, h⟩ := escapedLines_eq_quote h
  obtain ⟨hsecond, cs₂, -, h⟩ := escapedLines_eq_quote h.symm
  obtain ⟨hthird, -⟩ := escapedLines_eq_quote h.symm
  omega

theorem eq_replicate_of_escapedLines {run n : Nat}
    (h : escapedLines run cs = List.replicate n '"') : cs = List.replicate n '"' := by
  induction n generalizing run cs with
  | zero =>
    cases cs with
    | nil => rfl
    | cons c cs =>
      unfold escapedLines at h
      split at h
      · split at h <;> simp at h
      · split at h
        · simp at h
        · rcases escaped_cases c with ⟨code, hcode, -⟩ | ⟨hself, -⟩
          · simp [hcode] at h
          · simp [hself] at h
  | succ n ih =>
    obtain ⟨-, cs', rfl, hmore⟩ := escapedLines_eq_quote h
    rw [ih hmore.symm, List.replicate_succ]

theorem readBasicLines_closes {closed : String × List Char} {text : List Char}
    (h : closeLines? '"' done text = some closed) :
    readBasicLines .plain done text = some closed := by
  match text with
  | [] => simp [closeLines?] at h
  | c :: text =>
    rw [readBasicLines, if_neg (by simp), h]
    rintro more rfl rfl
    simp [closeLines?] at h
    split at h <;> simp_all

theorem readBasicLines_push {text : List Char}
    (hopen : closeLines? '"' done (c :: text) = none) (hbackslash : c ≠ '\\')
    (hcontrol : isControl c = true → c = '\n') :
    readBasicLines .plain done (c :: text) = readBasicLines .plain (c :: done) text := by
  rw [readBasicLines, if_neg (by simp), hopen]
  · simp only [if_neg hbackslash]
    exact if_neg fun h => h.2 (hcontrol h.1)
  · intro more h
    exact absurd h (ne_return_of_control hcontrol)

theorem readBasicLines_backslash {text : List Char} :
    readBasicLines .plain done ('\\' :: text) = readBasicLines .escape done text := by
  have hopen : closeLines? '"' done ('\\' :: text) = none := closeLines?_eq_none (by simp)
  rw [readBasicLines, if_neg (by simp), hopen]
  · rfl
  · simp

/-- A letter of an escape is none of the characters that break a line. -/
theorem stepEscape_solid {d : Char} {next : Mode × Option Char}
    (h : stepEscape mode d = some next) : d ≠ '\r' ∧ d ≠ '\n' ∧ d ≠ ' ' ∧ d ≠ '\t' := by
  refine ⟨?_, ?_, ?_, ?_⟩
  all_goals
    rintro rfl
    cases mode with
    | code left value => cases left <;> simp [stepEscape, hexDigit?] at h
    | plain => simp [stepEscape, shortEscape?, codeLength?] at h
    | escape => simp [stepEscape, shortEscape?, codeLength?] at h
    | lineBreak => simp [stepEscape, shortEscape?, codeLength?] at h
    | broken => simp [stepEscape, shortEscape?, codeLength?] at h

/-- Inside an escape, lines are read as a single line is. -/
theorem readBasicLines_escape {d : Char} {text : List Char} {next : Mode × Option Char}
    (h : stepEscape mode d = some next)
    (hmode : mode = .escape ∨ ∃ left value, mode = .code left value) :
    readBasicLines mode done (d :: text) =
      readBasicLines next.1 (next.2.toList ++ done) text := by
  obtain ⟨hreturn, hline, hblank, htab⟩ := stepEscape_solid h
  obtain ⟨next, e⟩ := next
  rcases hmode with rfl | ⟨left, value, rfl⟩
  · rw [readBasicLines, if_neg (by simp [hline]), if_neg (by simp [hblank, htab]), h]
    · cases e <;> rfl
    · intro more hd
      exact absurd hd hreturn
    · simp
    · simp
    · simp
  · rw [readBasicLines, if_neg (by simp), if_neg (by simp), h]
    · cases e <;> rfl
    · intro more hd
      exact absurd hd hreturn
    · simp
    · simp
    · simp

theorem readBasicLines_spells (h : Spells c mode ds)
    (hmode : mode = .escape ∨ ∃ left value, mode = .code left value) :
    readBasicLines mode done (ds ++ rest) = readBasicLines .plain (c :: done) rest := by
  induction h with
  | last h =>
    rw [List.cons_append, readBasicLines_escape h hmode]
    rfl
  | more left value h _ ih =>
    rw [List.cons_append, readBasicLines_escape h hmode]
    exact ih (.inr ⟨left, value, rfl⟩)

/-- The first character of a text is written as it is or as an escape. -/
theorem escapedLines_cons (c : Char) (cs : List Char) {run : Nat} (hrun : run ≤ 2) :
    ∃ run' ≤ 2,
      (∃ code, escapedLines run (c :: cs) = '\\' :: (code ++ escapedLines run' cs) ∧
        Spells c .escape code) ∨
      (escapedLines run (c :: cs) = c :: escapedLines run' cs ∧ c ≠ '\\' ∧
        (isControl c = true → c = '\n')) := by
  rw [escapedLines]
  split
  · rename_i hquote
    subst hquote
    split
    · exact ⟨0, by omega, .inl ⟨['"'], rfl, .last rfl⟩⟩
    · exact ⟨run + 1, by omega, .inr ⟨rfl, by decide, fun h => absurd h (by decide)⟩⟩
  · refine ⟨0, by omega, ?_⟩
    split
    · rename_i hline
      exact .inr ⟨by rw [hline], by simp [hline], fun _ => hline⟩
    · rcases escaped_cases c with ⟨code, hcode, hspells⟩ | ⟨hself, hbackslash, hcontrol⟩
      · exact .inl ⟨code, by rw [hcode, List.cons_append], hspells⟩
      · exact .inr ⟨by rw [hself, List.singleton_append], hbackslash, by simp [hcontrol]⟩

theorem readBasicLines_written (done cs rest : List Char) {run : Nat} (hrun : run ≤ 2) :
    readBasicLines .plain done (escapedLines run cs ++ '"' :: '"' :: '"' :: '\n' :: rest) =
      some (String.ofList (done.reverse ++ cs), '\n' :: rest) := by
  induction cs generalizing done run with
  | nil => exact readBasicLines_closes (closeLines?_closes '"' (by decide) (Nat.zero_le 2))
  | cons c cs ih =>
    by_cases hclose : ∃ n ≤ 2, escapedLines run (c :: cs) = List.replicate n '"'
    · obtain ⟨n, hn, heq⟩ := hclose
      rw [heq, eq_replicate_of_escapedLines heq]
      exact readBasicLines_closes (closeLines?_closes '"' (by decide) hn)
    · have hopen : closeLines? '"' done
          (escapedLines run (c :: cs) ++ '"' :: '"' :: '"' :: '\n' :: rest) = none :=
        closeLines?_eq_none fun more h =>
          hclose (eq_replicate_of_triple h (escapedLines_ne_triple hrun))
      have hdone : done.reverse ++ c :: cs = (c :: done).reverse ++ cs := by simp
      obtain ⟨run', hrun', ⟨code, hcode, hspells⟩ | ⟨hself, hbackslash, hcontrol⟩⟩ :=
        escapedLines_cons c cs hrun
      · rw [hcode, List.cons_append, List.append_assoc, readBasicLines_backslash,
          readBasicLines_spells hspells (.inl rfl), hdone]
        exact ih _ hrun'
      · rw [hself, List.cons_append] at hopen ⊢
        rw [readBasicLines_push hopen hbackslash hcontrol, hdone]
        exact ih _ hrun'

/-! ### The choice between the forms -/

/-- The line end behind the opening quotes is dropped, and nothing else. -/
theorem dropOpening_opening {raw : List Char} (h : '\n' ∉ cs → ∀ more, raw ≠ '\n' :: more)
    (hreturn : ∀ more, raw ≠ '\r' :: more) : dropOpening (opening cs ++ raw) = raw := by
  by_cases hline : '\n' ∈ cs
  · simp [opening, hline, dropOpening]
  · rw [opening, List.contains_eq_mem, decide_eq_false hline]
    unfold dropOpening
    split
    · rename_i heq
      exact absurd heq (h hline _)
    · rename_i heq
      exact absurd heq (hreturn _)
    · rfl

theorem readString?_linesLiteral (hcontrol : ∀ c ∈ cs, isControl c = true → c = '\n')
    (htriple : hasTriple '\'' 0 cs = false) :
    readString? (linesLiteral cs ++ '\n' :: rest) =
      some (some (String.ofList cs, '\n' :: rest)) := by
  have hdrop : dropOpening (opening cs ++ (cs ++ '\'' :: '\'' :: '\'' :: '\n' :: rest)) =
      cs ++ '\'' :: '\'' :: '\'' :: '\n' :: rest := by
    apply dropOpening_opening
    · intro hline more h
      cases cs with
      | nil => simp at h
      | cons c cs => exact hline ((List.cons.inj h).1 ▸ List.mem_cons_self)
    · intro more h
      cases cs with
      | nil => simp at h
      | cons c cs =>
        exact ne_return_of_control (hcontrol c List.mem_cons_self) (List.cons.inj h).1
  have hread := readLiteralLines_written [] rest hcontrol htriple
  simp only [linesLiteral, List.cons_append, List.nil_append, List.append_assoc, readString?,
    hdrop, hread, List.reverse_nil]

theorem readString?_linesBasic (cs rest : List Char) :
    readString? (linesBasic cs ++ '\n' :: rest) =
      some (some (String.ofList cs, '\n' :: rest)) := by
  have hdrop : dropOpening (opening cs ++ (escapedLines 0 cs ++ '"' :: '"' :: '"' :: '\n' :: rest)) =
      escapedLines 0 cs ++ '"' :: '"' :: '"' :: '\n' :: rest := by
    cases cs with
    | nil => rfl
    | cons c cs =>
      obtain ⟨run, -, ⟨code, hcode, -⟩ | ⟨hself, -, hcontrol⟩⟩ :=
        escapedLines_cons c cs (Nat.zero_le 2)
      · exact dropOpening_opening (by simp [hcode]) (by simp [hcode])
      · refine dropOpening_opening ?_ ?_
        · intro hline more h
          rw [hself] at h
          exact hline ((List.cons.inj h).1 ▸ List.mem_cons_self)
        · intro more h
          rw [hself] at h
          exact ne_return_of_control hcontrol (List.cons.inj h).1
  have hread := readBasicLines_written [] cs rest (Nat.zero_le 2)
  simp only [linesBasic, List.cons_append, List.nil_append, List.append_assoc, readString?,
    hdrop, hread, List.reverse_nil]

theorem written_head (cs : List Char) :
    ∃ quote more, written cs = quote :: more ∧ (quote = '"' ∨ quote = '\'') := by
  unfold written
  dsimp only
  split
  · exact ⟨_, _, rfl, .inl rfl⟩
  split
  · exact ⟨_, _, rfl, .inr rfl⟩
  split
  · exact ⟨_, _, rfl, .inl rfl⟩
  split
  · exact ⟨_, _, rfl, .inr rfl⟩
  split
  · exact ⟨_, _, rfl, .inl rfl⟩
  · exact ⟨_, _, rfl, .inl rfl⟩

/-- Whatever a string holds, it is read as it was written. -/
theorem readString?_written (cs rest : List Char) :
    readString? (written cs ++ '\n' :: rest) = some (some (String.ofList cs, '\n' :: rest)) := by
  -- the forms without escapes are taken only for texts that need none
  have hcontrol : (!cs.any fun c => isControl c && c != '\n') = true →
      ∀ c ∈ cs, isControl c = true → c = '\n' := by
    simp
  unfold written
  dsimp only
  split
  · exact readString?_inLineBasic cs rest
  split
  · rename_i h
    simp only [Bool.and_eq_true] at h
    obtain ⟨⟨hcontrols, hline⟩, hquote⟩ := h
    refine readString?_inLineLiteral ?_ (by simpa using hquote)
    intro c hc
    cases hcase : isControl c with
    | false => rfl
    | true =>
      have hnewline := hcontrol hcontrols c hc hcase
      exact absurd hc (by simpa [hnewline] using hline)
  split
  · exact readString?_linesBasic cs rest
  split
  · rename_i h
    simp only [Bool.and_eq_true] at h
    exact readString?_linesLiteral (hcontrol h.1) (by simpa using h.2)
  split
  · exact readString?_linesBasic cs rest
  · exact readString?_inLineBasic cs rest

end DollarScript.Toml
