import DollarScript.Grammar
import DollarScript.Proofs.Registry.Builtin

/-! The registry of a grammar is there unless an entry is wrong, and then the first one that is
wrong is told. -/
namespace DollarScript

open Text

/-- The engine takes the patterns of the built-in kinds. -/
def Libraries.TakeBuiltin [Libraries] : Prop :=
  ∀ entry ∈ Kind.table, (Libraries.regex? entry.pattern).isSome

theorem Libraries.own_takeBuiltin : Libraries.TakeBuiltin := by
  have hshapes := Kind.table_shapes.imp
    (S := fun entry s => (Pattern.regex? entry.pattern).isSome ∧ Kind.HasShape entry s)
    fun entry s hshape => ⟨by rw [hshape.2]; rfl, hshape⟩
  exact ((List.forall₂_and_left _ _).mp hshapes).1

namespace TokenSpec

theorem not_blank {t : TokenSpec} (h : ∃ c ∈ t.name.toList, isWhite c = false) :
    ¬ t.name.toList.all isWhite = true := by
  obtain ⟨c, hc, hwhite⟩ := h
  intro hall
  rw [List.all_eq_true.mp hall c hc] at hwhite
  cases hwhite

variable [Libraries]

/-- Nothing is wrong with the entry. -/
structure Sound (t : TokenSpec) : Prop where
  named : ∃ c ∈ t.name.toList, isWhite c = false
  patterned : t.pattern ≠ ""
  compiles : t.literal = false → (Libraries.regex? t.pattern).isSome

/-- What is wrong with the entry at an index: its name is looked at first, then the pattern. -/
inductive Wrong (index : Nat) (t : TokenSpec) : GrammarError → Prop
  | blankName : (∀ c ∈ t.name.toList, isWhite c = true) → Wrong index t (.emptyName index)
  | emptyPattern : (∃ c ∈ t.name.toList, isWhite c = false) → t.pattern = "" →
      Wrong index t (.emptyPattern t.name)
  | invalidRegex : (∃ c ∈ t.name.toList, isWhite c = false) → t.pattern ≠ "" → t.literal = false →
      Libraries.regex? t.pattern = none → Wrong index t (.invalidPattern t.name t.pattern)

variable {t : TokenSpec} {index : Nat} {e : GrammarError}

theorem build_of_sound (index : Nat) (h : t.Sound) : ∃ p, t.build index = .ok p := by
  have hpattern : ∃ p, t.pattern? = some p := by
    unfold pattern?
    split
    · exact ⟨_, rfl⟩
    · exact Option.isSome_iff_exists.mp (h.compiles (by simpa using ‹¬ t.literal = true›))
  obtain ⟨p, hp⟩ := hpattern
  refine ⟨p, ?_⟩
  rw [build, if_neg (not_blank h.named), if_neg h.patterned, hp]

theorem build_of_wrong (h : t.Wrong index e) : t.build index = .error e := by
  cases h with
  | blankName hblank => rw [build, if_pos (List.all_eq_true.mpr hblank)]
  | emptyPattern hnamed hempty => rw [build, if_neg (not_blank hnamed), if_pos hempty]
  | invalidRegex hnamed hpatterned hliteral hregex =>
    have hnone : t.pattern? = none := by simp [pattern?, hliteral, hregex]
    rw [build, if_neg (not_blank hnamed), if_neg hpatterned, hnone]

theorem sound_or_wrong (index : Nat) (t : TokenSpec) : t.Sound ∨ ∃ e, t.Wrong index e := by
  by_cases hblank : ∀ c ∈ t.name.toList, isWhite c = true
  · exact .inr ⟨_, .blankName hblank⟩
  have hnamed : ∃ c ∈ t.name.toList, isWhite c = false := by simpa using hblank
  by_cases hempty : t.pattern = ""
  · exact .inr ⟨_, .emptyPattern hnamed hempty⟩
  by_cases hcompiles : t.literal = false → (Libraries.regex? t.pattern).isSome
  · exact .inl ⟨hnamed, hempty, hcompiles⟩
  · rw [Classical.not_imp, Option.not_isSome_iff_eq_none] at hcompiles
    exact .inr ⟨_, .invalidRegex hnamed hempty hcompiles.1 hcompiles.2⟩

end TokenSpec

namespace Grammar

variable [Libraries]

/-- The first entry that is wrong, in the order of the file, and what is wrong with it. -/
def FirstWrong (specs : List TokenSpec) (e : GrammarError) : Prop :=
  ∃ before t after, specs = before ++ t :: after ∧ (∀ u ∈ before, u.Sound) ∧
    t.Wrong before.length e

variable {r : Registry} {specs before after : List TokenSpec} {t : TokenSpec} {index : Nat}
  {e : GrammarError}

theorem registerAll_of_sound (r : Registry) (index : Nat) (h : ∀ t ∈ specs, t.Sound) :
    ∃ r', registerAll r index specs = .ok r' := by
  induction specs generalizing r index with
  | nil => exact ⟨r, rfl⟩
  | cons t specs ih =>
    obtain ⟨p, hp⟩ := TokenSpec.build_of_sound index (h t List.mem_cons_self)
    rw [registerAll, hp]
    exact ih _ _ fun u hu => h u (List.mem_cons_of_mem _ hu)

theorem registerAll_of_wrong (r : Registry) (hbefore : ∀ u ∈ before, u.Sound)
    (ht : t.Wrong (index + before.length) e) :
    registerAll r index (before ++ t :: after) = .error e := by
  induction before generalizing r index with
  | nil =>
    rw [List.length_nil, Nat.add_zero] at ht
    rw [List.nil_append, registerAll, TokenSpec.build_of_wrong ht]
  | cons u before ih =>
    obtain ⟨p, hp⟩ := TokenSpec.build_of_sound index (hbefore u List.mem_cons_self)
    rw [List.cons_append, registerAll, hp]
    rw [List.length_cons, Nat.add_comm before.length, ← Nat.add_assoc] at ht
    exact ih _ (fun v hv => hbefore v (List.mem_cons_of_mem _ hv)) ht

theorem registry_of_firstWrong {g : Grammar} (h : FirstWrong g.tokens e) :
    g.registry = .error e := by
  obtain ⟨before, t, after, htokens, hbefore, ht⟩ := h
  rw [registry, htokens]
  exact registerAll_of_wrong .empty hbefore (by rwa [Nat.zero_add])

theorem sound_or_firstWrong (specs : List TokenSpec) :
    (∀ t ∈ specs, t.Sound) ∨ ∃ e, FirstWrong specs e := by
  induction specs using List.reverseRecOn with
  | nil => exact .inl (by simp)
  | append_singleton specs t ih =>
    rcases ih with hsound | ⟨e, before, u, after, rfl, hbefore, hu⟩
    · rcases t.sound_or_wrong specs.length with ht | ⟨e, ht⟩
      · refine .inl ?_
        simpa [or_imp, forall_and] using ⟨hsound, ht⟩
      · exact .inr ⟨e, specs, t, [], rfl, hsound, ht⟩
    · exact .inr ⟨e, before, u, after ++ [t], by simp, hbefore, hu⟩

theorem sound_builtinTokens (h : Libraries.TakeBuiltin) : ∀ t ∈ builtinTokens, t.Sound := by
  intro t ht
  obtain ⟨entry, hentry, rfl⟩ := List.mem_map.mp ht
  have hfields : ∀ entry ∈ Kind.table, entry.name.toList.any (!isWhite ·) = true ∧
      entry.pattern ≠ "" := by decide
  obtain ⟨hnamed, hpatterned⟩ := hfields entry hentry
  exact ⟨by simpa using hnamed, hpatterned, fun _ => h entry hentry⟩

end Grammar

end DollarScript
