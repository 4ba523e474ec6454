import DollarScript.Proofs.Parser.Acceptance

/-! What an expression means can be read off its tokens: they are split at the last operator that
binds least, and so are both sides. -/
namespace DollarScript

namespace Parser

/-- How many square brackets are open behind a token if `depth` were before. -/
def squares (depth : Nat) (t : Token) : Nat :=
  if t.kind = Kind.openSquare then depth + 1
  else if t.kind = Kind.closeSquare then depth - 1
  else depth

/-- The tokens on both sides of an operator. -/
structure Split where
  before : List Token
  op : BinaryOp
  after : List Token

/-- The split at the last of the operators outside all square brackets, of which `depth` are open
in front of the tokens. -/
def splitLast? (ops : List BinaryOp) : (depth : Nat) → List Token → Option Split
  | _, [] => none
  | depth, t :: ts =>
    match splitLast? ops (squares depth t) ts with
    | some s => some { s with before := t :: s.before }
    | none => if depth = 0 then (opAmong ops t).map fun op => ⟨[], op, ts⟩ else none

/-- The split at the last sign of a sum or, without one, at the last sign of a product. -/
def split? (ts : List Token) : Option Split :=
  (splitLast? Layer.sum.ops 0 ts).or (splitLast? Layer.term.ops 0 ts)

/-- What stands between an opening bracket in front and a closing one at the end. -/
def inBrackets? : List Token → Option (List Token)
  | [] => none
  | opener :: ts =>
    match ts.getLast? with
    | none => none
    | some closer =>
      if opener.kind = Kind.openSquare ∧ closer.kind = Kind.closeSquare then some ts.dropLast
      else none

/-- A number or a variable that stands alone. -/
def leaf? : List Token → Option Expr
  | [t] =>
    if t.kind = Kind.number then (Binary64.read? t.text).map .number
    else if t.kind = Kind.var then some (.var t.text)
    else none
  | _ => none

section Length
variable {ops : List BinaryOp} {depth : Nat} {ts us : List Token} {s : Split}

theorem length_of_splitLast? (h : splitLast? ops depth ts = some s) :
    s.before.length + s.after.length < ts.length := by
  fun_induction splitLast? ops depth ts generalizing s with
  | case1 => cases h
  | case2 depth t ts s' hs ih =>
    cases h
    have hlt := ih hs
    simp only [List.length_cons]
    omega
  | case3 t ts _ ih =>
    obtain ⟨op, -, rfl⟩ := Option.map_eq_some_iff.mp h
    simp
  | case4 => cases h

theorem length_of_split? (h : split? ts = some s) :
    s.before.length < ts.length ∧ s.after.length < ts.length := by
  have hlt : s.before.length + s.after.length < ts.length := by
    rcases Option.or_eq_some_iff.mp h with h | ⟨-, h⟩
    · exact length_of_splitLast? h
    · exact length_of_splitLast? h
  omega

theorem length_of_inBrackets? (h : inBrackets? ts = some us) : us.length < ts.length := by
  unfold inBrackets? at h
  split at h
  · cases h
  · split at h
    · cases h
    · split at h
      · cases h
        simp only [List.length_dropLast, List.length_cons]
        omega
      · cases h

end Length

/-- The meaning of an expression, by what its tokens are: two sides of an operator, an expression
in brackets, or an operand. -/
def reading (ts : List Token) : Option Expr :=
  match h : split? ts with
  | some s =>
    have := length_of_split? h
    do
      let left ← reading s.before
      let right ← reading s.after
      return .binary s.op left right
  | none =>
    match h : inBrackets? ts with
    | some us =>
      have := length_of_inBrackets? h
      reading us
    | none => leaf? ts
termination_by ts.length

variable {ops free : List BinaryOp} {depth : Nat} {ts us pre : List Token} {t : Token}
  {left right : Expr} {s : Split} {layer : Layer} {op : BinaryOp}

theorem reading_of_split (h : split? ts = some s) (hl : reading s.before = some left)
    (hr : reading s.after = some right) : reading ts = some (.binary s.op left right) := by
  rw [reading]
  split
  · rename_i s' hs
    cases h.symm.trans hs
    simp [hl, hr]
  · rename_i hn
    cases h.symm.trans hn

theorem reading_of_brackets (h : split? ts = none) (hb : inBrackets? ts = some us) :
    reading ts = reading us := by
  rw [reading]
  split
  · rename_i hs
    cases h.symm.trans hs
  · split
    · rename_i us' hu
      cases hb.symm.trans hu
      rfl
    · rename_i hn
      cases hb.symm.trans hn

theorem reading_of_leaf (h : split? [t] = none) : reading [t] = leaf? [t] := by
  rw [reading]
  split
  · rename_i hs
    cases h.symm.trans hs
  · split
    · rename_i us hu
      cases hu
    · rfl

/-- The last operator of a text is in its second part, if that has one. -/
theorem splitLast?_append (ops : List BinaryOp) (depth : Nat) (ts us : List Token) :
    splitLast? ops depth (ts ++ us) = match splitLast? ops (ts.foldl squares depth) us with
      | some s => some { s with before := ts ++ s.before }
      | none => (splitLast? ops depth ts).map fun s => { s with after := s.after ++ us } := by
  induction ts generalizing depth with
  | nil =>
    cases h : splitLast? ops depth us <;> simp [h, splitLast?]
  | cons t ts ih =>
    simp only [List.cons_append, splitLast?, ih, List.foldl_cons]
    cases splitLast? ops (ts.foldl squares (squares depth t)) us with
    | some s => rfl
    | none =>
      cases splitLast? ops (squares depth t) ts with
      | some s => rfl
      | none =>
        by_cases hd : depth = 0
        · simp [hd, Function.comp_def]
        · simp [hd]

/-- All brackets are closed, and only the `free` operators stand outside of them. -/
structure Enclosed (free : List BinaryOp) (ts : List Token) : Prop where
  closes : ∀ depth, ts.foldl squares depth = depth
  hides : ∀ ops depth, (depth = 0 → ∀ op ∈ ops, op ∉ free) → splitLast? ops depth ts = none

theorem Enclosed.mono {free' : List BinaryOp} (h : Enclosed free ts) (hsub : free ⊆ free') :
    Enclosed free' ts := by
  refine ⟨h.closes, ?_⟩
  intro ops depth hops
  exact h.hides ops depth fun hd op hop hmem => hops hd op hop (hsub hmem)

theorem enclosed_nil (free : List BinaryOp) : Enclosed free [] :=
  ⟨fun _ => rfl, fun _ _ _ => rfl⟩

theorem Enclosed.append (h : Enclosed free ts) (h' : Enclosed free us) :
    Enclosed free (ts ++ us) := by
  constructor
  · intro depth
    rw [List.foldl_append, h.closes, h'.closes]
  · intro ops depth hops
    rw [splitLast?_append, h.closes, h'.hides ops depth hops, h.hides ops depth hops]
    rfl

/-- A token that is no bracket, and no operator but a free one. -/
theorem enclosed_single (ho : t.kind ≠ Kind.openSquare) (hc : t.kind ≠ Kind.closeSquare)
    (hfree : ∀ op : BinaryOp, t.kind = op.kind → op ∈ free) : Enclosed free [t] := by
  constructor
  · intro depth
    simp [squares, ho, hc]
  · intro ops depth hops
    simp only [splitLast?]
    split
    · rename_i hd
      rw [opAmong_eq_none.mpr, Option.map_none]
      intro op hop hk
      exact hops hd op hop (hfree op hk)
    · rfl

theorem enclosed_leaf (h : t.kind ∈ [Kind.number, Kind.var]) : Enclosed [] [t] := by
  have hplain : ∀ k ∈ [Kind.number, Kind.var],
      k ≠ Kind.openSquare ∧ k ≠ Kind.closeSquare ∧ k ∈ factorStarts := by
    decide
  obtain ⟨ho, hc, hstart⟩ := hplain _ h
  refine enclosed_single ho hc ?_
  intro op hk
  exact absurd (hk ▸ hstart) (op_not_factorStart op)

theorem op_not_square (op : BinaryOp) :
    op.kind ≠ Kind.openSquare ∧ op.kind ≠ Kind.closeSquare := by
  cases op <;> decide

theorem enclosed_sign (sign : Terminal op.kind) (h : op ∈ free) : Enclosed free [sign.val] := by
  apply enclosed_single
  · rw [sign.2]
    exact (op_not_square op).1
  · rw [sign.2]
    exact (op_not_square op).2
  · intro op' hk
    rwa [← kind_injective (sign.2.symm.trans hk)]

/-- Within brackets no operator is outside of them. -/
theorem Enclosed.bracketed (opener : Terminal Kind.openSquare)
    (closer : Terminal Kind.closeSquare) (h : Enclosed free ts) :
    Enclosed [] (opener.val :: (ts ++ [closer.val])) := by
  have hopen : ∀ depth, squares depth opener.val = depth + 1 := by
    intro depth
    simp [squares, opener.2]
  have hclose : ∀ depth, squares (depth + 1) closer.val = depth := by
    intro depth
    simp [squares, closer.2, show Kind.closeSquare ≠ Kind.openSquare by decide]
  constructor
  · intro depth
    simp [hopen, hclose, h.closes]
  · intro ops depth _
    have hinner : splitLast? ops (depth + 1) (ts ++ [closer.val]) = none := by
      rw [splitLast?_append, h.closes, h.hides ops (depth + 1) (by simp)]
      simp [splitLast?]
    have hnone : opAmong ops opener.val = none := by
      rw [opAmong_eq_none]
      intro op _ hk
      exact (op_not_square op).1 (hk.symm.trans opener.2)
    rw [splitLast?, hopen, hinner, hnone]
    simp

/-- The operators that can stand outside all brackets. -/
def Rank.signs : Rank → List BinaryOp
  | .factor => []
  | .chain layer => layer.reach

theorem operand_signs_subset (layer : Layer) : layer.operandRank.signs ⊆ layer.reach := by
  cases layer <;> decide

theorem not_operand_sign (h : op ∈ layer.ops) : op ∉ layer.operandRank.signs := by
  revert h
  cases layer <;> cases op <;> decide

theorem sum_not_reach_term (h : op ∈ Layer.sum.ops) : op ∉ Layer.term.reach := by
  revert h
  cases op <;> decide

variable {delimiter : Option String} {sym : Symbol}

def Derivation.IsEnclosed : {sym : Symbol} → Derivation delimiter sym → Prop
  | .expr rank, d => Enclosed rank.signs d.yield
  | .further layer, d => Enclosed layer.reach d.yield
  | _, _ => True

theorem Derivation.isEnclosed (d : Derivation delimiter sym) : d.IsEnclosed := by
  induction d with
  | number t => exact enclosed_leaf (by simp [t.2])
  | var t => exact enclosed_leaf (by simp [t.2])
  | bracketed opener inner closer ih => exact Enclosed.bracketed opener closer ih
  | @chain layer first more ihf ihm =>
    have hfirst := Enclosed.mono ihf (operand_signs_subset layer)
    exact hfirst.append ihm
  | last => exact enclosed_nil _
  | @further layer op among sign operand more iho ihm =>
    have hsign := enclosed_sign sign (mem_reach among)
    have hoperand := Enclosed.mono iho (operand_signs_subset layer)
    exact hsign.append (hoperand.append ihm)
  | _ => trivial

theorem splitLast?_sign (sign : Terminal op.kind) (h : op ∈ ops)
    (hnone : splitLast? ops 0 ts = none) :
    splitLast? ops 0 (sign.val :: ts) = some ⟨[], op, ts⟩ := by
  have hsquares : squares 0 sign.val = 0 := by
    simp [squares, sign.2, op_not_square]
  rw [splitLast?, hsquares, hnone, opAmong_eq_some.mpr ⟨h, sign.2⟩]
  rfl

/-- Behind what a chain has read so far, its next operator splits the tokens. -/
theorem split?_sign (among : op ∈ layer.ops) (sign : Terminal op.kind)
    (hpre : Enclosed layer.reach pre) (hts : Enclosed layer.operandRank.signs ts) :
    split? (pre ++ sign.val :: ts) = some ⟨pre, op, ts⟩ := by
  have hnone : splitLast? layer.ops 0 ts = none :=
    hts.hides _ 0 fun _ op' hop => not_operand_sign hop
  have hlast : splitLast? layer.ops 0 (pre ++ sign.val :: ts) = some ⟨pre, op, ts⟩ := by
    rw [splitLast?_append, hpre.closes, splitLast?_sign sign among hnone]
    simp
  cases layer with
  | sum => exact Option.or_eq_some_iff.mpr (.inl hlast)
  | term =>
    -- no sign of a sum stands on either side
    have hts' : Enclosed Layer.term.reach ts := hts.mono (operand_signs_subset .term)
    have hwhole : Enclosed Layer.term.reach (pre ++ sign.val :: ts) :=
      hpre.append ((enclosed_sign sign (mem_reach among)).append hts')
    have hsum : splitLast? Layer.sum.ops 0 (pre ++ sign.val :: ts) = none :=
      hwhole.hides _ 0 fun _ op' hop => sum_not_reach_term hop
    exact Option.or_eq_some_iff.mpr (.inr ⟨hsum, hlast⟩)

/-- Nothing splits a factor. -/
theorem split?_factor (d : Derivation delimiter (.expr .factor)) : split? d.yield = none := by
  have h : Enclosed [] d.yield := d.isEnclosed
  rw [split?, h.hides _ 0 (by simp), h.hides _ 0 (by simp)]
  rfl

theorem inBrackets?_bracketed (opener : Terminal Kind.openSquare)
    (closer : Terminal Kind.closeSquare) (ts : List Token) :
    inBrackets? (opener.val :: (ts ++ [closer.val])) = some ts := by
  simp [inBrackets?, opener.2, closer.2]

/-- The reading of what is derived is its tree; a chain goes on from what stands before it. -/
def Derivation.ReadsBack : {sym : Symbol} → Derivation delimiter sym → Prop
  | .expr _, d => reading d.yield = some d.tree
  | .further layer, d => ∀ pre left, Enclosed layer.reach pre → reading pre = some left →
    reading (pre ++ d.yield) = some (d.tree left)
  | _, _ => True

theorem Derivation.readsBack (d : Derivation delimiter sym) : d.ReadsBack := by
  induction d with
  | number t value readable =>
    have hleaf : reading [t.val] = leaf? [t.val] :=
      reading_of_leaf (split?_factor (Derivation.number t value readable : Derivation delimiter _))
    exact hleaf.trans (by simp [leaf?, t.2, readable, Derivation.tree])
  | var t =>
    have hleaf : reading [t.val] = leaf? [t.val] :=
      reading_of_leaf (split?_factor (Derivation.var t : Derivation delimiter _))
    exact hleaf.trans (by simp [leaf?, t.2, kinds_of_factors.1.symm, Derivation.tree])
  | bracketed opener inner closer ih =>
    have hinner := reading_of_brackets (split?_factor (.bracketed opener inner closer))
      (inBrackets?_bracketed opener closer inner.yield)
    exact hinner.trans ih
  | @chain layer first more ihf ihm =>
    have hfirst : Enclosed layer.operandRank.signs first.yield := first.isEnclosed
    exact ihm _ _ (hfirst.mono (operand_signs_subset layer)) ihf
  | last =>
    intro pre left _ hleft
    simpa [Derivation.yield, Derivation.tree] using hleft
  | @further layer op among sign operand more iho ihm =>
    intro pre left hpre hleft
    have hoperand : Enclosed layer.operandRank.signs operand.yield := operand.isEnclosed
    have hread : reading (pre ++ sign.val :: operand.yield) =
        some (.binary op left operand.tree) :=
      reading_of_split (split?_sign among sign hpre hoperand) hleft iho
    have henclosed : Enclosed layer.reach (pre ++ sign.val :: operand.yield) :=
      hpre.append ((enclosed_sign sign (mem_reach among)).append
        (hoperand.mono (operand_signs_subset layer)))
    have hmore := ihm _ _ henclosed hread
    simpa [Derivation.yield, Derivation.tree] using hmore
  | _ => trivial

/-- A statement by itself that starts with a variable is an assignment. -/
theorem exists_value {d : Derivation delimiter .statements} {target sign : Token}
    {st : Statement} (hy : d.yield = target :: sign :: ts) (hk : target.kind = Kind.var)
    (ht : d.tree = [st]) : ∃ value : Derivation delimiter (.expr (.chain .sum)),
      value.yield = ts ∧ st = .assignment target.text value.tree := by
  cases d with
  | nil => cases ht
  | cons s rest =>
    obtain ⟨rfl, hrest⟩ := List.cons.inj ht
    cases rest with
    | cons s' rest => cases hrest
    | nil =>
      simp only [Derivation.yield, List.append_nil] at hy
      cases s with
      | ofConditional c =>
        obtain ⟨keyword, us, hc⟩ := c.conditional_yield
        obtain ⟨rfl, -⟩ := List.cons.inj (hc.symm.trans hy)
        exact absurd (keyword.2.symm.trans hk) (by decide)
      | ofBlock b =>
        obtain ⟨opener, us, hb⟩ := b.block_yield
        obtain ⟨rfl, -⟩ := List.cons.inj (hb.symm.trans hy)
        exact absurd (opener.2.symm.trans hk) (by decide)
      | ofAssignment a =>
        cases a with
        | assignment target' sign' value =>
          obtain ⟨rfl, htail⟩ := List.cons.inj hy
          exact ⟨value, (List.cons.inj htail).2, rfl⟩

end Parser

open DollarScript.Parser

/-- Where one assignment is all that was parsed, its value is the reading of what stands behind
its sign. -/
theorem assigned_value_is_reading (options : ParserOptions) (target sign eof : Token)
    (ts : List Token) (he : eof.kind = Kind.eof) (hk : target.kind = Kind.var)
    (hok : (parseTokens options ⟨target :: sign :: ts, eof⟩).success = true)
    (hone : (parseTokens options ⟨target :: sign :: ts, eof⟩).program.statements.length = 1) :
    ∃ value, reading ts = some value ∧
      (parseTokens options ⟨target :: sign :: ts, eof⟩).program.statements =
        [.assignment target.text value] := by
  obtain ⟨log, ss, hrun, heq⟩ := parseTokens_runs options ⟨target :: sign :: ts, eof⟩
  have hlog : noted log = [] := by simpa [ParseResult.success, heq] using hok
  obtain ⟨d, ⟨hy, -, -⟩, ht⟩ := hrun.derived he hlog rfl
  rw [heq] at hone ⊢
  obtain ⟨st, rfl⟩ := List.length_eq_one_iff.mp hone
  rw [List.append_nil] at hy
  obtain ⟨value, hvalue, rfl⟩ := exists_value hy hk ht
  have hread : reading value.yield = some value.tree := value.readsBack
  exact ⟨value.tree, hvalue ▸ hread, rfl⟩

/-- `$x = $a - [$b + $c] * $d / $e - $f` -/
def mixedSum : TokenStream where
  tokens := [
    .placeless Kind.var "$x" [], .placeless Kind.assign "=" [], .placeless Kind.var "$a" [],
    .placeless Kind.minus "-" [], .placeless Kind.openSquare "[" [],
    .placeless Kind.var "$b" [], .placeless Kind.plus "+" [], .placeless Kind.var "$c" [],
    .placeless Kind.closeSquare "]" [], .placeless Kind.multiply "*" [],
    .placeless Kind.var "$d" [], .placeless Kind.divide "/" [], .placeless Kind.var "$e" [],
    .placeless Kind.minus "-" [], .placeless Kind.var "$f" []]
  eof := .placeless Kind.eof "" []

/-- The last minus splits the tokens, then the first one, then the division. -/
theorem reading_of_mixedSum :
    (parseTokens ⟨none, 1⟩ mixedSum).success = true ∧
    (parseTokens ⟨none, 1⟩ mixedSum).program.statements.length = 1 ∧
    reading (mixedSum.tokens.drop 2) = some (.binary .sub
      (.binary .sub (.var "$a") (.binary .div (.binary .mul
        (.binary .add (.var "$b") (.var "$c")) (.var "$d")) (.var "$e")))
      (.var "$f")) := by
  have hok : (parseTokens ⟨none, 1⟩ mixedSum).success = true := by decide
  have hone : (parseTokens ⟨none, 1⟩ mixedSum).program.statements.length = 1 := by decide
  obtain ⟨value, hvalue, hparsed⟩ := assigned_value_is_reading ⟨none, 1⟩
    (.placeless Kind.var "$x" []) (.placeless Kind.assign "=" []) (.placeless Kind.eof "" [])
    (mixedSum.tokens.drop 2) rfl rfl hok hone
  refine ⟨hok, hone, hvalue.trans ?_⟩
  cases hparsed
  rfl

end DollarScript
