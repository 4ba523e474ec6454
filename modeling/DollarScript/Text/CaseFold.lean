import DollarScript.Text.CaseFoldTable

/-! Letters that differ only in case. -/
namespace DollarScript.Text

/-- The letter that stands for all those equal to `c` up to case. -/
def foldChar (c : Char) : Char :=
  match CaseFold.strides.findSome? (·.send? c.toNat) with
  | some image => Char.ofNat image
  | none => c

/-- All characters equal to `c` up to case, `c` among them. -/
def caseClass (c : Char) : List Char :=
  let leader := foldChar c
  leader :: CaseFold.strides.filterMap fun r => (r.preimage? leader.toNat).map Char.ofNat

end DollarScript.Text
