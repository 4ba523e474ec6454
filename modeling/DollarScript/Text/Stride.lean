/-! Maps between letters that run in step: every `step`-th letter from `first` to `last`. -/
namespace DollarScript.Text

/-- Sends `first + k` to `image + k` for every multiple `k` of `step` up to `last`. -/
structure Stride where
  first : Nat
  last : Nat
  step : Nat
  image : Nat

namespace Stride

def send? (r : Stride) (n : Nat) : Option Nat :=
  if r.first ≤ n ∧ n ≤ r.last ∧ (n - r.first) % r.step = 0 then some (r.image + (n - r.first))
  else none

/-- The letter that the stride sends to `n`, if there is one. -/
def preimage? (r : Stride) (n : Nat) : Option Nat :=
  if r.image ≤ n ∧ n - r.image ≤ r.last - r.first ∧ (n - r.image) % r.step = 0 then
    some (r.first + (n - r.image))
  else none

end Stride

end DollarScript.Text
