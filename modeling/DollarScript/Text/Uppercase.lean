import DollarScript.Text.UppercaseTable

/-! Upper case of whole texts; a letter may become several. -/
namespace DollarScript.Text

/-- The upper case of one character. -/
def upperChar (c : Char) : List Char :=
  match Uppercase.strides.findSome? (·.send? c.toNat) with
  | some image => [Char.ofNat image]
  | none =>
    match Uppercase.expansions.lookup c.toNat with
    | some images => images.map Char.ofNat
    | none => [c]

def upper (s : String) : String := String.ofList (s.toList.flatMap upperChar)

end DollarScript.Text
