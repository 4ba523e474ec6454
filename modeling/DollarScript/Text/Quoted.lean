import DollarScript.Text.Property

/-! Texts between double quotes, with every character that would not show written as an escape. -/
namespace DollarScript.Text

def hexDigits (n : Nat) : List Char := Nat.toDigits 16 n

/-- Named escapes first; then combining and unprintable characters by their code point. -/
def quotedChar (c : Char) : List Char :=
  match c with
  | '\x00' => ['\\', '0']
  | '\t' => ['\\', 't']
  | '\r' => ['\\', 'r']
  | '\n' => ['\\', 'n']
  | '\\' => ['\\', '\\']
  | '"' => ['\\', '"']
  | c =>
    if isPrintable c && !isExtender c then [c]
    else ['\\', 'u', '\x7b'] ++ hexDigits c.toNat ++ ['\x7d']

def quoted (s : String) : String :=
  String.ofList ('"' :: s.toList.flatMap quotedChar ++ ['"'])

end DollarScript.Text
