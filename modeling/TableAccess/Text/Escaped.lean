import TableAccess.Text.Printable

/-!
# Texts in double quotes

The form in which diagnostics show a text: a backslash before a quote and before a backslash,
short escapes for the common controls, and the code point in braces for every other character
that does not stand for itself.
-/
namespace TableAccess.Text

def hexDigits (n : Nat) : List Char := Nat.toDigits 16 n

/-- One character inside double quotes. -/
def escapeChar (c : Char) : List Char :=
  match c with
  | '"' => ['\\', '"']
  | '\\' => ['\\', '\\']
  | '\n' => ['\\', 'n']
  | '\r' => ['\\', 'r']
  | '\t' => ['\\', 't']
  | '\x00' => ['\\', '0']
  | c =>
    if standsAlone c then [c]
    else ['\\', 'u', Char.ofNat 0x7B] ++ hexDigits c.toNat ++ [Char.ofNat 0x7D]

def quoted (s : String) : String :=
  String.ofList ('"' :: s.toList.flatMap escapeChar ++ ['"'])

end TableAccess.Text
