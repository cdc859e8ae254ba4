import PackedTopology.Text.Hidden

/-!
# Quoted listings of texts

A text is listed between double quotes so that every character of it can be
made out.  Quotes and backslashes are escaped, the usual control characters
have short names, and every other hidden character is given by its code point.
-/

namespace PackedTopology.Text

/-- A character given by its code point, in hexadecimal. -/
def codePointEscape (c : Char) : List Char :=
  ['\\', 'u', '\x7b'] ++ Nat.toDigits 16 c.toNat ++ ['\x7d']

def listed (c : Char) : List Char :=
  match c with
  | '"' => ['\\', '"']
  | '\\' => ['\\', '\\']
  | '\t' => ['\\', 't']
  | '\r' => ['\\', 'r']
  | '\n' => ['\\', 'n']
  | '\x00' => ['\\', '0']
  | c => if isHidden c then codePointEscape c else [c]

def quoted (text : String) : String :=
  String.ofList ('"' :: text.toList.flatMap listed ++ ['"'])

end PackedTopology.Text
