/-!
Quoted text, as values are shown to a developer.

A text stands in double quotes. The quote and the backslash are escaped, as are line ends, tabs and
NUL; any other character that does not print is written by its number.
-/

namespace ReadBarrier.Text

/-- Hexadecimal digits of a number, in lower case, without leading zeros. -/
def hex (n : Nat) : String := String.ofList (Nat.toDigits 16 n)

/-- How one character is written inside quotes, given which characters print. -/
def quotedChar (prints : Char → Bool) (c : Char) : String :=
  match c with
  | '"' => "\\\""
  | '\\' => "\\\\"
  | '\n' => "\\n"
  | '\r' => "\\r"
  | '\t' => "\\t"
  | '\x00' => "\\0"
  | c => if prints c then c.toString else "\\u\x7b" ++ hex c.toNat ++ "\x7d"

/-- A text in quotes, given which characters print. -/
def quoted (prints : Char → Bool) (s : String) : String :=
  "\"" ++ String.join (s.toList.map (quotedChar prints)) ++ "\""

end ReadBarrier.Text
