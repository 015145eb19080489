import Machine8086.Numeral
import Machine8086.Text.Unprintable

/-!
# Quoted text

Text in double quotes as it appears in messages. Quotes, backslashes and the usual control
characters have short escapes; any other character without a printed form is written by its code
point.
-/

namespace Machine8086.Text

/-- A character as it stands between quotes. -/
def escaped (c : Char) : String :=
  match c with
  | '\x00' => "\\0"
  | '\t' => "\\t"
  | '\r' => "\\r"
  | '\n' => "\\n"
  | '"' => "\\\""
  | '\\' => "\\\\"
  | c =>
    if isUnprintable c then "\\u\x7b" ++ Numeral.hex 1 c.toNat ++ "\x7d" else String.singleton c

/-- Text in double quotes. -/
def quoted (text : String) : String := "\"" ++ String.join (text.toList.map escaped) ++ "\""

end Machine8086.Text
