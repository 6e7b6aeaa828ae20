import IntentFirewall.Text.Digit

/-!
# Texts as JSON strings

A text is written with as few escapes as possible: the quotation mark, the backslash and the control
characters, of which the common ones have a short escape.

* `quote`: a text as a string.
-/

namespace IntentFirewall.Json

open Text (hexDigit)

/-- A character inside a string. -/
def quoteChar (c : Char) : List Char :=
  match c with
  | '"' => ['\\', '"']
  | '\\' => ['\\', '\\']
  | '\x08' => ['\\', 'b']
  | '\x0c' => ['\\', 'f']
  | '\n' => ['\\', 'n']
  | '\r' => ['\\', 'r']
  | '\t' => ['\\', 't']
  | c =>
    if c.toNat < 0x20 then
      ['\\', 'u', '0', '0', hexDigit (c.toNat / 16), hexDigit (c.toNat % 16)]
    else [c]

/-- A text as a string. -/
def quote (s : String) : List Char := '"' :: s.toList.flatMap quoteChar ++ ['"']

end IntentFirewall.Json
