import Wayland.Text.Unprinted

/-! # Quoted text

Error messages and log lines show texts and single characters between quotes.  The quote in use,
the backslash and the usual control characters are written with a backslash, characters of
`isUnprinted` by their code point, everything else as it is.
-/

namespace Wayland.Text

/-- A code point in braces, in lower-case hexadecimal without leading zeros. -/
def codePoint (c : Char) : String :=
  "\\u\x7b" ++ String.ofList (Nat.toDigits 16 c.toNat) ++ "\x7d"

/-- How one character is written between a pair of `quote`s. -/
def escaped (quote c : Char) : String :=
  if c = quote then String.ofList ['\\', c]
  else if c = '\\' then "\\\\"
  else if c = '\x00' then "\\0"
  else if c = '\t' then "\\t"
  else if c = '\r' then "\\r"
  else if c = '\n' then "\\n"
  else if isUnprinted c then codePoint c
  else c.toString

/-- A text between double quotes. -/
def quoted (text : String) : String :=
  "\"" ++ String.join (text.toList.map (escaped '"')) ++ "\""

/-- A character between single quotes. -/
def quotedChar (c : Char) : String :=
  "'" ++ escaped '\'' c ++ "'"

end Wayland.Text
