import TokenAudit.Text.Printable

/-!
# Quoted texts

A text between double quotes, with backslash escapes for the quote, the backslash and whatever
cannot be seen: a letter for the common controls, a hexadecimal code point in braces for any other
unprintable character and for a character that joins the one before it.
-/

namespace TokenAudit.Text

/-- The least number of hexadecimal digits, in lower case. -/
def hex (n : Nat) : String := String.ofList (Nat.toDigits 16 n)

/-- The escape of a code point. -/
def escapeCodePoint (c : Char) : String := "\\u\x7b" ++ hex c.toNat ++ "\x7d"

/-- How a character is written between double quotes. -/
def escapeChar (c : Char) : String :=
  match c with
  | '\x00' => "\\0"
  | '\t' => "\\t"
  | '\r' => "\\r"
  | '\n' => "\\n"
  | '\\' => "\\\\"
  | '"' => "\\\""
  | c => if isExtending c || !isPrintable c then escapeCodePoint c else c.toString

/-- A string between double quotes. -/
def quoted (s : String) : String :=
  "\"" ++ String.join (s.toList.map escapeChar) ++ "\""

/-- A path between double quotes.  Here an apostrophe is escaped as well. -/
def quotedPath (s : String) : String :=
  "\"" ++ String.join (s.toList.map fun c => if c = '\'' then "\\'" else escapeChar c) ++ "\""

end TokenAudit.Text
