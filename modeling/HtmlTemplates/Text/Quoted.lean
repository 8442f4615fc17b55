import HtmlTemplates.Text.Printable
import HtmlTemplates.Text.GraphemeExtend
/-!
Quoted text: the form in which diagnostics show a string or a character.

Inside the quotes, the characters NUL, tab, carriage return and line feed become `\0`, `\t`,
`\r` and `\n`, a backslash and the delimiting quote are preceded by a backslash, and a
character that does not show as itself is written as `\u` with its code point in lowercase
hexadecimal between braces: one that is not printable, one that extends the grapheme before
it, and the Hangul fillers, letters that show as nothing. The halfwidth katakana sound marks
extend a grapheme but take a cell of their own in halfwidth text, so they stand as they are,
like every other character. A string is delimited by double quotes and a character by single quotes, so the
other quote needs no escape.
-/
namespace HtmlTemplates.Text

/-- The code point of `c` as a `\u` escape, in lowercase hexadecimal without leading zeros. -/
def unicodeEscape (c : Char) : List Char :=
  ['\\', 'u', '\x7b'] ++ Nat.toDigits 16 c.toNat ++ ['\x7d']

/-- The Hangul fillers U+115F, U+1160, U+3164 and U+FFA0: letters that show as nothing. -/
def isHangulFiller (c : Char) : Bool := [0x115F, 0x1160, 0x3164, 0xFFA0].contains c.toNat

/-- The halfwidth katakana voiced and semi-voiced sound marks U+FF9E and U+FF9F. -/
def isHalfwidthSoundMark (c : Char) : Bool := c.toNat == 0xFF9E || c.toNat == 0xFF9F

/-- Whether quoted text writes `c` as a `\u` escape. -/
def showsAsEscape (c : Char) : Bool :=
  (isGraphemeExtend c && !isHalfwidthSoundMark c) || !isPrintable c || isHangulFiller c

/-- How one character is written between two `quote` characters. -/
def escapeQuoted (quote : Char) (c : Char) : List Char :=
  if c = '\x00' then ['\\', '0']
  else if c = '\t' then ['\\', 't']
  else if c = '\r' then ['\\', 'r']
  else if c = '\n' then ['\\', 'n']
  else if c = '\\' then ['\\', '\\']
  else if c = quote then ['\\', c]
  else if showsAsEscape c then unicodeEscape c
  else [c]

/-- A string between double quotes, each character escaped as `escapeQuoted` says. -/
def quoteString (s : String) : String :=
  String.ofList ('"' :: s.toList.flatMap (escapeQuoted '"') ++ ['"'])

/-- A character between single quotes. -/
def quoteChar (c : Char) : String :=
  String.ofList ('\'' :: escapeQuoted '\'' c ++ ['\''])

example : unicodeEscape (Char.ofNat 0x1b) = "\\u\x7b1b\x7d".toList := by decide

end HtmlTemplates.Text
