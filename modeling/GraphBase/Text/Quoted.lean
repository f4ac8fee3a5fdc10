import GraphBase.Text.Hex
import GraphBase.Text.Unprintable

/-!
# Quoted text

Messages quote the names they complain about, so that an empty name, a trailing
blank or a line break is visible.  `quoted` writes a text between double quotes;
the quote, the backslash, tab, newline, carriage return and NUL have two-character
escapes, every other character without a glyph is written by number in braces, and
all the rest stands for itself.
-/

namespace GraphBase.Text

/-- The written form of one character. -/
def quotedChar (c : Char) : List Char :=
  if c = '\x00' then ['\\', '0']
  else if c = '\t' then ['\\', 't']
  else if c = '\r' then ['\\', 'r']
  else if c = '\n' then ['\\', 'n']
  else if c = '"' then ['\\', '"']
  else if c = '\\' then ['\\', '\\']
  else if isUnprintable c then ['\\', 'u', '\x7b'] ++ hexDigits c.toNat ++ ['\x7d']
  else [c]

/-- A text between double quotes, with every character visible. -/
def quoted (s : String) : String :=
  String.ofList ('"' :: s.toList.flatMap quotedChar ++ ['"'])

end GraphBase.Text
