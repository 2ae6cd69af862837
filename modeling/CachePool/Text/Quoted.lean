/-
# Quoted texts

A text between double quotes, as error messages show it.  The quote and the
backslash are escaped by a backslash, tab, carriage return, line feed and NUL by
their letters, every other unprintable character by its code point.
-/
import CachePool.Text.Hexadecimal
import CachePool.Text.Printable

namespace CachePool.Text

/-- The code point of a character between braces, `\u` in front. -/
def codePointEscape (c : Char) : List Char :=
  '\\' :: 'u' :: '{' :: (Hexadecimal.digits 1 c.toNat ++ ['}'])

/-- A character as it stands inside a quoted text. -/
def quoteChar (c : Char) : List Char :=
  if c = '"' then ['\\', '"']
  else if c = '\\' then ['\\', '\\']
  else if c = '\t' then ['\\', 't']
  else if c = '\r' then ['\\', 'r']
  else if c = '\n' then ['\\', 'n']
  else if c = '\x00' then ['\\', '0']
  else if isPrintable c then [c]
  else codePointEscape c

/-- A text between double quotes. -/
def quoted (text : List Char) : List Char :=
  '"' :: (text.flatMap quoteChar ++ ['"'])

end CachePool.Text
