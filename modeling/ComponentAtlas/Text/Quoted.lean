import ComponentAtlas.Text.Characters

/-!
# Quoted text

A text in quotation marks, for reports. Single quotes are used unless the text
holds a single quote and no double quote. The quote in use, the backslash, line
ends, tabs and all characters that do not print are written as escapes.
-/

namespace ComponentAtlas.Text

def quoteFor (cs : List Char) : Char :=
  if cs.contains '\'' && !cs.contains '"' then '"' else '\''

/-- An escape by number, in the shortest of three widths that holds the code point. -/
def escapeByNumber (n : Nat) : List Char :=
  if n < 0x100 then '\\' :: 'x' :: hexDigits 2 n
  else if n < 0x10000 then '\\' :: 'u' :: hexDigits 4 n
  else '\\' :: 'U' :: hexDigits 8 n

def quoteChar (mark c : Char) : List Char :=
  if c = mark || c = '\\' then ['\\', c]
  else if c = '\n' then ['\\', 'n']
  else if c = '\r' then ['\\', 'r']
  else if c = '\t' then ['\\', 't']
  else if isPrintable c then [c]
  else escapeByNumber c.toNat

def quoted (s : String) : String :=
  let mark := quoteFor s.toList
  String.ofList (mark :: (s.toList.flatMap (quoteChar mark) ++ [mark]))

end ComponentAtlas.Text
