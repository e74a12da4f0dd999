import DiceLab.Text
import DiceLab.Text.Printable

/-! Quoted text, with every code point that cannot be shown written as an escape. -/

namespace DiceLab.Text

/-- The low hexadecimal digits of a number, as many as asked for. -/
def hexDigits : Nat → Nat → List Char
  | 0, _ => []
  | width + 1, value => hexDigits width (value / 16) ++ [Nat.digitChar (value % 16)]

/-- The quote used unless the text asks for the other. -/
def singleQuote : Char := '\x27'

/-- The quote used for a text that holds a single quote and no double one. -/
def doubleQuote : Char := '\x22'

/-- The shortest escape that can hold the number of a code point. -/
def numberEscape (number : Nat) : List Char :=
  if number < 0x100 then '\\' :: 'x' :: hexDigits 2 number
  else if number < 0x10000 then '\\' :: 'u' :: hexDigits 4 number
  else '\\' :: 'U' :: hexDigits 8 number

/-- One character inside quotes of the given kind. -/
def escapeChar (quote char : Char) : List Char :=
  if char = quote ∨ char = '\\' then ['\\', char]
  else if char = '\n' then ['\\', 'n']
  else if char = '\r' then ['\\', 'r']
  else if char = '\t' then ['\\', 't']
  else if isPrintable char then [char]
  else numberEscape char.toNat

/-- One code point inside quotes of the given kind. -/
def escape (quote : Char) (point : CodePoint) : List Char :=
  match point with
  | .char value => escapeChar quote value
  | .surrogate _ => numberEscape point.number

/-- The quote that needs no escape if there is one, the single quote by preference. -/
def quoteFor (text : Text) : Char :=
  if text.contains (.char singleQuote) && !text.contains (.char doubleQuote) then doubleQuote
  else singleQuote

/-- The characters of the text between quotes. -/
def quotedChars (text : Text) : List Char :=
  let quote := quoteFor text
  quote :: (text.flatMap (escape quote) ++ [quote])

/-- The text between quotes. -/
def quoted (text : Text) : Text := (quotedChars text).map .char

end DiceLab.Text
