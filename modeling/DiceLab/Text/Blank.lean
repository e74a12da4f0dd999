import DiceLab.Text

/-! White space, and texts cut by it. -/

namespace DiceLab.Text

/-- White space: separators of every width, and the controls that move or divide lines and fields.
-/
def isBlank (char : Char) : Bool :=
  let code := char.toNat
  (0x09 ≤ code && code ≤ 0x0d) || (0x1c ≤ code && code ≤ 0x20) || code == 0x85 || code == 0xa0 ||
    code == 0x1680 || (0x2000 ≤ code && code ≤ 0x200a) || code == 0x2028 || code == 0x2029 ||
    code == 0x202f || code == 0x205f || code == 0x3000

/-- Every character that the narrower ASCII notion counts as white space is blank. -/
theorem isBlank_of_isWhitespace {char : Char} (white : char.isWhitespace = true) :
    isBlank char = true := by
  -- The narrower notion names four characters.
  simp only [Char.isWhitespace, Bool.or_eq_true, decide_eq_true_eq] at white
  rcases white with ((rfl | rfl) | rfl) | rfl <;> rfl

/-- The text without its blanks. -/
def squeeze (text : Text) : Text := text.filter fun point => !point.has isBlank

/-- The text without the code points at both ends that have a property. -/
def trim (property : Char → Bool) (text : Text) : Text :=
  let behind := text.dropWhile (CodePoint.has property)
  (behind.reverse.dropWhile (CodePoint.has property)).reverse

/-- The text without the blanks at both ends. -/
def strip (text : Text) : Text := trim isBlank text

/-- Puts a code point in front of the words behind it; a blank ends the word before it. -/
def pushWord (point : CodePoint) (words : List Text) : List Text :=
  if point.has isBlank then [] :: words
  else match words with
    | [] => [[point]]
    | word :: rest => (point :: word) :: rest

/-- The maximal runs of non-blank code points. -/
def words (text : Text) : List Text :=
  (text.foldr pushWord [[]]).filter fun word => !word.isEmpty

/-- Cuts a text at its first space; without one, nothing follows. -/
def cutAtSpace (text : Text) : Text × Text :=
  (text.takeWhile (· != .char ' '), (text.dropWhile (· != .char ' ')).drop 1)

end DiceLab.Text
