import DiceLab.Text

/-! Replacement of every occurrence of a pattern in a text. -/

namespace DiceLab.Text

/-- Replaces from the left, after skipping some code points; what was put in is not looked at
again. -/
def replaceFrom (pattern replacement : Text) : Nat → Text → Text
  | _, [] => []
  | skipped + 1, _ :: rest => replaceFrom pattern replacement skipped rest
  | 0, point :: rest =>
    if pattern.isPrefixOf (point :: rest) then
      replacement ++ replaceFrom pattern replacement (pattern.length - 1) rest
    else point :: replaceFrom pattern replacement 0 rest

/-- Replaces every occurrence of a pattern, which must not be empty. -/
def replace (pattern replacement text : Text) : Text :=
  replaceFrom pattern replacement 0 text

end DiceLab.Text
