import Bindery.Text.LetterCase

/-!
# Blank characters

The Unicode property White_Space, and text with its leading blanks removed.
-/

namespace Bindery.Text

/-- Code points with the property White_Space. -/
def blankSpans : List Span :=
  [⟨0x9, 0xD, 1⟩, ⟨0x20, 0x20, 1⟩, ⟨0x85, 0x85, 1⟩, ⟨0xA0, 0xA0, 1⟩, ⟨0x1680, 0x1680, 1⟩,
   ⟨0x2000, 0x200A, 1⟩, ⟨0x2028, 0x2029, 1⟩, ⟨0x202F, 0x202F, 1⟩, ⟨0x205F, 0x205F, 1⟩,
   ⟨0x3000, 0x3000, 1⟩]

/-- Whether a character is blank (`char::is_whitespace`). -/
def isBlank (c : Char) : Bool := blankSpans.any (·.contains c.toNat)

/-- A text without the blanks it starts with (`str::trim_start`). -/
def skipBlanks (cs : List Char) : List Char := cs.dropWhile isBlank

end Bindery.Text
