import QueryLint.Text.CharRange

/-!
# Blank characters

The characters that count as white space: the six ASCII ones, the four ASCII information
separators, the next-line control, and the space, line and paragraph separators of Unicode. The
zero-width space and the byte order mark are not blank.
-/
namespace QueryLint.Text

def blankRanges : List CharRange :=
  [⟨0x9, 0xD⟩, ⟨0x1C, 0x20⟩, ⟨0x85, 0x85⟩, ⟨0xA0, 0xA0⟩, ⟨0x1680, 0x1680⟩, ⟨0x2000, 0x200A⟩,
   ⟨0x2028, 0x2029⟩, ⟨0x202F, 0x202F⟩, ⟨0x205F, 0x205F⟩, ⟨0x3000, 0x3000⟩]

def isBlank (c : Char) : Bool := inRanges blankRanges c

/-- A list of characters without those at its two ends that a test holds of. -/
def trimWhile (drops : Char → Bool) (cs : List Char) : List Char :=
  ((cs.dropWhile drops).reverse.dropWhile drops).reverse

/-- A list of characters without the blank ones at its two ends. -/
def trimChars (cs : List Char) : List Char := trimWhile isBlank cs

/-- A text without the blank characters at its two ends. -/
def trim (s : String) : String := String.ofList (trimChars s.toList)

end QueryLint.Text
