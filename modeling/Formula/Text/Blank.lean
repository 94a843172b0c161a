import Formula.Text.CharRange

/-!
# Blank characters

* `blankRanges`, `isBlank`: the characters of the Unicode property `White_Space`.
* `trim`: a text without the blank characters at its two ends.
-/

namespace Formula

/-- The Unicode property `White_Space`, version 17.0. -/
def blankRanges : List CharRange :=
  [⟨0x9, 0xD⟩, ⟨0x20, 0x20⟩, ⟨0x85, 0x85⟩, ⟨0xA0, 0xA0⟩, ⟨0x1680, 0x1680⟩, ⟨0x2000, 0x200A⟩,
    ⟨0x2028, 0x2029⟩, ⟨0x202F, 0x202F⟩, ⟨0x205F, 0x205F⟩, ⟨0x3000, 0x3000⟩]

/-- Whether the character has the property `White_Space`. -/
def isBlank (c : Char) : Bool :=
  CharRange.covers blankRanges c

/-- The characters left when the blank ones at both ends are taken off. -/
def trimChars (cs : List Char) : List Char :=
  ((cs.dropWhile isBlank).reverse.dropWhile isBlank).reverse

/-- The text left when the blank characters at both ends are taken off. -/
def trim (text : String) : String :=
  String.ofList (trimChars text.toList)

end Formula
