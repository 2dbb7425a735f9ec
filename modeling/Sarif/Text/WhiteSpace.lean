/-!
# White space

The characters with the white-space property of Unicode. They are more than the four blanks that
may stand between the tokens of a text: this class serves what is read from within a string.
-/

namespace Sarif
namespace WhiteSpace

/-- The ranges of white-space characters, first and last, in order. -/
def ranges : List (Nat × Nat) :=
  [(0x9, 0xd), (0x20, 0x20), (0x85, 0x85), (0xa0, 0xa0), (0x1680, 0x1680), (0x2000, 0x200a),
   (0x2028, 0x2029), (0x202f, 0x202f), (0x205f, 0x205f), (0x3000, 0x3000)]

/-- Whether a character is white space. -/
def includes (c : Char) : Bool :=
  ranges.any fun range => decide (range.1 ≤ c.toNat ∧ c.toNat ≤ range.2)

/-- A text without the white space that it begins with. -/
def skip (text : List Char) : List Char :=
  text.dropWhile includes

/-- A text that begins with another character loses nothing. -/
theorem skip_cons {c : Char} {rest : List Char} (h : includes c = false) :
    skip (c :: rest) = c :: rest := by
  simp [skip, h]

end WhiteSpace
end Sarif
