/-!
# White space and decimal digits

A character property is a table of runs of code points. Membership is `CodeRanges.has`, which looks
at the code point alone.
-/

namespace YeccDefr

/-- Runs of code points, each with its first and its last member. -/
abbrev CodeRanges := List (Nat × Nat)

/-- Whether the code point of `c` lies in one of the runs. -/
def CodeRanges.has (ranges : CodeRanges) (c : Char) : Bool :=
  ranges.any fun run => decide (run.1 ≤ c.toNat) && decide (c.toNat ≤ run.2)

namespace Text

/-! ## White space -/

/-- The runs of the characters with the Unicode property White_Space: the ASCII blanks and line ends, the next-line
and no-break characters, and the spaces and separators of the further blocks. -/
def whiteSpaceRanges : CodeRanges :=
  [(0x9, 0xd), (0x20, 0x20), (0x85, 0x85), (0xa0, 0xa0), (0x1680, 0x1680), (0x2000, 0x200a),
    (0x2028, 0x2029), (0x202f, 0x202f), (0x205f, 0x205f), (0x3000, 0x3000)]

/-- Whether a character is white space. -/
def isWhiteSpace (c : Char) : Bool := whiteSpaceRanges.has c

/-! ## Decimal digits

The characters of the Unicode general category Nd. They come in blocks of ten, from the digit zero
to the digit nine of one script, so the table holds the zeros alone.
-/

/-- The code points of the digit zero, one for each script. -/
def digitZeros : List Nat :=
  [0x30, 0x660, 0x6f0, 0x7c0, 0x966, 0x9e6, 0xa66, 0xae6, 0xb66, 0xbe6, 0xc66, 0xce6, 0xd66, 0xde6,
    0xe50, 0xed0, 0xf20, 0x1040, 0x1090, 0x17e0, 0x1810, 0x1946, 0x19d0, 0x1a80, 0x1a90, 0x1b50,
    0x1bb0, 0x1c40, 0x1c50, 0xa620, 0xa8d0, 0xa900, 0xa9d0, 0xa9f0, 0xaa50, 0xabf0, 0xff10,
    0x104a0, 0x10d30, 0x10d40, 0x11066, 0x110f0, 0x11136, 0x111d0, 0x112f0, 0x11450, 0x114d0,
    0x11650, 0x116c0, 0x116d0, 0x116da, 0x11730, 0x118e0, 0x11950, 0x11bf0, 0x11c50, 0x11d50,
    0x11da0, 0x11f50, 0x16130, 0x16a60, 0x16ac0, 0x16b50, 0x16d70, 0x1ccf0, 0x1d7ce, 0x1d7d8,
    0x1d7e2, 0x1d7ec, 0x1d7f6, 0x1e140, 0x1e2f0, 0x1e4f0, 0x1e5f1, 0x1e950, 0x1fbf0]

/-- The runs of decimal digits: ten from each zero on. -/
def decimalDigitRanges : CodeRanges :=
  digitZeros.map fun first => (first, first + 9)

/-- Whether a character is a decimal digit of any script. -/
def isDecimalDigit (c : Char) : Bool := decimalDigitRanges.has c

end Text

end YeccDefr
