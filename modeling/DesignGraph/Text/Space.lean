/-
  White space — the characters with the Unicode property `White_Space`.

  `spaceRanges` lists the code points, and `isSpace` is the property.
-/

namespace DesignGraph

/-- The code points with the property `White_Space`, as ranges with both ends. -/
def spaceRanges : List (Nat × Nat) :=
  [(0x09, 0x0d), (0x20, 0x20), (0x85, 0x85), (0xa0, 0xa0), (0x1680, 0x1680), (0x2000, 0x200a),
    (0x2028, 0x2029), (0x202f, 0x202f), (0x205f, 0x205f), (0x3000, 0x3000)]

/-- Whether a character is white space. -/
def isSpace (c : Char) : Bool := spaceRanges.any fun (low, high) => low ≤ c.toNat && c.toNat ≤ high

end DesignGraph
