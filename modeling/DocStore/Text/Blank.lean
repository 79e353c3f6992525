/-!
# White space

`isWhiteSpace` is the Unicode property `White_Space`. A text is blank if it holds nothing else.
-/

namespace DocStore.Text

/-- The characters with the Unicode property `White_Space`, as ranges. -/
def whiteSpaceRanges : List (Nat × Nat) :=
  [(0x09, 0x0D), (0x20, 0x20), (0x85, 0x85), (0xA0, 0xA0), (0x1680, 0x1680), (0x2000, 0x200A),
   (0x2028, 0x2029), (0x202F, 0x202F), (0x205F, 0x205F), (0x3000, 0x3000)]

def inRanges (ranges : List (Nat × Nat)) (c : Char) : Bool :=
  ranges.any fun r => r.1 ≤ c.toNat && c.toNat ≤ r.2

def isWhiteSpace (c : Char) : Bool := inRanges whiteSpaceRanges c

def isBlank (s : String) : Bool := s.toList.all isWhiteSpace

def dropTrailingSlashes (s : String) : String :=
  String.ofList (s.toList.reverse.dropWhile (· == '/')).reverse

end DocStore.Text
