/-!
White space: the characters with the Unicode property White_Space, and texts made of them alone.
-/

namespace SettingsBinding.Text

/-- The inclusive ranges of code points with the property White_Space. -/
def whiteSpaceRanges : List (Nat × Nat) :=
  [(0x09, 0x0d), (0x20, 0x20), (0x85, 0x85), (0xa0, 0xa0), (0x1680, 0x1680), (0x2000, 0x200a),
    (0x2028, 0x2029), (0x202f, 0x202f), (0x205f, 0x205f), (0x3000, 0x3000)]

def isWhiteSpace (c : Char) : Bool :=
  whiteSpaceRanges.any fun (lo, hi) => lo ≤ c.toNat && c.toNat ≤ hi

def isBlank (s : String) : Bool := s.toList.all isWhiteSpace

@[simp] theorem isBlank_ofList (cs : List Char) :
    isBlank (String.ofList cs) = cs.all isWhiteSpace := by
  simp [isBlank]

end SettingsBinding.Text
