/-!
Edit distance between texts, counted in characters: insertions, deletions and replacements each
cost one. The distances of one text to all ends of the other are computed together, row by row.
-/

namespace SettingsBinding.Text

/-- The lengths of a list and of all its ends, down to the empty one. -/
def endLengths : List Char → List Nat
  | [] => [0]
  | c :: b => (c :: b).length :: endLengths b

/-- The distances of `c :: a` to `b` and all its ends, from the same row for `a`. -/
def extendRow (c : Char) : List Char → List Nat → List Nat
  | [], row => row.map (· + 1)
  | _ :: _, [] => []
  | d :: b, above :: row =>
    let rest := extendRow c b row
    min (above + 1) (min (rest.headD 0 + 1) (row.headD 0 + if c = d then 0 else 1)) :: rest

def distanceRow : List Char → List Char → List Nat
  | [], b => endLengths b
  | c :: a, b => extendRow c b (distanceRow a b)

/-- The least number of insertions, deletions and replacements that lead from `a` to `b`. -/
def editDistance (a b : List Char) : Nat := (distanceRow a b).headD 0

@[simp] theorem editDistance_nil_left (b : List Char) : editDistance [] b = b.length := by
  cases b <;> rfl

end SettingsBinding.Text
