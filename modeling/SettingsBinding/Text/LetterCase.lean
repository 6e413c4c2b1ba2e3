/-!
Texts that are equal but for the case of the letters A to Z. All other letters have to be the same.
-/

namespace SettingsBinding.Text

/-- Whether two texts are equal up to the case of the letters A to Z. -/
def equalIgnoringCase (a b : String) : Bool :=
  a.toList.map Char.toLower == b.toList.map Char.toLower

@[simp] theorem equalIgnoringCase_self (a : String) : equalIgnoringCase a a = true := by
  simp [equalIgnoringCase]

end SettingsBinding.Text
