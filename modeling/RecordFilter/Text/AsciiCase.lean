/-!
# Comparison without regard to ASCII case

Only the twenty-six letters `A`–`Z` are folded; a letter outside ASCII is equal to itself alone.
-/

namespace RecordFilter.Text

/-- A text with the ASCII capitals made small. -/
def foldCase (s : String) : List Char := s.toList.map Char.toLower

/-- The two texts are equal up to the case of ASCII letters. -/
def sameIgnoringCase (s t : String) : Bool := foldCase s == foldCase t

theorem sameIgnoringCase_iff {s t : String} :
    sameIgnoringCase s t = true ↔ foldCase s = foldCase t := by
  simp [sameIgnoringCase]

end RecordFilter.Text
