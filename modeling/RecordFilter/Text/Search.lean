/-!
# Searching for a stretch of text

`occursIn needle s` asks whether `needle` is a contiguous stretch of `s`; `occursIn_iff` is the
declarative reading.  The empty needle occurs in every text.
-/

namespace RecordFilter.Text

/-- The needle is a contiguous stretch of the text. -/
def occursIn (needle : List Char) : List Char → Bool
  | [] => needle.isEmpty
  | c :: s => needle.isPrefixOf (c :: s) || occursIn needle s

theorem occursIn_iff {needle s : List Char} : occursIn needle s = true ↔ needle <:+: s := by
  induction s with
  | nil => simp [occursIn]
  | cons c s ih =>
    rw [occursIn, Bool.or_eq_true, List.isPrefixOf_iff_prefix, ih, List.infix_cons_iff]

/-- The text contains the needle. -/
def contains (s needle : String) : Bool := occursIn needle.toList s.toList

end RecordFilter.Text
