/-!
# Blank characters

The white space of Unicode, and its removal from the two ends of a text.  Values taken from a text
are read after trimming, so that padding never changes what a value stands for.

* `isBlank`: the twenty-five characters with the property `White_Space`.
* `trim`: a text without the blanks at its ends; `trim_blank_append` and `trim_append_blank` say
  that padding is invisible to it.
-/

namespace RecordFilter.Text

/-- The characters with the Unicode property `White_Space`. -/
def isBlank (c : Char) : Bool :=
  let n := c.toNat
  (0x09 ≤ n && n ≤ 0x0D) || n == 0x20 || n == 0x85 || n == 0xA0 || n == 0x1680 ||
    (0x2000 ≤ n && n ≤ 0x200A) || n == 0x2028 || n == 0x2029 || n == 0x202F || n == 0x205F ||
    n == 0x3000

/-- A text without its leading blanks. -/
def trimLeft (s : List Char) : List Char := s.dropWhile isBlank

/-- A text without the blanks at its two ends. -/
def trim (s : List Char) : List Char := (trimLeft (trimLeft s).reverse).reverse

@[simp] theorem trimLeft_nil : trimLeft [] = [] := rfl

theorem trimLeft_cons (c : Char) (s : List Char) :
    trimLeft (c :: s) = if isBlank c then trimLeft s else c :: s := by
  simp [trimLeft, List.dropWhile_cons]

/-- Leading blanks are dropped whatever follows them. -/
theorem trimLeft_blank_append {w : List Char} (hw : ∀ c ∈ w, isBlank c = true) (s : List Char) :
    trimLeft (w ++ s) = trimLeft s := by
  induction w with
  | nil => rfl
  | cons c w ih =>
    simp only [List.cons_append, trimLeft_cons, hw c (by simp), if_true]
    exact ih fun d hd => hw d (by simp [hd])

/-- Blanks behind a text that is not all blank stay when only its front is trimmed. -/
theorem trimLeft_append_blank {w : List Char} (hw : ∀ c ∈ w, isBlank c = true) (s : List Char) :
    (trimLeft (s ++ w) = trimLeft s ++ w) ∨ (trimLeft (s ++ w) = [] ∧ trimLeft s = []) := by
  induction s with
  | nil =>
    right
    have h := trimLeft_blank_append hw []
    simpa using h
  | cons c s ih =>
    by_cases hc : isBlank c = true
    · simpa [trimLeft_cons, hc] using ih
    · left
      simp [trimLeft_cons, hc]

/-- Blanks in front of a text are invisible to `trim`. -/
theorem trim_blank_append {w : List Char} (hw : ∀ c ∈ w, isBlank c = true) (s : List Char) :
    trim (w ++ s) = trim s := by
  simp [trim, trimLeft_blank_append hw]

/-- Blanks behind a text are invisible to `trim`. -/
theorem trim_append_blank {w : List Char} (hw : ∀ c ∈ w, isBlank c = true) (s : List Char) :
    trim (s ++ w) = trim s := by
  have hr : ∀ c ∈ w.reverse, isBlank c = true := fun c hc => hw c (by simpa using hc)
  rcases trimLeft_append_blank hw s with h | ⟨h, h'⟩
  · simp [trim, h, trimLeft_blank_append hr]
  · simp [trim, h, h']

end RecordFilter.Text
