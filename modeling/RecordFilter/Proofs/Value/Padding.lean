import RecordFilter.Condition.Text
import RecordFilter.Proofs.Date
import RecordFilter.Proofs.Numeral
import RecordFilter.Value.Coercion

/-!
# Forms are read back, with blanks around them

A string is coerced to a truth value, an integer, a number or a date by what is left of it without
the blanks at its ends, so blanks around it are invisible to all four (`trimmed_between`).  The forms
that truth values, integers and dates have in messages and expressions have no blanks of their own.
They are among the texts that the coercions take, which are many for each value, and stand for the
value that they were made of.

* `forms_read_back`: each form is coerced to its value, with blanks around it or without.
-/

namespace RecordFilter.Value

open Text (IsBlanks IsSolid)

/-! ## Without blanks -/

theorem trimmed_of_solid {s : String} (h : IsSolid s.toList) : trimmed s = s.toList :=
  Text.trim_of_solid h

theorem toBoolean?_string_text (b : Bool) : (string (boolean b).text).toBoolean? = some b := by
  cases b <;> decide +kernel

theorem toInteger?_string_text (i : Int64) : (string (integer i).text).toInteger? = some i := by
  have hchars : (integer i).text.toList = Integer.numeralChars i.toInt := String.toList_ofList
  have hspells := Integer.spells_numeralChars i.toInt
  have hsolid := Text.isSolid_of_isNumeric (Decimal.isNumeric_of_spells hspells)
  rw [← hchars] at hspells hsolid
  rw [toInteger?, trimmed_of_solid hsolid, Integer.ofNumeral?_eq_some_iff.mpr hspells,
    Option.bind_some, Integer.toInt64?_toInt]

theorem toDate?_string_text (d : Date) : (string d.text).toDate? = some d := by
  have hchars : d.text.toList = d.chars := String.toList_ofList
  have hsolid := Text.isSolid_of_isNumeric d.isNumeric_chars
  rw [← hchars] at hsolid
  rw [toDate?, trimmed_of_solid hsolid, hchars, Date.ofText?_chars]

/-! ## Between blanks -/

variable {w₁ w₂ : String}

/-- Nothing is left of blanks around a string. -/
theorem trimmed_between (h₁ : IsBlanks w₁.toList) (h₂ : IsBlanks w₂.toList) (s : String) :
    trimmed (w₁ ++ s ++ w₂) = trimmed s := by
  rw [trimmed, String.toList_append, String.toList_append, Text.trim_between h₁ h₂, trimmed]

/-- Only the coercion to a string sees more of a string than what is left without its blanks. -/
theorem coercions_eq_of_trimmed_eq {s s' : String} (h : trimmed s = trimmed s') :
    (string s).toBoolean? = (string s').toBoolean? ∧
      (string s).toInteger? = (string s').toInteger? ∧
      (string s).toFloat? = (string s').toFloat? ∧ (string s).toDate? = (string s').toDate? := by
  simp only [toBoolean?, toInteger?, toFloat?, toDate?, h, and_self]

/-- Truth values, integers and dates are read back from their forms, with blanks around these; the
blanks change no coercion of a string but that to a string, which keeps them. -/
theorem forms_read_back (h₁ : IsBlanks w₁.toList) (h₂ : IsBlanks w₂.toList) :
    (∀ b : Bool, (boolean b).toText? = some (boolean b).text ∧
      (string (w₁ ++ (boolean b).text ++ w₂)).toBoolean? = some b) ∧
    (∀ i : Int64, (integer i).toText? = some (integer i).text ∧
      (string (w₁ ++ (integer i).text ++ w₂)).toInteger? = some i) ∧
    (∀ d : Date, Literal.literal d = "'" ++ d.text ++ "'" ∧
      (string (w₁ ++ d.text ++ w₂)).toDate? = some d) ∧
    ∀ s : String, (string (w₁ ++ s ++ w₂)).toBoolean? = (string s).toBoolean? ∧
      (string (w₁ ++ s ++ w₂)).toInteger? = (string s).toInteger? ∧
      (string (w₁ ++ s ++ w₂)).toFloat? = (string s).toFloat? ∧
      (string (w₁ ++ s ++ w₂)).toDate? = (string s).toDate? ∧
      (string s).toText? = some s ∧ (string (w₁ ++ s ++ w₂)).toText? = some (w₁ ++ s ++ w₂) := by
  have hblanks s := coercions_eq_of_trimmed_eq (trimmed_between h₁ h₂ s)
  refine ⟨fun b => ⟨rfl, ?_⟩, fun i => ⟨rfl, ?_⟩, fun d => ⟨rfl, ?_⟩, fun s => ?_⟩
  · rw [(hblanks _).1, toBoolean?_string_text]
  · rw [(hblanks _).2.1, toInteger?_string_text]
  · rw [(hblanks _).2.2.2, toDate?_string_text]
  · obtain ⟨hboolean, hinteger, hfloat, hdate⟩ := hblanks s
    exact ⟨hboolean, hinteger, hfloat, hdate, rfl, rfl⟩

/-- The least integer and a leap day far ahead, between blanks that are no spaces. -/
theorem forms_read_back_far :
    (string ("\t\u00A0" ++ "-9223372036854775808" ++ "\u3000")).toInteger? = some Int64.minValue ∧
      (string ("\t\u00A0" ++ "+12344-02-29" ++ "\u3000")).toDate? =
        some ⟨12344, 2, 29, by decide⟩ := by
  have h := @forms_read_back "\t\u00A0" "\u3000" (by decide) (by decide)
  have hinteger : (integer Int64.minValue).text = "-9223372036854775808" := by decide +kernel
  have hdate : (⟨12344, 2, 29, by decide⟩ : Date).text = "+12344-02-29" := by decide +kernel
  exact ⟨hinteger ▸ (h.2.1 Int64.minValue).2, hdate ▸ (h.2.2.1 ⟨12344, 2, 29, by decide⟩).2⟩

end RecordFilter.Value
