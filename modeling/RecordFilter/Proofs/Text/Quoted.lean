import RecordFilter.Proofs.Json.Scalars
import RecordFilter.Text.Quoted

/-!
# Quoted text determines the text

A quoted text can be read off from the front of any text: the quotes around it tell where it ends,
because each quote in it is escaped.

* `eq_of_append_eq`: a text up to a character of another kind is read off from the front.
* `Escaped`: the three forms of a character between quotes, and `Escaped.append_inj`, by which they
  are a prefix code.
* `quote_append_inj`: a quoted text determines the text, and where it ends.
-/

namespace RecordFilter.Text

open Json.Reader (Stops stops_cons)

/-! ## Spans -/

/-- Characters of a kind, in front of texts that do not go on with this kind, are told from them. -/
theorem eq_of_append_eq {p : Char → Bool} {cs ds r r' : List Char} (hcs : ∀ c ∈ cs, p c = true)
    (hds : ∀ c ∈ ds, p c = true) (hr : Stops p r) (hr' : Stops p r')
    (h : cs ++ r = ds ++ r') : cs = ds ∧ r = r' := by
  induction cs generalizing ds with
  | nil =>
    cases ds with
    | nil => exact ⟨rfl, h⟩
    | cons d ds =>
      have hd := hr d (by rw [List.nil_append] at h; rw [h]; rfl)
      rw [hds d List.mem_cons_self] at hd
      cases hd
  | cons c cs ih =>
    rw [List.forall_mem_cons] at hcs
    cases ds with
    | nil =>
      have hc := hr' c (by rw [List.nil_append] at h; rw [← h]; rfl)
      rw [hcs.1] at hc
      cases hc
    | cons d ds =>
      rw [List.forall_mem_cons] at hds
      rw [List.cons_append, List.cons_append, List.cons.injEq] at h
      obtain ⟨rfl, hrest⟩ := ih hcs.2 hds.2 h.2
      exact ⟨by rw [h.1], hrest⟩

/-! ## Hexadecimal digits -/

theorem digitChar_inj : ∀ d < 16, ∀ e < 16, Nat.digitChar d = Nat.digitChar e → d = e := by
  decide

theorem digitChar_ne_brace : ∀ d < 16, Nat.digitChar d ≠ '\x7d' := by
  decide

theorem ne_brace_of_mem_toDigits {n : Nat} : ∀ c ∈ Nat.toDigits 16 n, (c != '\x7d') = true := by
  induction n using Nat.strongRecOn with
  | ind n ih =>
    intro c hc
    rw [Nat.toDigits_eq_if (by decide)] at hc
    split at hc
    · rename_i hn
      rw [List.mem_singleton.mp hc, bne_iff_ne]
      exact digitChar_ne_brace n hn
    · rename_i hn
      rcases List.mem_append.mp hc with hc | hc
      · exact ih (n / 16) (by omega) c hc
      · rw [List.mem_singleton.mp hc, bne_iff_ne]
        exact digitChar_ne_brace _ (Nat.mod_lt n (by decide))

/-- The digits determine the number: its last digit is the remainder, and the others are the digits
of the quotient. -/
theorem toDigits_inj {m n : Nat} (h : Nat.toDigits 16 m = Nat.toDigits 16 n) : m = n := by
  induction m using Nat.strongRecOn generalizing n with
  | ind m ih =>
    have hlength : ∀ k, 16 ≤ k → 1 < (Nat.toDigits 16 k).length := by
      intro k hk
      rw [← Nat.not_le, Nat.length_toDigits_le_iff (by decide) (by decide)]
      omega
    by_cases hm : m < 16 <;> by_cases hn : n < 16
    · rw [Nat.toDigits_of_lt_base hm, Nat.toDigits_of_lt_base hn, List.cons.injEq] at h
      exact digitChar_inj m hm n hn h.1
    · have := hlength n (by omega)
      rw [← h, Nat.toDigits_of_lt_base hm] at this
      exact absurd this (by simp)
    · have := hlength m (by omega)
      rw [h, Nat.toDigits_of_lt_base hn] at this
      exact absurd this (by simp)
    · have hstep : ∀ k, 16 ≤ k →
          Nat.toDigits 16 k = Nat.toDigits 16 (k / 16) ++ [Nat.digitChar (k % 16)] :=
        fun k hk => Nat.toDigits_of_base_le (by decide) hk
      rw [hstep m (by omega), hstep n (by omega)] at h
      obtain ⟨hquotient, hlast⟩ := List.append_inj' h rfl
      have hdiv := ih (m / 16) (by omega) hquotient
      have hmod := digitChar_inj _ (Nat.mod_lt m (by decide)) _ (Nat.mod_lt n (by decide))
        (List.cons.inj hlast).1
      omega

/-! ## One character -/

/-- The character that a backslash and the given character stand for. -/
def shortForm? (c : Char) : Option Char :=
  if c = '0' then some '\x00'
  else if c = 't' then some '\t'
  else if c = 'n' then some '\n'
  else if c = 'r' then some '\r'
  else if c = '\"' then some '\"'
  else if c = '\\' then some '\\'
  else none

/-- The forms of a character between quotes: itself, a short escape, or its code point. -/
inductive Escaped (c : Char) : List Char → Prop where
  | plain : c ≠ '\\' → c ≠ '\"' → Escaped c [c]
  | short {e : Char} : shortForm? e = some c → Escaped c ['\\', e]
  | code : Escaped c ('\\' :: 'u' :: '\x7b' :: (Nat.toDigits 16 c.toNat ++ ['\x7d']))

theorem escaped_escape (c : Char) : Escaped c (escape c) := by
  unfold escape
  split
  · exact .short (by rw [‹c = _›]; rfl)
  split
  · exact .short (by rw [‹c = _›]; rfl)
  split
  · exact .short (by rw [‹c = _›]; rfl)
  split
  · exact .short (by rw [‹c = _›]; rfl)
  split
  · exact .short (by rw [‹c = _›]; rfl)
  split
  · exact .short (by rw [‹c = _›]; rfl)
  split
  · exact .plain ‹_› ‹_›
  split
  · exact .code
  · exact .plain ‹_› ‹_›

/-- No form starts as the closing quote does. -/
theorem Escaped.exists_cons {c : Char} {cs : List Char} (h : Escaped c cs) :
    ∃ d ds, cs = d :: ds ∧ d ≠ '\"' := by
  cases h with
  | plain _ hquote => exact ⟨c, [], rfl, hquote⟩
  | short => exact ⟨'\\', _, rfl, by decide⟩
  | code => exact ⟨'\\', _, rfl, by decide⟩

/-- The forms of characters are a prefix code: they are told apart and from what follows them. -/
theorem Escaped.append_inj {c d : Char} {cs ds r r' : List Char} (hc : Escaped c cs)
    (hd : Escaped d ds) (h : cs ++ r = ds ++ r') : c = d ∧ r = r' := by
  have hu : shortForm? 'u' = none := by decide
  cases hc with
  | plain hbackslash =>
    cases hd with
    | plain => exact List.cons.inj h
    | short => exact absurd (List.cons.inj h).1 hbackslash
    | code => exact absurd (List.cons.inj h).1 hbackslash
  | short he =>
    cases hd with
    | plain hbackslash => exact absurd (List.cons.inj h).1.symm hbackslash
    | short he' =>
      obtain ⟨rfl, hrest⟩ := List.cons.inj (List.cons.inj h).2
      rw [he] at he'
      exact ⟨Option.some_inj.mp he', hrest⟩
    | code =>
      obtain ⟨rfl, -⟩ := List.cons.inj (List.cons.inj h).2
      rw [hu] at he
      cases he
  | code =>
    cases hd with
    | plain hbackslash => exact absurd (List.cons.inj h).1.symm hbackslash
    | short he =>
      obtain ⟨rfl, -⟩ := List.cons.inj (List.cons.inj h).2
      rw [hu] at he
      cases he
    | code =>
      have hdigits : Nat.toDigits 16 c.toNat ++ ['\x7d'] ++ r =
          Nat.toDigits 16 d.toNat ++ ['\x7d'] ++ r' :=
        (List.cons.inj (List.cons.inj (List.cons.inj h).2).2).2
      rw [List.append_assoc, List.append_assoc] at hdigits
      obtain ⟨hsame, hrest⟩ := eq_of_append_eq ne_brace_of_mem_toDigits ne_brace_of_mem_toDigits
        (stops_cons (by decide) _) (stops_cons (by decide) _) hdigits
      exact ⟨Char.toNat_inj.mp (toDigits_inj hsame), (List.cons.inj hrest).2⟩

/-! ## Whole texts -/

/-- Escaped characters up to a quote are told from what follows the quote. -/
theorem flatMap_escape_append_inj {cs ds r r' : List Char}
    (h : cs.flatMap escape ++ '\"' :: r = ds.flatMap escape ++ '\"' :: r') : cs = ds ∧ r = r' := by
  induction cs generalizing ds with
  | nil =>
    cases ds with
    | nil => exact ⟨rfl, (List.cons.inj h).2⟩
    | cons d ds =>
      obtain ⟨e, es, hes, hquote⟩ := (escaped_escape d).exists_cons
      rw [List.flatMap_cons, hes] at h
      exact absurd (List.cons.inj h).1.symm hquote
  | cons c cs ih =>
    cases ds with
    | nil =>
      obtain ⟨e, es, hes, hquote⟩ := (escaped_escape c).exists_cons
      rw [List.flatMap_cons, hes] at h
      exact absurd (List.cons.inj h).1 hquote
    | cons d ds =>
      rw [List.flatMap_cons, List.flatMap_cons, List.append_assoc, List.append_assoc] at h
      obtain ⟨rfl, hrest⟩ := (escaped_escape c).append_inj (escaped_escape d) h
      obtain ⟨rfl, hr⟩ := ih hrest
      exact ⟨rfl, hr⟩

theorem toList_quote (s : String) :
    (quote s).toList = '\"' :: (s.toList.flatMap escape ++ ['\"']) := by
  simp [quote, escapeAll]

/-- A quoted text determines the text, and where it ends. -/
theorem quote_append_inj {s t : String} {r r' : List Char}
    (h : (quote s).toList ++ r = (quote t).toList ++ r') : s = t ∧ r = r' := by
  rw [toList_quote, toList_quote, List.cons_append, List.cons_append, List.append_assoc,
    List.append_assoc] at h
  obtain ⟨hsame, hr⟩ := flatMap_escape_append_inj (List.cons.inj h).2
  exact ⟨String.toList_inj.mp hsame, hr⟩

end RecordFilter.Text
