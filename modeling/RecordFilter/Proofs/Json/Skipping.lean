import RecordFilter.Proofs.Json.Tokens

/-!
# Skipping what nobody asks for

Content is skipped by a loop that holds the brackets that are open.  It takes a document as a whole
in some number of rounds: the place before the document becomes the place behind it, with the same
brackets open (`skipFrom_spelled`).  This is shown along the document, and what stands between
brackets is again a list of documents, each of them with one bracket more around it.

The loop asks for nothing but the grammar, so any document is skipped, to whatever depth it nests,
whatever its numbers are and whichever strings it holds (`takes_skip`).
-/

namespace RecordFilter.Json

open Reader
open Spelling (Blanks exactly)

/-! ## Rounds -/

/-- One round of the loop leads from a place and a text to another place and the rest of the
text. -/
theorem skipFrom_eq_of_read {p p' : Place} {s rest : List Char} (hp : p ≠ .behind [])
    (h : (skipStep p).read s = .ok (p', rest)) : skipFrom p s = skipFrom p' rest := by
  rw [skipFrom_of_ne hp, h]

theorem isBlank_bracket (b : Bracket) : isBlank b.close = false := by
  cases b <;> decide

theorem close_eq (b : Bracket) : b.close = ']' ∨ b.close = '\x7d' := by
  cases b with
  | array => exact Or.inl rfl
  | object => exact Or.inr rfl

/-- A scalar is passed over in one round. -/
theorem skipFrom_scalar {c : Char} (hbracket : bracket? c = none) (hc : isBlank c = false)
    {s t rest : List Char} (hs : Blanks s (c :: t))
    (hread : (skipScalar c).read (c :: t) = .ok ((), rest)) (opened : List Bracket) :
    skipFrom (.before opened) s = skipFrom (.behind opened) rest := by
  refine skipFrom_eq_of_read (by simp) ?_
  rw [skipStep, read_onNext_of_blanks hs hc]
  simp only [hbracket]
  exact read_map_of_ok hread _

/-! ## Brackets -/

/-- With its label, an item of a bracket is passed over as a whole. -/
def Skips (b : Bracket) (p : Spelling) : Prop :=
  ∀ s rest, p s rest → Delimits rest → ∃ between, (skipLabel b).read s = .ok ((), between) ∧
    ∀ opened, skipFrom (.before opened) between = skipFrom (.behind opened) rest

variable {b : Bracket} {ps : List Spelling}

/-- The loop passes over all items behind the first one, and the closing bracket ends the innermost
open one. -/
theorem skipFrom_behind (h : ∀ p ∈ ps, Skips b p) (opened : List Bracket) {s rest : List Char}
    (hs : Spelling.behind b.close ps s rest) :
    skipFrom (.behind (b :: opened)) s = skipFrom (.behind opened) rest := by
  induction ps generalizing s with
  | nil =>
    refine skipFrom_eq_of_read (by simp) ?_
    rw [skipStep, read_onNext_of_blanks (blanks_of_mark hs) (isBlank_bracket b), if_pos rfl]
    exact read_map_of_ok (read_next_cons _ _) _
  | cons p ps ih =>
    rw [List.forall_mem_cons] at h
    obtain ⟨t, hcomma, u, hp, hps⟩ := hs
    obtain ⟨between, hlabel, hskip⟩ := h.1 t u hp (delimits_of_behind (close_eq b) hps)
    have hne : ',' ≠ b.close := by cases b <;> decide
    have hstep : (skipStep (.behind (b :: opened))).read s =
        .ok (.before (b :: opened), between) := by
      rw [skipStep, read_onNext_of_blanks (blanks_of_mark hcomma) (by decide), if_neg hne,
        if_pos rfl, read_bind_of_ok (read_next_cons _ _)]
      exact read_map_of_ok hlabel _
    rw [skipFrom_eq_of_read (by simp) hstep, hskip, ih h.2 hps]

/-- A bracket is passed over with all that stands in it. -/
theorem skipFrom_bracket {c : Char} (hbracket : bracket? c = some b) (hc : isBlank c = false)
    (h : ∀ p ∈ ps, Opens p ∧ Skips b p) (opened : List Bracket) {s t rest : List Char}
    (hs : Spelling.mark c s t) (ht : Spelling.inside b.close ps t rest) :
    skipFrom (.before opened) s = skipFrom (.behind opened) rest := by
  have hread : (skipStep (.before opened)).read s = (enter b opened).read t := by
    rw [skipStep, read_onNext_of_blanks (blanks_of_mark hs) hc]
    simp only [hbracket]
    exact read_bind_of_ok (read_next_cons _ _) _
  cases ps with
  | nil =>
    refine skipFrom_eq_of_read (by simp) ?_
    rw [hread, enter, read_onNext_of_blanks (blanks_of_mark ht) (isBlank_bracket b), if_pos rfl]
    exact read_map_of_ok (read_next_cons _ _) _
  | cons p ps =>
    rw [List.forall_mem_cons] at h
    obtain ⟨u, hp, hps⟩ := ht
    obtain ⟨d, v, hblanks, hd, hsquare, hcurly, hv⟩ := h.1.1 t u hp
    obtain ⟨between, hlabel, hskip⟩ := h.1.2 _ u hv (delimits_of_behind (close_eq b) hps)
    have hne : d ≠ b.close := by rcases close_eq b with hb | hb <;> rw [hb] <;> assumption
    have hstep : (skipStep (.before opened)).read s = .ok (.before (b :: opened), between) := by
      rw [hread, enter, read_onNext_of_blanks hblanks hd, if_neg hne]
      exact read_map_of_ok hlabel _
    rw [skipFrom_eq_of_read (by simp) hstep, hskip,
      skipFrom_behind (fun p hp => (h.2 p hp).2) opened hps]

/-! ## Documents -/

/-- The loop passes over a document as a whole. -/
def IsSkipped (p : Spelling) : Prop :=
  ∀ s rest, p s rest → Delimits rest → ∀ opened,
    skipFrom (.before opened) s = skipFrom (.behind opened) rest

theorem IsSkipped.skips_array {p : Spelling} (h : IsSkipped p) : Skips .array p := by
  intro s rest hs hrest
  exact ⟨s, rfl, h s rest hs hrest⟩

theorem IsSkipped.skips_object {p : Spelling} (h : IsSkipped p) (name : Option String) :
    Skips .object (Spelling.member name p) := by
  intro s rest hs hrest
  obtain ⟨t, hname, u, hcolon, hp⟩ := hs
  obtain ⟨text, hkey⟩ := exists_read_key hname
  refine ⟨u, ?_, h u rest hp hrest⟩
  rw [skipLabel, skipKey, read_bind_of_ok hkey, read_mark (by decide) hcolon]

theorem isSkipped_number (n : Numeral) : IsSkipped (Document.number n).Spelled := by
  intro s rest hs hrest opened
  rw [Document.Spelled] at hs
  obtain ⟨t, hblanks, hn⟩ := hs
  obtain ⟨c, t, rfl, hc⟩ := exists_cons_of_number hn
  have hbracket : bracket? c = none := by
    rw [bracket?, if_neg (ne_of_numeric hc (by decide) (by decide)),
      if_neg (ne_of_numeric hc (by decide) (by decide))]
  refine skipFrom_scalar hbracket (isBlank_numeric hc) hblanks ?_ opened
  rw [skipScalar, if_neg (ne_of_numeric hc (by decide) (by decide)),
    if_neg (ne_of_numeric hc (by decide) (by decide)),
    if_neg (ne_of_numeric hc (by decide) (by decide)),
    if_neg (ne_of_numeric hc (by decide) (by decide)), if_pos hc]
  exact read_map_of_ok (read_numeral true hn hrest) _

theorem isSkipped_string (text : Option String) : IsSkipped (Document.string text).Spelled := by
  intro s rest hs hrest opened
  rw [Document.Spelled] at hs
  obtain ⟨t, hblanks, hcontent⟩ := exists_of_string hs
  obtain ⟨u, hread⟩ := exists_read_quoted hcontent
  exact skipFrom_scalar rfl (by decide) hblanks (read_map_of_ok hread _) opened

theorem isSkipped_word {c : Char} {cs : List Char} (hc : isBlank c = false)
    (hbracket : bracket? c = none)
    (hread : ∀ rest, (skipScalar c).read (c :: cs ++ rest) = .ok ((), rest)) :
    IsSkipped (Spelling.word (c :: cs)) := by
  intro s rest hs _ opened
  obtain ⟨t, hblanks, rfl⟩ := hs
  exact skipFrom_scalar hbracket hc hblanks (hread rest) opened

mutual

/-- Every document is passed over as a whole. -/
theorem isSkipped_spelled : ∀ d : Document, IsSkipped d.Spelled
  | .null => by
    rw [Document.Spelled]
    exact isSkipped_word (by decide) rfl (read_word ['n', 'u', 'l', 'l'])
  | .boolean true => by
    rw [Document.Spelled]
    exact isSkipped_word (by decide) rfl (read_word ['t', 'r', 'u', 'e'])
  | .boolean false => by
    rw [Document.Spelled]
    exact isSkipped_word (by decide) rfl (read_word ['f', 'a', 'l', 's', 'e'])
  | .number n => isSkipped_number n
  | .string text => isSkipped_string text
  | .array items => by
    intro s rest hs _ opened
    rw [Document.Spelled] at hs
    obtain ⟨t, hmark, hitems⟩ := hs
    exact skipFrom_bracket rfl (by decide) (skips_items items) opened hmark hitems
  | .object members => by
    intro s rest hs _ opened
    rw [Document.Spelled] at hs
    obtain ⟨t, hmark, hmembers⟩ := hs
    exact skipFrom_bracket rfl (by decide) (skips_members members) opened hmark hmembers

theorem skips_items : ∀ ds : List Document, ∀ p ∈ Document.spelledItems ds,
    Opens p ∧ Skips .array p
  | [], _, hp => by cases hp
  | d :: ds, p, hp => by
    rw [Document.spelledItems] at hp
    rcases List.mem_cons.mp hp with rfl | hp
    · exact ⟨opens_spelled d, (isSkipped_spelled d).skips_array⟩
    · exact skips_items ds p hp

theorem skips_members : ∀ ms : List (Option String × Document),
    ∀ p ∈ Document.spelledMembers ms, Opens p ∧ Skips .object p
  | [], _, hp => by cases hp
  | (name, d) :: ms, p, hp => by
    rw [Document.spelledMembers] at hp
    rcases List.mem_cons.mp hp with rfl | hp
    · exact ⟨opens_member name _, (isSkipped_spelled d).skips_object name⟩
    · exact skips_members ms p hp

end

/-- Every document may stand where nobody asks for it. -/
theorem takes_skip (d : Document) : Takes skip d.Spelled (some ()) := by
  intro s rest hs hrest
  have hskip : skipFrom (.before []) s = .ok ((), rest) := by
    rw [isSkipped_spelled d s rest hs hrest [], skipFrom_behind_nil]
  exact hskip

end RecordFilter.Json
