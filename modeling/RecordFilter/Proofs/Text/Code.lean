import Mathlib.Data.List.Infix

/-!
# Codes that keep the order and can be searched

A text is stored as the code words of its characters, one behind the other.  Nothing marks where a
word ends, and still two questions about texts can be asked of their words alone.

## Order

Two lists are compared at the first place where they part (`PartsBelow`), and a list that ends there
comes first (`LexAtMost`).  If the words of two characters always part, the smaller one below the
greater, then no word is the beginning of another.  So the words of a text can be told from each
other (`OrderedCode.append_inj`), and texts compare as their words do (`OrderedCode.lexAtMost_iff`).

## Search

A needle is found among the words where it is found in the text, if no match can begin inside a word
(`MarkedCode`): each word begins with an entry that stands nowhere else in a word.  A match that
begins at a mark begins a word (`MarkedCode.exists_split`), and from there on the words of the needle
are those of the text (`OrderedCode.infix_iff`).
-/

namespace RecordFilter.Text

variable {α β : Type}

/-! ## The order of lists -/

section Order

variable [LT β]

/-- At some place the two lists part, and the first one goes on with the smaller entry. -/
def PartsBelow (xs ys : List β) : Prop :=
  ∃ common x y, x < y ∧ common ++ [x] <+: xs ∧ common ++ [y] <+: ys

/-- The first list is a prefix of the second, or parts from it below. -/
def LexAtMost (xs ys : List β) : Prop := xs <+: ys ∨ PartsBelow xs ys

variable {x y : β} {xs ys : List β}

theorem PartsBelow.of_lt (h : x < y) (xs ys : List β) : PartsBelow (x :: xs) (y :: ys) :=
  ⟨[], x, y, h, List.prefix_append [x] xs, List.prefix_append [y] ys⟩

theorem PartsBelow.cons (h : PartsBelow xs ys) (x : β) : PartsBelow (x :: xs) (x :: ys) := by
  obtain ⟨common, a, b, hlt, ha, hb⟩ := h
  exact ⟨x :: common, a, b, hlt, (List.prefix_cons_inj x).mpr ha, (List.prefix_cons_inj x).mpr hb⟩

/-- What follows does not matter once two lists have parted. -/
theorem PartsBelow.append (h : PartsBelow xs ys) (r r' : List β) :
    PartsBelow (xs ++ r) (ys ++ r') := by
  obtain ⟨common, a, b, hlt, ha, hb⟩ := h
  exact ⟨common, a, b, hlt, ha.trans (List.prefix_append xs r), hb.trans (List.prefix_append ys r')⟩

theorem not_partsBelow_nil_right (xs : List β) : ¬ PartsBelow xs [] := by
  rintro ⟨common, a, b, -, -, hb⟩
  simp at hb

theorem partsBelow_cons_cons_iff :
    PartsBelow (x :: xs) (y :: ys) ↔ x < y ∨ x = y ∧ PartsBelow xs ys := by
  constructor
  · rintro ⟨common, a, b, hlt, ha, hb⟩
    cases common with
    | nil =>
      obtain ⟨rfl, -⟩ := List.cons_prefix_cons.mp ha
      obtain ⟨rfl, -⟩ := List.cons_prefix_cons.mp hb
      exact Or.inl hlt
    | cons c common =>
      obtain ⟨rfl, hxs⟩ := List.cons_prefix_cons.mp ha
      obtain ⟨rfl, hys⟩ := List.cons_prefix_cons.mp hb
      exact Or.inr ⟨rfl, common, a, b, hlt, hxs, hys⟩
  · rintro (hlt | ⟨rfl, h⟩)
    · exact .of_lt hlt xs ys
    · exact h.cons x

theorem lexAtMost_nil (ys : List β) : LexAtMost [] ys := Or.inl List.nil_prefix

theorem not_lexAtMost_nil (x : β) (xs : List β) : ¬ LexAtMost (x :: xs) [] := by
  rintro (h | h)
  · simp at h
  · exact not_partsBelow_nil_right _ h

theorem lexAtMost_cons_cons_iff :
    LexAtMost (x :: xs) (y :: ys) ↔ x < y ∨ x = y ∧ LexAtMost xs ys := by
  rw [LexAtMost, List.cons_prefix_cons, partsBelow_cons_cons_iff, LexAtMost]
  tauto

variable [Std.Asymm (α := β) (· < ·)]

/-- A common beginning does not matter. -/
theorem lexAtMost_append_left_iff (common : List β) :
    LexAtMost (common ++ xs) (common ++ ys) ↔ LexAtMost xs ys := by
  induction common with
  | nil => exact Iff.rfl
  | cons c common ih =>
    have hirrefl : ¬ c < c := fun h => Std.Asymm.asymm c c h h
    rw [List.cons_append, List.cons_append, lexAtMost_cons_cons_iff, ih]
    simp [hirrefl]

/-- Of two lists that have parted, only one is at most the other. -/
theorem PartsBelow.not_lexAtMost (h : PartsBelow xs ys) : ¬ LexAtMost ys xs := by
  obtain ⟨common, x, y, hlt, ⟨r, rfl⟩, ⟨r', rfl⟩⟩ := h
  rw [List.append_assoc, List.append_assoc, lexAtMost_append_left_iff, List.singleton_append,
    List.singleton_append, lexAtMost_cons_cons_iff]
  rintro (hgt | ⟨rfl, -⟩)
  · exact Std.Asymm.asymm x y hlt hgt
  · exact Std.Asymm.asymm _ _ hlt hlt

/-- Lists that have parted stay different, whatever follows. -/
theorem PartsBelow.append_ne (h : PartsBelow xs ys) (r r' : List β) : xs ++ r ≠ ys ++ r' := by
  intro heq
  have hparts := h.append r r'
  rw [heq] at hparts
  exact hparts.not_lexAtMost (Or.inl List.prefix_rfl)

end Order

/-! ## Codes that keep the order -/

/-- Code words are not empty, and the word of the smaller of two characters parts below the word of
the greater. -/
structure OrderedCode [LT α] [LT β] (code : α → List β) : Prop where
  ne_nil : ∀ a, code a ≠ []
  partsBelow : ∀ {a b}, a < b → PartsBelow (code a) (code b)

namespace OrderedCode

variable [LT α] [LT β] [Std.Asymm (α := β) (· < ·)] [Std.Trichotomous (α := α) (· < ·)]
  {code : α → List β} (hcode : OrderedCode code)

include hcode

/-- A code word is told from what follows it. -/
theorem append_inj {a b : α} {r r' : List β} (h : code a ++ r = code b ++ r') : a = b ∧ r = r' := by
  rcases Std.Trichotomous.rel_or_eq_or_rel_swap (r := (· < · : α → α → Prop)) (a := a) (b := b) with
    hlt | rfl | hgt
  · exact absurd h ((hcode.partsBelow hlt).append_ne r r')
  · exact ⟨rfl, List.append_cancel_left h⟩
  · exact absurd h.symm ((hcode.partsBelow hgt).append_ne r' r)

/-- One text is the beginning of another if its words are. -/
theorem prefix_iff {as bs : List α} : as.flatMap code <+: bs.flatMap code ↔ as <+: bs := by
  induction as generalizing bs with
  | nil => simp
  | cons a as ih =>
    cases bs with
    | nil => simp [hcode.ne_nil a]
    | cons b bs =>
      rw [List.flatMap_cons, List.flatMap_cons, List.cons_prefix_cons, ← ih]
      constructor
      · rintro ⟨r, hr⟩
        rw [List.append_assoc] at hr
        obtain ⟨rfl, hrest⟩ := hcode.append_inj hr
        exact ⟨rfl, r, hrest⟩
      · rintro ⟨rfl, hrest⟩
        exact (List.prefix_append_right_inj _).mpr hrest

/-- **Texts compare as their words.** -/
theorem lexAtMost_iff [Std.Asymm (α := α) (· < ·)] {as bs : List α} :
    LexAtMost (as.flatMap code) (bs.flatMap code) ↔ LexAtMost as bs := by
  induction as generalizing bs with
  | nil => exact iff_of_true (lexAtMost_nil _) (lexAtMost_nil _)
  | cons a as ih =>
    cases bs with
    | nil =>
      obtain ⟨x, xs, hword⟩ := List.exists_cons_of_ne_nil (hcode.ne_nil a)
      rw [List.flatMap_cons, hword]
      exact iff_of_false (not_lexAtMost_nil x _) (not_lexAtMost_nil a as)
    | cons b bs =>
      rw [List.flatMap_cons, List.flatMap_cons]
      rcases Std.Trichotomous.rel_or_eq_or_rel_swap (r := (· < · : α → α → Prop)) (a := a)
        (b := b) with hlt | rfl | hgt
      · exact iff_of_true (Or.inr ((hcode.partsBelow hlt).append _ _)) (Or.inr (.of_lt hlt as bs))
      · rw [lexAtMost_append_left_iff, ih]
        exact (lexAtMost_append_left_iff [a]).symm
      · exact iff_of_false ((hcode.partsBelow hgt).append _ _).not_lexAtMost
          (PartsBelow.of_lt hgt bs as).not_lexAtMost

end OrderedCode

/-! ## Codes that can be searched -/

/-- Each code word begins with a marked entry, and has no other. -/
def MarkedCode (marked : β → Prop) (code : α → List β) : Prop :=
  ∀ a, ∃ x xs, code a = x :: xs ∧ marked x ∧ ∀ y ∈ xs, ¬ marked y

/-- Among the words of a text, a marked entry begins a word. -/
theorem MarkedCode.exists_split {marked : β → Prop} {code : α → List β}
    (hcode : MarkedCode marked code) {as : List α} {before after : List β} {x : β}
    (hx : marked x) (h : as.flatMap code = before ++ x :: after) :
    ∃ front rest, as = front ++ rest ∧ front.flatMap code = before ∧
      rest.flatMap code = x :: after := by
  induction as generalizing before with
  | nil => simp at h
  | cons a as ih =>
    rw [List.flatMap_cons, List.append_eq_append_iff] at h
    rcases h with ⟨between, rfl, hrest⟩ | ⟨between, hword, hrest⟩
    · -- The entry stands behind the word of the first character.
      obtain ⟨front, rest, rfl, rfl, hsplit⟩ := ih hrest
      exact ⟨a :: front, rest, rfl, List.flatMap_cons, hsplit⟩
    · obtain ⟨y, ys, hmark, -, hunmarked⟩ := hcode a
      cases before with
      | nil => exact ⟨[], a :: as, rfl, rfl, by rw [List.flatMap_cons, hword, hrest]; rfl⟩
      | cons z before =>
        cases between with
        | nil =>
          -- It stands right behind it.
          rw [List.append_nil] at hword
          exact ⟨[a], as, rfl, by rw [List.flatMap_singleton, hword], hrest.symm⟩
        | cons w between =>
          -- It would stand inside the word.
          obtain ⟨rfl, -⟩ := List.cons.inj hrest
          rw [hmark] at hword
          refine absurd hx (hunmarked x ?_)
          rw [(List.cons.inj hword).2]
          simp

/-- **A needle occurs in a text where its words occur among those of the text.** -/
theorem OrderedCode.infix_iff [LT α] [LT β] [Std.Asymm (α := β) (· < ·)]
    [Std.Trichotomous (α := α) (· < ·)] {marked : β → Prop} {code : α → List β}
    (hordered : OrderedCode code) (hmarked : MarkedCode marked code) {needle s : List α} :
    needle.flatMap code <:+: s.flatMap code ↔ needle <:+: s := by
  refine ⟨fun h => ?_, fun h => h.flatMap code⟩
  cases needle with
  | nil => exact List.nil_infix
  | cons c cs =>
    obtain ⟨before, after, hwords⟩ := h
    obtain ⟨x, xs, hword, hx, -⟩ := hmarked c
    have hmatch : s.flatMap code = before ++ x :: (xs ++ cs.flatMap code ++ after) := by
      rw [← hwords, List.flatMap_cons, hword]
      simp
    obtain ⟨front, rest, rfl, -, hrest⟩ := hmarked.exists_split hx hmatch
    have hprefix : (c :: cs).flatMap code <+: rest.flatMap code := by
      rw [hrest, List.flatMap_cons, hword]
      exact ⟨after, rfl⟩
    exact ((hordered.prefix_iff).mp hprefix).isInfix.trans (List.suffix_append front rest).isInfix

end RecordFilter.Text
