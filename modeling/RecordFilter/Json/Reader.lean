import RecordFilter.Json.Error

/-!
# Readers

A reader takes something from the front of a text, and returns it with the rest of the text.  The
rest is never longer than the text (`shortens`), so a loop that takes one character in each round
comes to an end whatever readers it calls.
-/

namespace RecordFilter.Json

/-- The outcome of reading: something and the rest of the text, or an error. -/
abbrev Outcome (α : Type) := Except ReadError (α × List Char)

/-- A way of reading something from the front of a text. -/
structure Reader (α : Type) where
  read : List Char → Outcome α
  shortens : ∀ {s a rest}, read s = .ok (a, rest) → rest.length ≤ s.length

namespace Reader

variable {α β : Type}

/-- Readers are joined by reading one thing after another. -/
instance : Monad Reader where
  pure a := ⟨fun s => .ok (a, s), fun h => by cases h; exact Nat.le_refl _⟩
  bind r f :=
    { read := fun s =>
        match r.read s with
        | .ok (a, rest) => (f a).read rest
        | .error e => .error e
      shortens := by
        intro s b rest h
        split at h
        · rename_i hr
          exact Nat.le_trans ((f _).shortens h) (r.shortens hr)
        · cases h }

/-- Refuses every text. -/
def fail (e : ReadError) : Reader α := ⟨fun _ => .error e, fun h => by cases h⟩

/-- Refuses every text for what was found in it. -/
def mismatched (m : Mismatch) : Reader α := fail (.mismatch m)

@[simp] theorem read_pure (a : α) (s : List Char) : (pure a : Reader α).read s = .ok (a, s) :=
  rfl

theorem read_bind (r : Reader α) (f : α → Reader β) (s : List Char) :
    (r >>= f).read s =
      match r.read s with
      | .ok (a, rest) => (f a).read rest
      | .error e => .error e :=
  rfl

theorem read_map (r : Reader α) (f : α → β) (s : List Char) :
    (f <$> r).read s =
      match r.read s with
      | .ok (a, rest) => .ok (f a, rest)
      | .error e => .error e :=
  rfl

@[simp] theorem read_fail (e : ReadError) (s : List Char) : (fail e : Reader α).read s = .error e :=
  rfl

@[simp] theorem read_mismatched (m : Mismatch) (s : List Char) :
    (mismatched m : Reader α).read s = .error (.mismatch m) :=
  rfl

/-! ## Blanks -/

/-- The blanks of JSON. -/
def isBlank (c : Char) : Bool := c == ' ' || c == '\t' || c == '\n' || c == '\r'

/-- A text without its leading blanks. -/
def skipBlanks (s : List Char) : List Char := s.dropWhile isBlank

theorem length_skipBlanks_le (s : List Char) : (skipBlanks s).length ≤ s.length :=
  (List.dropWhile_sublist _).length_le

theorem length_lt_of_skipBlanks {s rest : List Char} {c : Char} (h : skipBlanks s = c :: rest) :
    rest.length < s.length := by
  have := length_skipBlanks_le s
  rw [h] at this
  exact this

/-- Goes on as the first character behind the blanks tells, without taking that character. -/
def onNext (f : Char → Reader α) : Reader α where
  read s :=
    match skipBlanks s with
    | [] => .error .truncated
    | c :: rest => (f c).read (c :: rest)
  shortens := by
    intro s a rest h
    split at h
    · cases h
    · rename_i c r hs
      exact Nat.le_trans ((f c).shortens h) (length_lt_of_skipBlanks hs)

theorem read_onNext (f : Char → Reader α) (s : List Char) :
    (onNext f).read s =
      match skipBlanks s with
      | [] => .error .truncated
      | c :: rest => (f c).read (c :: rest) :=
  rfl

/-- Takes the given character, which must come next. -/
def symbol (c : Char) : Reader Unit where
  read
    | [] => .error .truncated
    | d :: rest => if d = c then .ok ((), rest) else .error .malformed
  shortens := by
    intro s a rest h
    split at h
    · cases h
    · split at h
      · cases h
        exact Nat.le_succ _
      · cases h

@[simp] theorem read_symbol_cons (c : Char) (rest : List Char) :
    (symbol c).read (c :: rest) = .ok ((), rest) := if_pos rfl

/-- Takes the given character, which must come next behind blanks. -/
def mark (c : Char) : Reader Unit := onNext fun _ => symbol c

/-- Takes the given characters, one after the other. -/
def word : List Char → Reader Unit
  | [] => pure ()
  | c :: cs => do
    symbol c
    word cs

/-- A word is taken from in front of any text. -/
theorem read_word (cs rest : List Char) : (word cs).read (cs ++ rest) = .ok ((), rest) := by
  induction cs with
  | nil => rfl
  | cons c cs ih => rw [word, List.cons_append, read_bind, read_symbol_cons]; exact ih

/-- Reads a whole text: behind what is asked for, nothing but blanks may stand. -/
def complete (r : Reader α) (s : String) : Except ReadError α :=
  match r.read s.toList with
  | .error e => .error e
  | .ok (a, rest) => if skipBlanks rest = [] then .ok a else .error .malformed

end Reader

end RecordFilter.Json
