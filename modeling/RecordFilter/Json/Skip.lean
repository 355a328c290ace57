import RecordFilter.Json.Token

/-!
# Skipping content

Content that nobody asks for is passed over.  It has to keep to the grammar, but it may nest to any
depth: the brackets that are open are held in a list, the innermost first.
-/

namespace RecordFilter.Json

/-- What an open bracket has begun. -/
inductive Bracket where
  | array
  | object
  deriving DecidableEq

/-- The character that closes a bracket. -/
def Bracket.close : Bracket → Char
  | array => ']'
  | object => '\x7d'

namespace Reader

/-- Takes the name of a member. -/
def key (skipping : Bool) : Reader String := onNext fun c =>
  if c = '\"' then quoted skipping else fail .malformed

/-- Takes the name of a member and the colon behind it, without asking which name it is. -/
def skipKey : Reader Unit := do
  let _ ← key true
  mark ':'

/-- Takes what the next value inside a bracket needs before it. -/
def skipLabel : Bracket → Reader Unit
  | .array => pure ()
  | .object => skipKey

/-- Passes over a scalar that starts with the given character. -/
def skipScalar (c : Char) : Reader Unit :=
  if c = 'n' then null
  else if c = 't' then boolean true
  else if c = 'f' then boolean false
  else if c = '\"' then (fun _ => ()) <$> quoted true
  else if c = '-' ∨ c.isDigit then (fun _ => ()) <$> numeral true
  else fail .malformed

/-- The bracket that a character opens. -/
def bracket? (c : Char) : Option Bracket :=
  if c = '[' then some .array
  else if c = '\x7b' then some .object
  else none

/-- A place in skipped content, with the brackets that are open there. -/
inductive Place where
  /-- A value comes next. -/
  | before (opened : List Bracket)
  /-- A value has just ended. -/
  | behind (opened : List Bracket)
  deriving DecidableEq

/-- A bound on the number of steps from a place to the end of the content. -/
def Place.distance (s : List Char) : Place → Nat
  | before _ => 2 * s.length + 1
  | behind _ => 2 * s.length

/-- Passes behind an opening bracket: to its first item, or to its end. -/
def enter (b : Bracket) (opened : List Bracket) : Reader Place := onNext fun c =>
  if c = b.close then (fun _ => .behind opened) <$> next
  else (fun _ => .before (b :: opened)) <$> skipLabel b

/-- Passes over a scalar, a bracket, or a comma with the label behind it. -/
def skipStep : Place → Reader Place
  | .before opened => onNext fun c =>
    match bracket? c with
    | some b => next >>= fun _ => enter b opened
    | none => (fun _ => .behind opened) <$> skipScalar c
  | .behind [] => pure (.behind [])
  | .behind (b :: below) => onNext fun c =>
    if c = b.close then (fun _ => .behind below) <$> next
    else if c = ',' then next >>= fun _ => (fun _ => .before (b :: below)) <$> skipLabel b
    else fail .malformed

theorem length_enter {b : Bracket} {opened : List Bracket} {s rest : List Char} {p : Place}
    (h : (enter b opened).read s = .ok (p, rest)) : p.distance rest ≤ 2 * s.length + 1 := by
  have := (enter b opened).shortens h
  cases p <;> simp only [Place.distance] <;> omega

theorem distance_skipStep {p p' : Place} {s rest : List Char} (hp : p ≠ .behind [])
    (h : (skipStep p).read s = .ok (p', rest)) : p'.distance rest < p.distance s := by
  match p with
  | .before opened =>
    simp only [skipStep, onNext] at h
    split at h
    · cases h
    · rename_i c r hs
      have hr := length_lt_of_skipBlanks hs
      split at h
      · rename_i b _
        have h' : (enter b opened).read r = .ok (p', rest) := h
        have := length_enter h'
        have hd : (Place.before opened).distance s = 2 * s.length + 1 := rfl
        omega
      · rw [read_map] at h
        split at h
        · rename_i r' hc
          cases h
          have := (skipScalar c).shortens hc
          simp only [List.length_cons] at this
          simp only [Place.distance]
          omega
        · cases h
  | .behind [] => exact absurd rfl hp
  | .behind (b :: below) =>
    simp only [skipStep, onNext] at h
    split at h
    · cases h
    · rename_i c r hs
      have hr := length_lt_of_skipBlanks hs
      split at h
      · cases h
        simp only [Place.distance]
        omega
      · split at h
        · have h' : ((fun _ => Place.before (b :: below)) <$> skipLabel b).read r =
              .ok (p', rest) := h
          rw [read_map] at h'
          split at h'
          · rename_i r' hl
            cases h'
            have := (skipLabel b).shortens hl
            simp only [Place.distance]
            omega
          · cases h'
        · cases h

/-- Passes over the content from a place to its end. -/
def skipFrom (p : Place) (s : List Char) : Outcome Unit :=
  if _hp : p = .behind [] then .ok ((), s)
  else
    match _h : (skipStep p).read s with
    | .error e => .error e
    | .ok (p', rest) => skipFrom p' rest
termination_by p.distance s
decreasing_by exact distance_skipStep _hp _h

theorem skipFrom_behind_nil (s : List Char) : skipFrom (.behind []) s = .ok ((), s) := by
  rw [skipFrom, dif_pos rfl]

/-- One step through skipped content. -/
theorem skipFrom_of_ne {p : Place} (hp : p ≠ .behind []) (s : List Char) :
    skipFrom p s =
      match (skipStep p).read s with
      | .error e => .error e
      | .ok (p', rest) => skipFrom p' rest := by
  rw [skipFrom, dif_neg hp]
  split
  · rename_i h
    rw [h]
  · rename_i h
    rw [h]

theorem length_skipFrom_le {p : Place} {s rest : List Char} {u : Unit}
    (h : skipFrom p s = .ok (u, rest)) : rest.length ≤ s.length := by
  fun_induction skipFrom p s with
  | case1 => cases h; exact Nat.le_refl _
  | case2 => cases h
  | case3 p s _ p' rest' hs ih => exact Nat.le_trans (ih h) ((skipStep p).shortens hs)

/-- Passes over a value. -/
def skip : Reader Unit := ⟨skipFrom (.before []), length_skipFrom_le⟩

end Reader

end RecordFilter.Json
