import RecordFilter.Json.Skip

/-!
# Reading the shapes of a program's data

Lists, records and choices are read straight from a text, without a JSON value in between: each part
is read as what it has to be, so an error is found where it stands.

* `list`: an array whose items are all read alike.
* `record`: an object whose members are told by name, in any order, or an array of the members in
  their order.
* `choice`: one of several words, or an object whose only member is the word, with null.

Wherever a bracket opens, the reader of what is inside is `none` when too many brackets are open
already.
-/

namespace RecordFilter.Json.Reader

variable {α σ : Type}

/-! ## Items between brackets -/

/-- Reads the items of a bracket up to its end, from the first one; each changes the state. -/
def foldFrom (close : Char) (item : σ → Reader σ) (state : σ) (s : List Char) : Outcome σ :=
  match _h : (item state).read s with
  | .error e => .error e
  | .ok (state', rest) =>
    match _hr : skipBlanks rest with
    | [] => .error .truncated
    | c :: rest' =>
      if c = close then .ok (state', rest')
      else if c = ',' then foldFrom close item state' rest'
      else .error .malformed
termination_by s.length
decreasing_by exact Nat.lt_of_lt_of_le (length_lt_of_skipBlanks _hr) ((item state).shortens _h)

/-- One round of the loop over the items of a bracket. -/
theorem foldFrom_eq (close : Char) (item : σ → Reader σ) (state : σ) (s : List Char) :
    foldFrom close item state s =
      match (item state).read s with
      | .error e => .error e
      | .ok (state', rest) =>
        match skipBlanks rest with
        | [] => .error .truncated
        | c :: rest' =>
          if c = close then .ok (state', rest')
          else if c = ',' then foldFrom close item state' rest'
          else .error .malformed := by
  rw [foldFrom]
  split
  · rename_i h
    rw [h]
  · rename_i h
    rw [h]
    split
    · rename_i hr
      simp only [hr]
    · rename_i hr
      simp only [hr]

theorem length_foldFrom_le {close : Char} {item : σ → Reader σ} {state t : σ}
    {s rest : List Char} (h : foldFrom close item state s = .ok (t, rest)) :
    rest.length ≤ s.length := by
  fun_induction foldFrom close item state s with
  | case1 => cases h
  | case2 => cases h
  | case3 state s state' rest' hi rest'' hr =>
    cases h
    exact Nat.le_of_lt (Nat.lt_of_lt_of_le (length_lt_of_skipBlanks hr) ((item state).shortens hi))
  | case4 state s state' rest' hi rest'' hr _ ih =>
    exact Nat.le_trans (ih h)
      (Nat.le_of_lt (Nat.lt_of_lt_of_le (length_lt_of_skipBlanks hr) ((item state).shortens hi)))
  | case5 => cases h

/-- Reads all items of a bracket that has just been opened. -/
def foldItems (close : Char) (item : σ → Reader σ) (state : σ) : Reader σ := onNext fun c =>
  if c = close then (fun _ => state) <$> next
  else ⟨foldFrom close item state, length_foldFrom_le⟩

/-- Reads all items of a bracket into a list. -/
def items (close : Char) (item : Reader α) : Reader (List α) :=
  List.reverse <$> foldItems close (fun taken => (· :: taken) <$> item) []

/-! ## Scalars -/

/-- Reads a string. -/
def string : Reader String := token >>= fun t =>
  match t with
  | .string s => pure s
  | _ => mismatched (.type t "a string")

/-- Reads a truth value. -/
def truth : Reader Bool := token >>= fun t =>
  match t with
  | .boolean b => pure b
  | _ => mismatched (.type t "a boolean")

/-- Reads an integer of a type with the given name and range. -/
def integer (name : String) (ofInt? : Int → Option α) : Reader α := token >>= fun t =>
  match t with
  | .integer n =>
    match ofInt? n with
    | some a => pure a
    | none => mismatched (.range n name)
  | _ => mismatched (.type t name)

/-- Reads null. -/
def unit : Reader Unit := token >>= fun t =>
  match t with
  | .null => pure ()
  | _ => mismatched (.type t "unit")

/-- Reads null as nothing. -/
def nullable (r : Reader α) : Reader (Option α) := onNext fun c =>
  if c = 'n' then (fun _ => none) <$> null else some <$> r

/-! ## Lists -/

/-- Reads an array of items. -/
def list (item : Option (Reader α)) : Reader (List α) := token >>= fun t =>
  match t, item with
  | .array, some item => items ']' item
  | .array, none => fail .malformed
  | _, _ => mismatched (.type t "a sequence")

/-! ## Choices -/

/-- The meaning of a word in a choice. -/
def chosen (choices : List (String × α)) (word : String) : Reader α :=
  match choices.lookup word with
  | some a => pure a
  | none => mismatched (.variant word (choices.map Prod.fst))

/-- Reads the word of a choice that is the only member of an object.  The word is the name of the
member, so where it is no string the text breaks the grammar, as in any object. -/
def wrapped (choices : List (String × α)) : Reader α := do
  let a ← key false >>= chosen choices
  mark ':'
  unit
  mark '\x7d'
  return a

/-- Reads one of several words, each with a meaning.  The words are given in the order in which a
message lists them. -/
def choice (choices : List (String × α)) (mayOpen : Bool) : Reader α := onNext fun c =>
  if c = '\"' then quoted false >>= chosen choices
  else if c = '\x7b' then do
    symbol '\x7b'
    if mayOpen then wrapped choices else fail .malformed
  else fail .malformed

/-! ## Records -/

/-- A member of a record, which is read into the record so far. -/
structure Member (σ : Type) where
  /-- The name of the member, also in messages. -/
  name : String
  /-- Other names under which the member may be given. -/
  aliases : List String
  /-- The record cannot do without the member. -/
  isRequired : Bool
  /-- Reads the value of the member. -/
  read : σ → Reader σ

/-- The member may be given under the name. -/
def Member.answersTo (m : Member σ) (name : String) : Bool :=
  m.name == name || m.aliases.contains name

/-- Reads a member told by its name, unless one of that kind was given before. -/
def named (members : List (Member σ)) (state : σ × List String) : Reader (σ × List String) := do
  let name ← key false
  match members.find? (·.answersTo name) with
  | none =>
    mark ':'
    skip
    return state
  | some m =>
    if state.2.contains m.name then mismatched (.repeated m.name)
    else
      mark ':'
      let record ← m.read state.1
      return (record, m.name :: state.2)

/-- Reads the members of an object that has just been opened. -/
def byName (members : List (Member σ)) (start : σ) : Reader σ := do
  let (record, given) ← foldItems '\x7d' (named members) (start, [])
  match members.find? fun m => m.isRequired && !given.contains m.name with
  | some m => mismatched (.missing m.name)
  | none => return record

/-- The place of the first member that a record cannot do without, counted from `i`. -/
def firstRequired? (i : Nat) : List (Member σ) → Option Nat
  | [] => none
  | m :: ms => if m.isRequired then some i else firstRequired? (i + 1) ms

/-- Reads the members of an array that has just been opened, from the one at place `i`.  Those at
the end may be left out, as far as the record can do without them. -/
def byPlace (expected : String) (i : Nat) (record : σ) : List (Member σ) → Reader σ
  | [] => (fun _ => record) <$> mark ']'
  | m :: ms => onNext fun c =>
    if c = ']' then
      match firstRequired? i (m :: ms) with
      | some k => mismatched (.length k expected)
      | none => (fun _ => record) <$> next
    else do
      if i ≠ 0 then symbol ','
      let record ← m.read record
      byPlace expected (i + 1) record ms

/-- Reads a record of the given name. -/
def record (name : String) (start : σ) (members : Option (List (Member σ))) : Reader σ := do
  let expected := "struct " ++ name
  let t ← token
  match t, members with
  | .object, some members => byName members start
  | .array, some members =>
    let elements := Integer.numeral members.length ++ " elements"
    byPlace (expected ++ " with " ++ elements) 0 start members
  | .object, none => fail .malformed
  | .array, none => fail .malformed
  | _, _ => mismatched (.type t expected)

end RecordFilter.Json.Reader
