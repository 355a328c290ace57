import RecordFilter.Json.Document
import RecordFilter.Proofs.Json.Floats

/-!
# The brackets of a written value

Without blanks, an array is its items between brackets and an object its members, so both are read
by a loop over written items (`inside`).  Every written value starts with a character that no loop
takes for its end.

* `write_array`, `write_object`: the text between the brackets.
* `begins_write`: how a written value starts.
* `nesting`: the greatest number of brackets that are open at once in a text.
* `reads_document_scalar`, `reads_document_array`: a scalar and an array are read as JSON.
* `reads_record`: an object is read member by member, each by its name (`reads_named`).
-/

namespace RecordFilter.Json

open Reader

/-! ## Scalars -/

theorem write_integer (depth : Nat) (n : Int) :
    (integer n).write .compact depth = (Integer.numeralChars n ++ ·) := by
  funext rest
  rw [write]

theorem write_float (depth : Nat) (x : Binary64) :
    (float x).write .compact depth = (x.write numberLayout ++ ·) := by
  funext rest
  rw [write]

theorem write_string (depth : Nat) (s : String) :
    (string s).write .compact depth = writeString s := by
  funext rest
  rw [write]

/-! ## Between the brackets -/

/-- The text of a member of an object. -/
def writeMember (name : String) (w : Writing) : Writing := fun rest =>
  writeString name (':' :: w rest)

theorem writeItems_eq_behind (depth : Nat) (vs : List Json) (rest : List Char) :
    writeItems .compact depth vs rest =
      behind ']' (vs.map fun v => v.write .compact (depth + 1)) rest := by
  induction vs with
  | nil =>
    rw [writeItems]
    rfl
  | cons v vs ih =>
    rw [writeItems, ih]
    rfl

/-- An array is its items between brackets. -/
theorem write_array (depth : Nat) (vs : List Json) (rest : List Char) :
    (array vs).write .compact depth rest =
      '[' :: inside ']' (vs.map fun v => v.write .compact (depth + 1)) rest := by
  cases vs with
  | nil =>
    rw [write]
    rfl
  | cons v vs =>
    rw [write, writeItems_eq_behind]
    rfl

theorem writeMembers_eq_behind (depth : Nat) (members : List (String × Json))
    (rest : List Char) :
    writeMembers .compact depth members rest =
      behind '\x7d' (members.map fun m => writeMember m.1 (m.2.write .compact (depth + 1))) rest := by
  induction members with
  | nil =>
    rw [writeMembers]
    rfl
  | cons m members ih =>
    rw [writeMembers, ih]
    rfl

/-- An object is its members between brackets. -/
theorem write_object (depth : Nat) (members : List (String × Json)) (rest : List Char) :
    (object members).write .compact depth rest =
      '\x7b' ::
        inside '\x7d' (members.map fun m => writeMember m.1 (m.2.write .compact (depth + 1)))
          rest := by
  cases members with
  | nil =>
    rw [write]
    rfl
  | cons m members =>
    rw [write, writeMembers_eq_behind]
    rfl

/-! ## The first character -/

theorem begins_cons {w : Writing} {c : Char} {s : List Char → List Char}
    (hw : ∀ rest, w rest = c :: s rest) (hblank : isBlank c = false) (hsquare : c ≠ ']')
    (hcurly : c ≠ '\x7d') : Begins w :=
  fun rest => ⟨c, s rest, hw rest, hblank, hsquare, hcurly⟩

theorem begins_writeMember (name : String) (w : Writing) : Begins (writeMember name w) :=
  fun rest => begins_writeString name (':' :: w rest)

/-- A written value starts with a character that is no blank and ends no bracket. -/
theorem begins_write (depth : Nat) (v : Json) : Begins (v.write .compact depth) := by
  cases v with
  | null => exact begins_cons (fun _ => by rw [write]) (by decide) (by decide) (by decide)
  | boolean b =>
    cases b with
    | true => exact begins_cons (fun _ => by rw [write]) (by decide) (by decide) (by decide)
    | false => exact begins_cons (fun _ => by rw [write]) (by decide) (by decide) (by decide)
  | integer n =>
    rw [write_integer]
    exact begins_integer n
  | float x =>
    rw [write_float]
    exact Binary64.begins_float x
  | string s =>
    rw [write_string]
    exact begins_writeString s
  | array vs => exact begins_cons (write_array depth vs) (by decide) (by decide) (by decide)
  | object ms => exact begins_cons (write_object depth ms) (by decide) (by decide) (by decide)

/-! ## Open brackets -/

mutual

/-- The greatest number of brackets that are open at once in the text of a value. -/
def nesting : Json → Nat
  | array vs => nestingItems vs + 1
  | object members => nestingMembers members + 1
  | _ => 0

/-- The greatest number of brackets that are open at once in one of the items of an array. -/
def nestingItems : List Json → Nat
  | [] => 0
  | v :: vs => max v.nesting (nestingItems vs)

/-- The greatest number of brackets that are open at once in one of the members of an object. -/
def nestingMembers : List (String × Json) → Nat
  | [] => 0
  | (_, v) :: members => max v.nesting (nestingMembers members)

end

theorem nestingItems_le_iff {vs : List Json} {n : Nat} :
    nestingItems vs ≤ n ↔ ∀ v ∈ vs, v.nesting ≤ n := by
  induction vs with
  | nil => simp [nestingItems]
  | cons v vs ih => rw [nestingItems, Nat.max_le, ih, List.forall_mem_cons]

theorem nestingMembers_append (ms ns : List (String × Json)) :
    nestingMembers (ms ++ ns) = max (nestingMembers ms) (nestingMembers ns) := by
  induction ms with
  | nil => simp [nestingMembers]
  | cons m ms ih =>
    rw [List.cons_append, nestingMembers, nestingMembers, ih, Nat.max_assoc]

/-! ## Reading values -/

/-- The value that a token is all of. -/
def Token.scalar? : Token → Option Json
  | null => some .null
  | boolean b => some (.boolean b)
  | integer n => some (.integer n)
  | float x => some (.float x)
  | string s => some (.string s)
  | array | object => none

namespace Reader

/-- A scalar is read as its token says, whatever brackets may open. -/
theorem reads_document_scalar (brackets : Nat) {w : Writing} {o : Option Token}
    (h : Reads token w o) (ho : ∀ t ∈ o, t.scalar? ≠ none) :
    Reads (document brackets) w (o.bind Token.scalar?) := by
  have hvalue : ∀ item, Reads (valueOf item) w (o.bind Token.scalar?) := by
    intro item
    refine h.bind fun t ht => ?_
    have hscalar := ho t ht
    cases t with
    | null => exact reads_pure _
    | boolean b => exact reads_pure _
    | integer n => exact reads_pure _
    | float x => exact reads_pure _
    | string s => exact reads_pure _
    | array => exact absurd rfl hscalar
    | object => exact absurd rfl hscalar
  cases brackets with
  | zero => exact hvalue none
  | succ brackets => exact hvalue (some (document brackets))

/-- An array is read item by item, with one bracket less for each of them. -/
theorem reads_document_array {β : Type} {brackets depth : Nat} {bs : List β} {g : β → Json}
    {f : β → Option Json}
    (h : ∀ b ∈ bs, Reads (document brackets) ((g b).write .compact (depth + 1)) (f b)) :
    Reads (document (brackets + 1)) ((array (bs.map g)).write .compact depth)
      ((bs.mapM f).map .array) := by
  intro rest hrest
  have hitems := (reads_items (Or.inl rfl) h fun b => begins_write (depth + 1) (g b)).map Json.array
  rw [write_array, List.map_map, document, valueOf, read_bind_of_ok (read_token_array _)]
  exact hitems rest hrest

/-- An array is refused where no bracket may open. -/
theorem reads_document_array_none (depth : Nat) (items : List Json) :
    Reads (document 0) ((array items).write .compact depth) none := by
  intro rest _
  refine ⟨.malformed, ?_⟩
  rw [write_array, document, valueOf, read_bind_of_ok (read_token_array _)]
  rfl

end Reader

/-! ## Members -/

namespace Reader

variable {σ : Type}

/-- A written member is read by its name, unless it was given before. -/
theorem reads_named {α : Type} (members : List (Member σ)) (name : String) {m : Member σ}
    (hm : members.find? (·.answersTo name) = some m) {record : σ} {given : List String}
    (hgiven : given.contains m.name = false) {r : Reader α} {set : α → σ}
    (hr : m.read record = set <$> r) {w : Writing} {o : Option α} (h : Reads r w o) :
    Reads (named members (record, given)) (writeMember name w)
      (o.map fun a => (set a, m.name :: given)) := by
  intro rest hrest
  have hkey := read_key_writeString name (':' :: w rest)
  have hmark : (mark ':').read (':' :: w rest) = .ok ((), w rest) :=
    read_mark_cons (by decide) _
  have hvalue := (h.map set).map (fun record => (record, m.name :: given)) rest hrest
  rw [Option.map_map, ← hr] at hvalue
  rw [writeMember, named, read_bind_of_ok hkey]
  simp only [hm, hgiven, Bool.false_eq_true, if_false]
  rw [read_bind_of_ok hmark]
  exact hvalue

/-- A record that can do without any member is read member by member. -/
theorem reads_record {members : List (Member σ)} (hmembers : ∀ m ∈ members, m.isRequired = false)
    {start : σ} {ws : List Writing} (hws : ∀ w ∈ ws, Begins w) {o : Option σ}
    {given : List String}
    (h : Folds (named members) (start, []) ws (o.map fun record => (record, given)))
    (name : String) :
    Reads (record name start (some members)) (fun rest => '\x7b' :: inside '\x7d' ws rest) o := by
  have hrequired : members.find? (fun m => m.isRequired && !given.contains m.name) = none := by
    rw [List.find?_eq_none]
    intro m hm
    simp [hmembers m hm]
  have hfold : Reads (byName members start) (inside '\x7d' ws) o := by
    intro rest hrest
    have hread := h.reads (Or.inr rfl) hws rest hrest
    cases o with
    | none =>
      obtain ⟨e, he⟩ := gives_none.mp hread
      exact ⟨e, by rw [byName, read_bind, he]⟩
    | some record =>
      rw [gives_some, byName, read_bind_of_ok (gives_some.mp hread)]
      simp only [hrequired, read_pure]
  intro rest hrest
  rw [record, read_bind_of_ok (read_token_object _)]
  exact hfold rest hrest

/-- An object is refused where no bracket may open. -/
theorem reads_record_none (name : String) (start : σ) (w : Writing) :
    Reads (record name start none) (fun rest => '\x7b' :: w rest) none := by
  intro rest _
  refine ⟨.malformed, ?_⟩
  rw [record, read_bind_of_ok (read_token_object _)]
  rfl

/-! ## Choices and null -/

variable {α : Type}

/-- A word of a choice is read as its meaning. -/
theorem reads_choice {choices : List (String × α)} {word : String} {a : α}
    (h : choices.lookup word = some a) (mayOpen : Bool) :
    Reads (choice choices mayOpen) (writeString word) (some a) := by
  intro rest _
  have hquoted := read_quoted_writeString word rest
  rw [writeString] at hquoted
  rw [gives_some, choice, writeString, read_onNext_cons (by decide), if_pos rfl,
    read_bind_of_ok hquoted, chosen, h, read_pure]

theorem reads_nullable_null (r : Reader α) (depth : Nat) :
    Reads (nullable r) (Json.null.write .compact depth) (some none) := by
  intro rest _
  rw [gives_some, Json.write, nullable, read_onNext_cons (by decide), if_pos rfl]
  exact read_map_of_ok (read_word ['n', 'u', 'l', 'l'] rest) _

/-- Where null may stand, a text that starts with another character is read as without it. -/
theorem reads_nullable {r : Reader α} {w : Writing} (hw : Begins w)
    (hn : ∀ rest, (w rest).head? ≠ some 'n') {o : Option α} (h : Reads r w o) :
    Reads (nullable r) w (o.map some) := by
  intro rest hrest
  obtain ⟨c, s, hs, hblank, -⟩ := hw rest
  have hc : c ≠ 'n' := by
    rintro rfl
    exact hn rest (by rw [hs, List.head?_cons])
  have hread := h.map some rest hrest
  rw [hs] at hread ⊢
  rw [nullable, read_onNext_cons hblank, if_neg hc]
  exact hread

end Reader

end RecordFilter.Json
