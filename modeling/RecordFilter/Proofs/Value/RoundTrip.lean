import RecordFilter.Proofs.Json.Range
import RecordFilter.Proofs.Json.Writing
import RecordFilter.Value.Json

/-!
# Writing a value and reading it back

The text of a value is read in two steps: as JSON (`Value.parsed?`), and as the value that the JSON
stands for.  Together they make `Value.reread?`, in which at most the given number of brackets may
be open.  Null stands for no value, so a value that is written as null comes back only where a value
may be left out.

* `reads_reader`: a written value is read as `reread?` says, or refused if there is none.
* `isSome_reread?_iff`: it is read exactly when its brackets suffice and each of its numbers can be
  read.
* `eq_iff_of_reread?`: a value that is read is the written one exactly when its numbers are.
-/

namespace RecordFilter.Value

open Json.Reader

/-! ## What is read -/

mutual

/-- The JSON that the text of a value is read as with the given number of brackets. -/
def parsed? : Nat → Value → Option Json
  | _, boolean b => some (.boolean b)
  | _, integer i => some (.integer i.toInt)
  | _, float x => if x.isFinite then x.reread?.map .float else some .null
  | _, string s => some (.string s)
  | 0, list _ => none
  | brackets + 1, list items => (parseds? brackets items).map .array

/-- The JSON that the texts of the values of a list are read as. -/
def parseds? (brackets : Nat) : List Value → Option (List Json)
  | [] => some []
  | v :: vs => do
    let j ← parsed? brackets v
    let js ← parseds? brackets vs
    return j :: js

end

mutual

/-- The value that the text of a value is read as with the given number of brackets. -/
def reread? : Nat → Value → Option Value
  | _, boolean b => some (boolean b)
  | _, integer i => some (integer i)
  | _, float x => x.reread?.map float
  | _, string s => some (string s)
  | 0, list _ => none
  | brackets + 1, list items => (rereads? brackets items).map list

/-- The values that the texts of the values of a list are read as. -/
def rereads? (brackets : Nat) : List Value → Option (List Value)
  | [] => some []
  | v :: vs => do
    let w ← reread? brackets v
    let ws ← rereads? brackets vs
    return w :: ws

end

theorem parseds?_eq_mapM (brackets : Nat) (vs : List Value) :
    parseds? brackets vs = vs.mapM (parsed? brackets) := by
  induction vs with
  | nil => rfl
  | cons v vs ih => rw [parseds?, ih, List.mapM_cons]

theorem toJsons_eq_map (vs : List Value) : toJsons vs = vs.map toJson := by
  induction vs with
  | nil => rfl
  | cons v vs ih => rw [toJsons, ih, List.map_cons]

/-! ## Reading JSON -/

mutual

/-- The text of a value is read as JSON. -/
theorem reads_document : ∀ (v : Value) (brackets depth : Nat),
    Reads (document brackets) (v.toJson.write .compact depth) (v.parsed? brackets)
  | boolean b, brackets, depth => by
    rw [toJson, parsed?]
    exact reads_document_scalar brackets (reads_token_boolean b depth) (by simp [Json.Token.scalar?])
  | integer i, brackets, depth => by
    rw [toJson, parsed?, Json.write_integer]
    exact reads_document_scalar brackets (reads_integer i) (by simp [Json.Token.scalar?])
  | float x, brackets, depth => by
    rw [toJson, parsed?]
    by_cases hx : x.isFinite = true
    · have hread := reads_document_scalar brackets (Binary64.reads_float hx) (by
        simp [Json.Token.scalar?])
      rw [Option.bind_map] at hread
      rw [if_pos hx, if_pos hx, Json.write_float, Option.map_eq_bind]
      exact hread
    · rw [if_neg hx, if_neg hx]
      exact reads_document_scalar brackets (reads_token_null depth) (by simp [Json.Token.scalar?])
  | string s, brackets, depth => by
    rw [toJson, parsed?, Json.write_string]
    exact reads_document_scalar brackets (reads_token_string s) (by simp [Json.Token.scalar?])
  | list items, 0, depth => by
    rw [toJson, parsed?]
    exact reads_document_array_none depth _
  | list items, brackets + 1, depth => by
    have h := reads_documents items brackets (depth + 1)
    rw [toJson, parsed?, toJsons_eq_map, parseds?_eq_mapM]
    exact reads_document_array h

/-- The texts of the values of a list are read as JSON. -/
theorem reads_documents : ∀ (vs : List Value) (brackets depth : Nat), ∀ v ∈ vs,
    Reads (document brackets) (v.toJson.write .compact depth) (v.parsed? brackets)
  | [], _, _ => fun v hv => nomatch hv
  | v :: vs, brackets, depth => by
    intro w hw
    rcases List.mem_cons.mp hw with h | hw
    · rw [h]
      exact reads_document v brackets depth
    · exact reads_documents vs brackets depth w hw

end

/-! ## Reading values -/

mutual

/-- The JSON that the text of a value is read as stands for `reread?`. -/
theorem bind_parsed? : ∀ (v : Value) (brackets : Nat),
    (v.parsed? brackets).bind ofJson? = v.reread? brackets
  | boolean b, brackets => by
    rw [parsed?, reread?, Option.bind_some, ofJson?]
  | integer i, brackets => by
    rw [parsed?, reread?, Option.bind_some, ofJson?, Integer.toInt64?_toInt]
  | float x, brackets => by
    rw [parsed?, reread?]
    cases hx : x.isFinite with
    | true =>
      rw [if_pos rfl, Option.bind_map, Option.map_eq_bind]
      rfl
    | false =>
      rw [if_neg Bool.false_ne_true, Binary64.reread?_eq_none hx, Option.bind_some, ofJson?]
      rfl
  | string s, brackets => by
    rw [parsed?, reread?, Option.bind_some, ofJson?]
  | list items, 0 => by
    rw [parsed?, reread?, Option.bind_none]
  | list items, brackets + 1 => by
    rw [parsed?, reread?, ← bind_parseds? items brackets, Option.bind_map, Option.map_bind]
    rfl

/-- The JSON that the texts of the values of a list are read as stands for `rereads?`. -/
theorem bind_parseds? : ∀ (vs : List Value) (brackets : Nat),
    (parseds? brackets vs).bind ofJsons? = rereads? brackets vs
  | [], brackets => by
    rw [parseds?, rereads?, Option.bind_some, ofJsons?]
  | v :: vs, brackets => by
    rw [parseds?, rereads?, ← bind_parsed? v brackets, ← bind_parseds? vs brackets]
    cases v.parsed? brackets with
    | none => rfl
    | some j =>
      cases parseds? brackets vs with
      | none =>
        show none = (ofJson? j).bind fun _ => none
        rw [Option.bind_fun_none]
      | some js => rfl

end

/-- A written value is read as `reread?` says, or refused if there is none. -/
theorem reads_reader (v : Value) (brackets depth : Nat) :
    Reads (reader brackets) (v.toJson.write .compact depth) (v.reread? brackets) := by
  rw [← bind_parsed?]
  refine (reads_document v brackets depth).bind fun j _ => ?_
  cases ofJson? j with
  | none => exact reads_mismatched _
  | some v => exact reads_pure v

/-! ## Where a value may be left out -/

/-- The value is a number that JSON has no form for. -/
def isNonFinite : Value → Bool
  | float x => !x.isFinite
  | _ => false

/-- What the text of a value is read as where it may be left out. -/
def rereadOptional? (brackets : Nat) (v : Value) : Option (Option Value) :=
  if v.isNonFinite then some none else (v.reread? brackets).map some

theorem toJson_of_isNonFinite {v : Value} (hv : v.isNonFinite = true) : v.toJson = .null := by
  cases v with
  | float x =>
    have hx : ¬ x.isFinite = true := by simpa [isNonFinite] using hv
    rw [toJson, if_neg hx]
  | boolean b => cases hv
  | integer i => cases hv
  | string s => cases hv
  | list items => cases hv

/-- Any other value has a text of its own. -/
theorem head?_write_ne {v : Value} (hv : v.isNonFinite = false) (depth : Nat)
    (rest : List Char) : (v.toJson.write .compact depth rest).head? ≠ some 'n' := by
  cases v with
  | boolean b =>
    cases b with
    | true =>
      rw [toJson, Json.write, List.head?_cons]
      decide
    | false =>
      rw [toJson, Json.write, List.head?_cons]
      decide
  | integer i =>
    rw [toJson, Json.write]
    exact head?_integer_ne i.toInt rest
  | float x =>
    have hx : x.isFinite = true := by simpa [isNonFinite] using hv
    rw [toJson, if_pos hx, Json.write]
    exact Binary64.head?_write_ne hx rest
  | string s =>
    rw [toJson, Json.write, Json.writeString, List.head?_cons]
    decide
  | list items =>
    rw [toJson, Json.write_array, List.head?_cons]
    decide

/-- A written value is read as `rereadOptional?` says where it may be left out. -/
theorem reads_nullable_reader (v : Value) (brackets depth : Nat) :
    Reads (nullable (reader brackets)) (v.toJson.write .compact depth)
      (v.rereadOptional? brackets) := by
  rw [rereadOptional?]
  by_cases hv : v.isNonFinite = true
  · rw [if_pos hv, toJson_of_isNonFinite hv]
    exact reads_nullable_null _ depth
  · rw [if_neg hv]
    exact reads_nullable (Json.begins_write depth v.toJson)
      (head?_write_ne (Bool.eq_false_iff.mpr hv) depth) (reads_reader v brackets depth)

/-! ## What comes back -/

/-- The number occurs in the value, at any level. -/
inductive Has (x : Binary64) : Value → Prop where
  | float : Has x (float x)
  | list {items : List Value} {v : Value} : v ∈ items → Has x v → Has x (list items)

theorem has_float_iff {x y : Binary64} : (float y).Has x ↔ x = y := by
  constructor
  · intro h
    cases h
    rfl
  · rintro rfl
    exact .float

theorem has_list_iff {x : Binary64} {items : List Value} :
    (list items).Has x ↔ ∃ v ∈ items, v.Has x := by
  constructor
  · intro h
    cases h with
    | list hv hx => exact ⟨_, hv, hx⟩
  · rintro ⟨v, hv, hx⟩
    exact .list hv hx

theorem rereads?_cons (brackets : Nat) (v : Value) (vs : List Value) :
    rereads? brackets (v :: vs) =
      (v.reread? brackets).bind fun w => (rereads? brackets vs).map (w :: ·) := by
  rw [rereads?]
  cases rereads? brackets vs <;> rfl

mutual

/-- A value is read exactly when no more than the given number of brackets are open at once and each
of its numbers is read. -/
theorem isSome_reread?_iff : ∀ (v : Value) (brackets : Nat),
    (v.reread? brackets).isSome = true ↔
      v.toJson.nesting ≤ brackets ∧ ∀ x, v.Has x → x.reread?.isSome = true
  | boolean b, brackets => by
    refine ⟨fun _ => ⟨Nat.zero_le _, fun x hx => nomatch hx⟩, fun _ => ?_⟩
    rw [reread?, Option.isSome_some]
  | integer i, brackets => by
    refine ⟨fun _ => ⟨Nat.zero_le _, fun x hx => nomatch hx⟩, fun _ => ?_⟩
    rw [reread?, Option.isSome_some]
  | float x, brackets => by
    have hnesting : (float x).toJson.nesting = 0 := by
      rw [toJson]
      split <;> rfl
    rw [reread?, Option.isSome_map, hnesting]
    constructor
    · intro h
      refine ⟨Nat.zero_le _, fun y hy => ?_⟩
      rw [has_float_iff.mp hy]
      exact h
    · exact fun h => h.2 x .float
  | string s, brackets => by
    refine ⟨fun _ => ⟨Nat.zero_le _, fun x hx => nomatch hx⟩, fun _ => ?_⟩
    rw [reread?, Option.isSome_some]
  | list items, 0 => by
    rw [reread?, toJson, Json.nesting]
    constructor
    · intro h
      cases h
    · exact fun h => absurd h.1 (Nat.not_succ_le_zero _)
  | list items, brackets + 1 => by
    have hitems := isSome_rereads?_iff items brackets
    rw [reread?, Option.isSome_map, hitems, toJson, Json.nesting, Nat.add_le_add_iff_right]
    refine and_congr_right fun _ => ?_
    constructor
    · intro h x hx
      obtain ⟨v, hv, hx⟩ := has_list_iff.mp hx
      exact h v hv x hx
    · exact fun h v hv x hx => h x (.list hv hx)

/-- The values of a list are read exactly when each of them is. -/
theorem isSome_rereads?_iff : ∀ (vs : List Value) (brackets : Nat),
    (rereads? brackets vs).isSome = true ↔
      Json.nestingItems (toJsons vs) ≤ brackets ∧
        ∀ v ∈ vs, ∀ x, v.Has x → x.reread?.isSome = true
  | [], brackets => by
    refine ⟨fun _ => ⟨Nat.zero_le _, fun v hv => nomatch hv⟩, fun _ => ?_⟩
    rw [rereads?, Option.isSome_some]
  | v :: vs, brackets => by
    have hv := isSome_reread?_iff v brackets
    have hvs := isSome_rereads?_iff vs brackets
    have hboth : (rereads? brackets (v :: vs)).isSome = true ↔
        (v.reread? brackets).isSome = true ∧ (rereads? brackets vs).isSome = true := by
      rw [rereads?_cons]
      cases v.reread? brackets with
      | none => simp
      | some w => simp
    rw [hboth, hv, hvs, toJsons, Json.nestingItems, Nat.max_le, List.forall_mem_cons]
    exact and_and_and_comm

end

mutual

/-- A value that is read is the written one exactly when each of its numbers comes back. -/
theorem eq_iff_of_reread? : ∀ (v : Value) {brackets : Nat} {w : Value},
    v.reread? brackets = some w → (w = v ↔ ∀ x, v.Has x → x.reread? = some x)
  | boolean b, brackets, w => by
    intro h
    rw [reread?] at h
    exact ⟨fun _ x hx => (nomatch hx), fun _ => (Option.some_inj.mp h).symm⟩
  | integer i, brackets, w => by
    intro h
    rw [reread?] at h
    exact ⟨fun _ x hx => (nomatch hx), fun _ => (Option.some_inj.mp h).symm⟩
  | float x, brackets, w => by
    intro h
    rw [reread?] at h
    obtain ⟨y, hy, rfl⟩ := Option.map_eq_some_iff.mp h
    constructor
    · intro hyx z hz
      injection hyx with hyx
      rw [has_float_iff.mp hz, hy, hyx]
    · intro hx
      rw [hx x .float] at hy
      rw [Option.some_inj.mp hy]
  | string s, brackets, w => by
    intro h
    rw [reread?] at h
    exact ⟨fun _ x hx => (nomatch hx), fun _ => (Option.some_inj.mp h).symm⟩
  | list items, 0, w => by
    intro h
    rw [reread?] at h
    cases h
  | list items, brackets + 1, w => by
    intro h
    rw [reread?] at h
    obtain ⟨ws, hws, rfl⟩ := Option.map_eq_some_iff.mp h
    have hitems := eq_iff_of_rereads? items hws
    rw [list.injEq, hitems]
    constructor
    · intro h x hx
      obtain ⟨v, hv, hx⟩ := has_list_iff.mp hx
      exact h v hv x hx
    · exact fun h v hv x hx => h x (.list hv hx)

/-- A list that is read is the written one exactly when each number in it comes back. -/
theorem eq_iff_of_rereads? : ∀ (vs : List Value) {brackets : Nat} {ws : List Value},
    rereads? brackets vs = some ws → (ws = vs ↔ ∀ v ∈ vs, ∀ x, v.Has x → x.reread? = some x)
  | [], brackets, ws => by
    intro h
    rw [rereads?] at h
    exact ⟨fun _ v hv => (nomatch hv), fun _ => (Option.some_inj.mp h).symm⟩
  | v :: vs, brackets, ws => by
    intro h
    rw [rereads?_cons] at h
    obtain ⟨w, hw, hws⟩ := Option.bind_eq_some_iff.mp h
    obtain ⟨us, hus, rfl⟩ := Option.map_eq_some_iff.mp hws
    rw [List.cons.injEq, eq_iff_of_reread? v hw, eq_iff_of_rereads? vs hus, List.forall_mem_cons]

end

theorem not_has_of_isNonFinite {v : Value} (hv : v.isNonFinite = true) :
    ∃ x, v.Has x ∧ x.reread? = none := by
  cases v with
  | float x =>
    have hx : x.isFinite = false := by simpa [isNonFinite] using hv
    exact ⟨x, .float, Binary64.reread?_eq_none hx⟩
  | boolean b => cases hv
  | integer i => cases hv
  | string s => cases hv
  | list items => cases hv

/-- Where a value may be left out, it is refused only for brackets and for numbers inside it. -/
theorem isSome_rereadOptional?_iff (v : Value) (brackets : Nat) :
    (v.rereadOptional? brackets).isSome = true ↔ v.toJson.nesting ≤ brackets ∧
      (v.isNonFinite = false → ∀ x, v.Has x → x.reread?.isSome = true) := by
  rw [rereadOptional?]
  cases hv : v.isNonFinite with
  | true =>
    rw [if_pos rfl, toJson_of_isNonFinite hv]
    exact ⟨fun _ => ⟨Nat.zero_le _, fun h => (nomatch h)⟩, fun _ => rfl⟩
  | false =>
    rw [if_neg Bool.false_ne_true, Option.isSome_map, isSome_reread?_iff]
    exact and_congr_right fun _ => ⟨fun h _ => h, fun h => h rfl⟩

/-- Where a value may be left out, it comes back exactly when each of its numbers does. -/
theorem eq_iff_of_rereadOptional? {v : Value} {brackets : Nat} {o : Option Value}
    (h : v.rereadOptional? brackets = some o) :
    o = some v ↔ ∀ x, v.Has x → x.reread? = some x := by
  rw [rereadOptional?] at h
  cases hv : v.isNonFinite with
  | true =>
    rw [hv, if_pos rfl] at h
    obtain ⟨x, hx, hnone⟩ := not_has_of_isNonFinite hv
    constructor
    · intro ho
      rw [ho] at h
      cases h
    · intro hall
      have hsome := hall x hx
      rw [hnone] at hsome
      cases hsome
  | false =>
    rw [hv, if_neg Bool.false_ne_true] at h
    obtain ⟨w, hw, rfl⟩ := Option.map_eq_some_iff.mp h
    rw [Option.some_inj, eq_iff_of_reread? v hw]

/-- A finite number comes back exactly when its text is read as this number. -/
theorem ofText_text_iff {x : Binary64} (hx : x.isFinite = true) :
    ofText (x.text Json.numberLayout) = .ok (float x) ↔ x.reread? = some x := by
  have htext : x.text Json.numberLayout =
      String.ofList ((float x).toJson.write .compact 0 []) := by
    rw [toJson, if_pos hx, Json.write, List.append_nil, Binary64.text]
  rw [htext, ofText, complete_eq_ok_iff (reads_reader (float x) bracketLimit 0), reread?]
  simp

end RecordFilter.Value
