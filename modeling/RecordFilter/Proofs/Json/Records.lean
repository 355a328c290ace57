import RecordFilter.Proofs.Json.Shapes

/-!
# What a record makes of a document

A record is read from an object, whose members are told by their names, or from an array of its
members in their order.  The members are those of the parts of the record (`member`), and each part
changes the record so far: `f p record d` is the record behind the part `p` with the value `d`.

From an object, the record is the fold of these changes over the members as they stand
(`byName?`).  A name that was given before, also by an alias, ends it, and so does a name that is no
text; a member that is no part of the record changes nothing, whatever its value is.  From an array,
the parts are taken as far as the array goes (`byPlace?`).

* `takes_named`: what becomes of one member of an object.
* `takes_record`: an object or an array is read as this says, and anything else is refused.
-/

namespace RecordFilter.Json

open Reader
open Spelling (Blanks exactly)

variable {π σ : Type}

namespace Document

variable (member : π → Member σ) (f : π → σ → Document → Option σ)

/-! ## By name -/

/-- What a member of an object makes of a record, with the names given before it. -/
def named? (parts : List π) (state : σ × List String) (m : Option String × Document) :
    Option (σ × List String) :=
  m.1.bind fun name =>
    match parts.find? fun p => (member p).answersTo name with
    | none => some state
    | some p =>
      if state.2.contains (member p).name then none
      else (f p state.1 m.2).map fun record => (record, (member p).name :: state.2)

/-- The record can do without the parts that are not given. -/
def isComplete (parts : List π) (given : List String) : Bool :=
  parts.all fun p => !(member p).isRequired || given.contains (member p).name

/-- What the members of an object make of a record. -/
def byName? (parts : List π) (start : σ) (ms : List (Option String × Document)) : Option σ :=
  (ms.foldlM (named? member f parts) (start, [])).bind fun state =>
    if isComplete member parts state.2 then some state.1 else none

variable {member f}

theorem takes_named {parts : List π} (h : ∀ p ∈ parts, ∀ record (d : Document),
    Takes ((member p).read record) d.Spelled (f p record d)) (state : σ × List String)
    (m : Option String × Document) :
    Takes (named (parts.map member) state) (Spelling.member m.1 m.2.Spelled)
      (named? member f parts state m) := by
  intro s rest hs hrest
  obtain ⟨t, hname, u, hcolon, hvalue⟩ := hs
  refine (gives_key hname).bind fun name _ => ?_
  have hfind : (parts.map member).find? (·.answersTo name) =
      (parts.find? fun p => (member p).answersTo name).map member := List.find?_map ..
  rw [hfind]
  cases hpart : parts.find? fun p => (member p).answersTo name with
  | none =>
    simp only [Option.map_none]
    rw [read_bind_of_ok (read_mark (by decide) hcolon)]
    exact (takes_skip m.2 u rest hvalue hrest).map fun _ => state
  | some p =>
    simp only [Option.map_some]
    split
    · exact ⟨_, rfl⟩
    · rw [read_bind_of_ok (read_mark (by decide) hcolon)]
      exact (h p (List.mem_of_find?_eq_some hpart) state.1 m.2 u rest hvalue hrest).map _

theorem isComplete_iff {parts : List π} {given : List String} :
    isComplete member parts given = true ↔
      (parts.map member).find? (fun m => m.isRequired && !given.contains m.name) = none := by
  simp only [isComplete, List.all_eq_true, List.find?_eq_none, List.mem_map,
    forall_exists_index, and_imp, forall_apply_eq_imp_iff₂]
  refine forall_congr' fun p => imp_congr_right fun _ => ?_
  cases (member p).isRequired <;> cases given.contains (member p).name <;> simp

theorem takes_byName {parts : List π} (h : ∀ p ∈ parts, ∀ record (d : Document),
    Takes ((member p).read record) d.Spelled (f p record d)) (start : σ)
    (ms : List (Option String × Document)) :
    Takes (byName (parts.map member) start)
      (Spelling.inside '\x7d' (ms.map fun m => Spelling.member m.1 m.2.Spelled))
      (byName? member f parts start ms) := by
  intro s rest hs hrest
  have hfold := takes_foldItems (Or.inr rfl) (fun m _ state => takes_named h state m)
    (fun m => opens_member m.1 _) (start, []) s rest hs hrest
  refine hfold.bind fun state _ => ?_
  obtain ⟨record, given⟩ := state
  cases hfind : (parts.map member).find? fun m => m.isRequired && !given.contains m.name with
  | none =>
    simp only [hfind, if_pos (isComplete_iff.mpr hfind)]
    exact rfl
  | some m =>
    have hmissing : ¬ isComplete member parts given = true := by
      rw [isComplete_iff, hfind]
      exact Option.some_ne_none m
    simp only [hfind, if_neg hmissing]
    exact ⟨_, rfl⟩

/-! ## By place -/

variable (member f) in
/-- What the items of an array make of a record whose parts they are, in their order. -/
def byPlace? : List π → σ → List Document → Option σ
  | [], record, [] => some record
  | [], _, _ :: _ => none
  | p :: ps, record, [] => if isComplete member (p :: ps) [] then some record else none
  | p :: ps, record, d :: ds => (f p record d).bind fun record => byPlace? ps record ds

theorem firstRequired?_eq_none_iff {i : Nat} {ps : List π} :
    firstRequired? i (ps.map member) = none ↔ isComplete member ps [] = true := by
  induction ps generalizing i with
  | nil => simp [firstRequired?, isComplete]
  | cons p ps ih =>
    have hps := ih (i := i + 1)
    rw [isComplete] at hps
    rw [List.map_cons, firstRequired?, isComplete, List.all_cons]
    cases hp : (member p).isRequired with
    | true => simp
    | false => simpa using hps

/-- Where an array ends, the record has to do without the parts that are left. -/
theorem gives_byPlace_close (expected : String) (i : Nat) (parts : List π) (record : σ)
    {s rest : List Char} (hs : Spelling.mark ']' s rest) :
    Gives ((byPlace expected i record (parts.map member)).read s)
      (byPlace? member f parts record []) rest := by
  cases parts with
  | nil => exact read_map_of_ok (read_mark (by decide) hs) _
  | cons p ps =>
    rw [List.map_cons, byPlace, read_onNext_of_blanks (blanks_of_mark hs) (by decide), if_pos rfl,
      byPlace?, ← List.map_cons]
    cases hrequired : firstRequired? i ((p :: ps).map member) with
    | none =>
      rw [if_pos (firstRequired?_eq_none_iff.mp hrequired)]
      exact read_map_of_ok (read_next_cons _ _) _
    | some k =>
      have hmissing : ¬ isComplete member (p :: ps) [] = true := by
        rw [← firstRequired?_eq_none_iff (i := i), hrequired]
        exact Option.some_ne_none k
      rw [if_neg hmissing]
      exact ⟨_, rfl⟩

/-- An array goes on, but the record has no members left. -/
theorem exists_byPlace_nil (expected : String) (i : Nat) (record : σ) {c : Char}
    (hc : isBlank c = false) (hclose : c ≠ ']') {s t : List Char} (hs : Blanks s (c :: t)) :
    ∃ e, (byPlace expected i record []).read s = .error e := by
  obtain ⟨e, he⟩ := exists_read_mark_error hc hclose hs
  exact ⟨e, by rw [byPlace, read_map, he]⟩

theorem takes_byPlace_behind (expected : String) {parts : List π}
    (h : ∀ p ∈ parts, ∀ record (d : Document),
      Takes ((member p).read record) d.Spelled (f p record d))
    {i : Nat} (hi : i ≠ 0) (record : σ) (ds : List Document) :
    Takes (byPlace expected i record (parts.map member)) (Spelling.behind ']' (ds.map Spelled))
      (byPlace? member f parts record ds) := by
  induction ds generalizing parts i record with
  | nil => exact fun s rest hs _ => gives_byPlace_close expected i parts record hs
  | cons d ds ih =>
    intro s rest hs hrest
    obtain ⟨t, hcomma, u, hd, hds⟩ := hs
    cases parts with
    | nil =>
      exact exists_byPlace_nil expected i record (by decide) (by decide) (blanks_of_mark hcomma)
    | cons p ps =>
      rw [List.forall_mem_cons] at h
      rw [List.map_cons, byPlace, read_onNext_of_blanks (blanks_of_mark hcomma) (by decide),
        if_neg (by decide), if_pos hi, read_bind_of_ok (read_symbol_cons _ _)]
      refine (h.1 record d t u hd (delimits_of_behind (Or.inl rfl) hds)).bind fun record' _ => ?_
      exact ih h.2 (Nat.succ_ne_zero i) record' u rest hds hrest

/-- The items of an array are taken by their places. -/
theorem takes_byPlace (expected : String) {parts : List π}
    (h : ∀ p ∈ parts, ∀ record (d : Document),
      Takes ((member p).read record) d.Spelled (f p record d)) (record : σ) (ds : List Document) :
    Takes (byPlace expected 0 record (parts.map member)) (Spelling.inside ']' (ds.map Spelled))
      (byPlace? member f parts record ds) := by
  intro s rest hs hrest
  cases ds with
  | nil => exact gives_byPlace_close expected 0 parts record hs
  | cons d ds =>
    obtain ⟨u, hd, hds⟩ := hs
    obtain ⟨c, t, hblanks, hc, hsquare, -, ht⟩ := opens_spelled d s u hd
    cases parts with
    | nil => exact exists_byPlace_nil expected 0 record hc hsquare hblanks
    | cons p ps =>
      rw [List.forall_mem_cons] at h
      rw [List.map_cons, byPlace, read_onNext_of_blanks hblanks hc, if_neg hsquare,
        if_neg (by simp)]
      refine (h.1 record d _ u ht (delimits_of_behind (Or.inl rfl) hds)).bind fun record' _ => ?_
      exact takes_byPlace_behind expected h.2 (Nat.succ_ne_zero 0) record' ds u rest hds hrest

/-! ## Records -/

variable (member f) in
/-- What a document makes of a record: an object by the names of its members, and an array by their
places. -/
def record? (parts : List π) (start : σ) : Document → Option σ
  | object ms => byName? member f parts start ms
  | array ds => byPlace? member f parts start ds
  | _ => none

/-- A record is read from an object or an array, and nothing else. -/
theorem takes_record {parts : List π} (h : ∀ p ∈ parts, ∀ record (d : Document),
    Takes ((member p).read record) d.Spelled (f p record d))
    (name : String) (start : σ) (d : Document) :
    Takes (record name start (some (parts.map member))) d.Spelled
      (d.record? member f parts start) := by
  have hd : d.first?.bind (Token.bracketOr (d.record? member f parts start) fun _ => none) =
      d.record? member f parts start := by
    cases d with
    | number n => exact bind_token?_eq_none (fun _ => rfl) (fun _ => rfl) n
    | string text => cases text <;> rfl
    | _ => rfl
  rw [← hd]
  refine takes_token_bind fun t ht => ?_
  cases t with
  | array =>
    obtain ⟨ds, rfl⟩ := eq_array_of_first? ht
    exact takes_byPlace _ h start ds
  | object =>
    obtain ⟨ms, rfl⟩ := eq_object_of_first? ht
    exact takes_byName h start ms
  | _ => exact takes_mismatched _ _

/-- A record is refused where no bracket may open. -/
theorem takes_record_none (name : String) (start : σ) (d : Document) :
    Takes (record name start none) d.Spelled none := by
  have hd : (d.first?.bind fun _ => (none : Option σ)) = none := by
    cases d.first? <;> rfl
  rw [← hd]
  refine takes_token_bind fun t _ => ?_
  cases t with
  | array => exact takes_fail _ _
  | object => exact takes_fail _ _
  | _ => exact takes_mismatched _ _

end Document

end RecordFilter.Json
