import RecordFilter.Criterion.Json
import RecordFilter.Proofs.Json.Records
import RecordFilter.Proofs.Value.Document

/-!
# The parts of a criterion

A criterion has five parts.  An object gives each of them under a name of its own, and the children
under either of two; a part that is not given has a default.  What an object gives for a part is the
list of the values that stand under one of its names (`given`), and the object stands for a
criterion exactly when this list is empty or a single value that can be made into the part, for each
part at once (`ofGiven?_eq_some_iff`).

The parts do not depend on each other, so neither the order of the members nor a member that names
no part matters.
-/

namespace RecordFilter.Criterion

open Json (Document Reader Takes)
open Json.Reader (Member)

/-! ## Parts -/

/-- The parts of a criterion. -/
inductive Part where
  | property
  | comparison
  | value
  | connective
  | children
  deriving DecidableEq

namespace Part

/-- All parts, in their order in an array. -/
def all : List Part := [property, comparison, value, connective, children]

/-- The place of a part in an array. -/
def place : Part → Nat
  | property => 0
  | comparison => 1
  | value => 2
  | connective => 3
  | children => 4

/-- The name of a part. -/
def name : Part → String
  | property => "propertyName"
  | comparison => "operator"
  | value => "value"
  | connective => "logicalOperator"
  | children => "children"

/-- The other names of a part. -/
def aliases : Part → List String
  | children => ["nestedFilters"]
  | _ => []

/-- The names under which a part may be given. -/
def names (p : Part) : List String := p.name :: p.aliases

/-- What a criterion has for a part. -/
def Content : Part → Type
  | property => String
  | comparison => Comparison
  | value => Option Value
  | connective => Connective
  | children => Option (List Criterion)

/-- What a criterion has for a part that is not given. -/
def absent : (p : Part) → p.Content
  | property => ""
  | comparison => Comparison.equals
  | value => none
  | connective => Connective.and
  | children => none

end Part

/-- What the criterion has for a part. -/
def get (c : Criterion) : (p : Part) → p.Content
  | .property => c.property
  | .comparison => c.comparison
  | .value => c.value
  | .connective => c.connective
  | .children => c.children

/-- The criterion with something else for a part. -/
def set (c : Criterion) : (p : Part) → p.Content → Criterion
  | .property, property => { c with property }
  | .comparison, comparison => { c with comparison }
  | .value, value => { c with value }
  | .connective, connective => { c with connective }
  | .children, children => { c with children }

theorem get_set_self (c : Criterion) (p : Part) (x : p.Content) : (c.set p x).get p = x := by
  cases p <;> rfl

theorem get_set_of_ne (c : Criterion) {p q : Part} (h : p ≠ q) (x : q.Content) :
    (c.set q x).get p = c.get p := by
  cases q with
  | property =>
    cases p with
    | property => exact absurd rfl h
    | _ => rfl
  | comparison =>
    cases p with
    | comparison => exact absurd rfl h
    | _ => rfl
  | value =>
    cases p with
    | value => exact absurd rfl h
    | _ => rfl
  | connective =>
    cases p with
    | connective => exact absurd rfl h
    | _ => rfl
  | children =>
    cases p with
    | children => exact absurd rfl h
    | _ => rfl

theorem get_default (p : Part) : ({} : Criterion).get p = p.absent := by
  cases p <;> rfl

/-- A criterion is what it has for its parts. -/
theorem eq_of_get {c d : Criterion} (h : ∀ p, c.get p = d.get p) : c = d := by
  obtain ⟨property, comparison, value, connective, children⟩ := c
  obtain ⟨property', comparison', value', connective', children'⟩ := d
  obtain rfl : property = property' := h .property
  obtain rfl : comparison = comparison' := h .comparison
  obtain rfl : value = value' := h .value
  obtain rfl : connective = connective' := h .connective
  obtain rfl : children = children' := h .children
  rfl

namespace Part

theorem mem_all (p : Part) : p ∈ all := by
  cases p <;> decide

/-- No name is that of two parts. -/
theorem eq_of_mem_names {p q : Part} {name : String} (hp : name ∈ p.names)
    (hq : name ∈ q.names) : p = q := by
  have h : ∀ p ∈ all, ∀ q ∈ all, ∀ name ∈ p.names, name ∈ q.names → p = q := by decide
  exact h p p.mem_all q q.mem_all name hp hq

theorem name_ne {p q : Part} (h : p ≠ q) : p.name ≠ q.name := by
  intro hname
  exact h (eq_of_mem_names List.mem_cons_self (hname ▸ List.mem_cons_self))

end Part

/-! ## What a document gives -/

/-- The values that an object gives for a part. -/
def given (ms : List (Option String × Document)) (p : Part) : List Document :=
  (ms.filter fun m => m.1.any (p.names.contains ·)).map Prod.snd

/-- A way of making the contents of the parts of a criterion from documents. -/
abbrev Decoding := (p : Part) → Document → Option p.Content

variable (decode : Decoding)

/-- What a criterion has for a part for which the given values are all that there is. -/
def one? (p : Part) : List Document → Option p.Content
  | [] => some p.absent
  | [d] => decode p d
  | _ => none

/-- The criterion for whose parts the given values are all that there is. -/
def ofGiven? (given : Part → List Document) : Option Criterion := do
  let property ← one? decode .property (given .property)
  let comparison ← one? decode .comparison (given .comparison)
  let value ← one? decode .value (given .value)
  let connective ← one? decode .connective (given .connective)
  let children ← one? decode .children (given .children)
  return ⟨property, comparison, value, connective, children⟩

/-- The criterion of an object or an array whose parts are made in the given way.  The name of each
member of an object has to be a text. -/
def ofParts? : Document → Option Criterion
  | .object ms => if ms.all (·.1.isSome) then ofGiven? decode (given ms) else none
  | .array ds =>
    if ds.length ≤ Part.all.length then ofGiven? decode fun p => ds[p.place]?.toList else none
  | _ => none

variable {decode}

theorem ofGiven?_eq_some_iff {given : Part → List Document} {c : Criterion} :
    ofGiven? decode given = some c ↔ ∀ p, one? decode p (given p) = some (c.get p) := by
  simp only [ofGiven?, Option.bind_eq_bind, Option.bind_eq_some_iff]
  constructor
  · rintro ⟨property, hproperty, comparison, hcomparison, value, hvalue, connective, hconnective,
      children, hchildren, h⟩
    cases h
    intro p
    cases p <;> assumption
  · intro h
    obtain ⟨property, comparison, value, connective, children⟩ := c
    exact ⟨_, h .property, _, h .comparison, _, h .value, _, h .connective, _, h .children, rfl⟩

theorem one?_eq_some_iff {p : Part} {ds : List Document} {x : p.Content} :
    one? decode p ds = some x ↔ ds = [] ∧ x = p.absent ∨ ∃ d, ds = [d] ∧ decode p d = some x := by
  match ds with
  | [] => simp [one?, eq_comm]
  | [d] => simp [one?]
  | d :: d' :: ds => simp [one?]

/-! ## From the members of an object -/

section Members

variable {brackets : Nat} {children : Reader (List Criterion)}

/-- Reads the content of a part with the given number of brackets. -/
def Part.reader (brackets : Nat) (children : Reader (List Criterion)) :
    (p : Part) → Reader p.Content
  | .property => Json.Reader.string
  | .comparison => Json.Reader.choice Comparison.words (brackets ≠ 0)
  | .value => Json.Reader.nullable (Value.reader brackets)
  | .connective => Json.Reader.choice Connective.words (brackets ≠ 0)
  | .children => Json.Reader.nullable children

/-- The member of the record that holds a part. -/
def Part.member (brackets : Nat) (children : Reader (List Criterion)) (p : Part) :
    Member Criterion :=
  ⟨p.name, p.aliases, false, fun c => c.set p <$> p.reader brackets children⟩

theorem jsonMembers_eq (brackets : Nat) (children : Reader (List Criterion)) :
    jsonMembers brackets children = Part.all.map (Part.member brackets children) := rfl

theorem answersTo_member_iff {p : Part} {name : String} :
    (p.member brackets children).answersTo name = true ↔ name ∈ p.names := by
  rw [Member.answersTo, Bool.or_eq_true, beq_iff_eq, List.contains_iff_mem]
  exact ⟨fun h => List.mem_cons.mpr (h.imp_left Eq.symm), fun h =>
    (List.mem_cons.mp h).imp_left Eq.symm⟩

/-- The part of a name is found if there is one. -/
theorem find?_member_eq_some_iff {p : Part} {name : String} :
    (Part.all.find? fun q => (q.member brackets children).answersTo name) = some p ↔
      name ∈ p.names := by
  constructor
  · intro h
    have hp := List.find?_some h
    exact answersTo_member_iff.mp hp
  · intro h
    cases hfind : Part.all.find? fun q => (q.member brackets children).answersTo name with
    | none => exact absurd (answersTo_member_iff.mpr h) (List.find?_eq_none.mp hfind p p.mem_all)
    | some q =>
      have hq := List.find?_some hfind
      rw [Part.eq_of_mem_names h (answersTo_member_iff.mp hq)]

theorem find?_member_eq_none_iff {name : String} :
    (Part.all.find? fun q => (q.member brackets children).answersTo name) = none ↔
      ∀ p : Part, name ∉ p.names := by
  rw [List.find?_eq_none]
  exact ⟨fun h p hp => h p p.mem_all (answersTo_member_iff.mpr hp),
    fun h p _ hp => h p (answersTo_member_iff.mp hp)⟩

theorem given_cons_of_mem {p : Part} {name : String} (h : name ∈ p.names) (d : Document)
    (ms : List (Option String × Document)) : given ((some name, d) :: ms) p = d :: given ms p := by
  rw [given, List.filter_cons_of_pos (by simpa using h), List.map_cons, given]

theorem given_cons_of_not_mem {p : Part} {name : String} (h : name ∉ p.names) (d : Document)
    (ms : List (Option String × Document)) : given ((some name, d) :: ms) p = given ms p := by
  rw [given, List.filter_cons_of_neg (by simpa using h), given]

variable (decode brackets children) in
/-- What a member of an object does to the criterion so far. -/
def step : Criterion × List String → Option String × Document → Option (Criterion × List String) :=
  Document.named? (Part.member brackets children) (fun p c d => (decode p d).map (c.set p)) Part.all

/-- The member of a part sets this part, unless it was given before. -/
theorem step_of_mem {q : Part} {name : String} (h : name ∈ q.names) (c : Criterion)
    (names : List String) (d : Document) :
    step decode brackets children (c, names) (some name, d) =
      if q.name ∈ names then none
      else (decode q d).map fun x => (c.set q x, q.name :: names) := by
  simp only [step, Document.named?, Option.bind_some, find?_member_eq_some_iff.mpr h,
    List.contains_iff_mem, Option.map_map]
  rfl

/-- A member that is of no part does nothing. -/
theorem step_of_not_mem {name : String} (h : ∀ p : Part, name ∉ p.names)
    (state : Criterion × List String) (d : Document) :
    step decode brackets children state (some name, d) = some state := by
  simp only [step, Document.named?, Option.bind_some, find?_member_eq_none_iff.mpr h]

/-- The given values leave this in a part of a criterion, with the names of the parts that were
given before. -/
def Leaves (decode : Decoding) (c : Criterion) (names : List String) (ds : List Document) (p : Part)
    (x : p.Content) : Prop :=
  ds = [] ∧ x = c.get p ∨ ∃ d, ds = [d] ∧ p.name ∉ names ∧ decode p d = some x

/-- Of a criterion without anything, the given values leave what they are made into. -/
theorem leaves_default_iff {p : Part} {ds : List Document} {x : p.Content} :
    Leaves decode {} [] ds p x ↔ one? decode p ds = some x := by
  rw [one?_eq_some_iff, Leaves, get_default]
  simp

/-- Where nothing is given, everything is left as it is. -/
theorem forall_leaves_nil_iff {c c' : Criterion} {names : List String} :
    (∀ p, Leaves decode c names [] p (c'.get p)) ↔ c = c' := by
  constructor
  · intro h
    refine eq_of_get fun p => ?_
    rcases h p with ⟨-, hp⟩ | ⟨d, hd, -⟩
    · exact hp.symm
    · cases hd
  · rintro rfl p
    exact Or.inl ⟨rfl, rfl⟩

/-- The first value that is given for a part sets it, and has to be the last. -/
theorem leaves_cons_iff {c : Criterion} {names : List String} {d : Document} {ds : List Document}
    {q : Part} {y : q.Content} :
    Leaves decode c names (d :: ds) q y ↔ q.name ∉ names ∧
      ∃ x, decode q d = some x ∧ Leaves decode (c.set q x) (q.name :: names) ds q y := by
  constructor
  · rintro (⟨h, -⟩ | ⟨d', h, hnames, hy⟩)
    · cases h
    · cases h
      exact ⟨hnames, y, hy, Or.inl ⟨rfl, (get_set_self c q y).symm⟩⟩
  · rintro ⟨hnames, x, hx, ⟨rfl, hy⟩ | ⟨d', -, hnot, -⟩⟩
    · rw [get_set_self] at hy
      rw [hy]
      exact Or.inr ⟨d, rfl, hnames, hx⟩
    · exact absurd List.mem_cons_self hnot

/-- Setting one part changes nothing in what is left in another. -/
theorem leaves_set_iff {p q : Part} (h : p ≠ q) {c : Criterion} {names : List String}
    {ds : List Document} {x : q.Content} {y : p.Content} :
    Leaves decode (c.set q x) (q.name :: names) ds p y ↔ Leaves decode c names ds p y := by
  have hname : p.name ∉ q.name :: names ↔ p.name ∉ names := by
    rw [List.mem_cons, not_or]
    exact and_iff_right (Part.name_ne h)
  rw [Leaves, Leaves, get_set_of_ne c h, hname]

/-- The first value that is given for one part sets this part, and what is given for the others is
left to be looked at. -/
theorem forall_leaves_iff {given given' : Part → List Document} {q : Part} {d : Document}
    (hself : given q = d :: given' q) (hother : ∀ p, p ≠ q → given p = given' p)
    {c c' : Criterion} {names : List String} :
    (∀ p, Leaves decode c names (given p) p (c'.get p)) ↔ q.name ∉ names ∧
      ∃ x, decode q d = some x ∧
        ∀ p, Leaves decode (c.set q x) (q.name :: names) (given' p) p (c'.get p) := by
  constructor
  · intro h
    have hq := h q
    rw [hself, leaves_cons_iff] at hq
    obtain ⟨hnames, x, hx, hleaves⟩ := hq
    refine ⟨hnames, x, hx, fun p => ?_⟩
    by_cases hp : p = q
    · rw [hp]
      exact hleaves
    · rw [leaves_set_iff hp, ← hother p hp]
      exact h p
  · rintro ⟨hnames, x, hx, h⟩ p
    by_cases hp : p = q
    · rw [hp, hself, leaves_cons_iff]
      exact ⟨hnames, x, hx, h q⟩
    · rw [hother p hp, ← leaves_set_iff hp]
      exact h p

/-- The fold over the members of an object takes every part from its only value, and leaves a part
without a value as it is. -/
theorem foldlM_step_eq_some_iff {ms : List (Option String × Document)} {c c' : Criterion}
    {names : List String} :
    (∃ names', ms.foldlM (step decode brackets children) (c, names) = some (c', names')) ↔
      (∀ m ∈ ms, m.1 ≠ none) ∧ ∀ p, Leaves decode c names (given ms p) p (c'.get p) := by
  induction ms generalizing c names with
  | nil =>
    have hgiven : (∀ p, Leaves decode c names (given [] p) p (c'.get p)) ↔ c = c' :=
      forall_leaves_nil_iff
    rw [hgiven]
    simp
  | cons m ms ih =>
    obtain ⟨name, d⟩ := m
    rw [List.foldlM_cons, List.forall_mem_cons]
    cases name with
    | none =>
      constructor
      · rintro ⟨names', h⟩
        cases h
      · rintro ⟨⟨hname, -⟩, -⟩
        exact absurd rfl hname
    | some name =>
      rw [and_iff_right (show some name ≠ none by simp)]
      by_cases hpart : ∃ q : Part, name ∈ q.names
      · obtain ⟨q, hq⟩ := hpart
        have hother : ∀ p, p ≠ q → given ((some name, d) :: ms) p = given ms p := fun p hp =>
          given_cons_of_not_mem (fun hname => hp (Part.eq_of_mem_names hname hq)) d ms
        rw [forall_leaves_iff (given_cons_of_mem hq d ms) hother, step_of_mem hq]
        by_cases hnames : q.name ∈ names
        · simp [hnames]
        · cases hx : decode q d with
          | none => simp [hnames]
          | some x =>
            simp only [if_neg hnames, Option.map_some, Option.bind_eq_bind, Option.bind_some, ih]
            simp [hnames]
      · have hnone : ∀ p : Part, name ∉ p.names := fun p hp => hpart ⟨p, hp⟩
        have hgiven : ∀ p, given ((some name, d) :: ms) p = given ms p := fun p =>
          given_cons_of_not_mem (hnone p) d ms
        simp only [hgiven, step_of_not_mem hnone, Option.bind_eq_bind, Option.bind_some, ih]

/-- No part of a criterion is required. -/
theorem isComplete_parts (names : List String) (ps : List Part) :
    Document.isComplete (Part.member brackets children) ps names = true :=
  List.all_eq_true.mpr fun _ _ => rfl

/-- What the members of an object make of a criterion is what they give for its parts. -/
theorem byName?_eq (ms : List (Option String × Document)) :
    Document.byName? (Part.member brackets children) (fun p c d => (decode p d).map (c.set p))
      Part.all {} ms = if ms.all (·.1.isSome) then ofGiven? decode (given ms) else none := by
  refine Option.ext fun c => ?_
  have hall : (∀ m ∈ ms, m.1 ≠ none) ↔ ms.all (·.1.isSome) = true := by
    simp [Option.isSome_iff_ne_none]
  have hbyName : Document.byName? (Part.member brackets children)
      (fun p c d => (decode p d).map (c.set p)) Part.all {} ms = some c ↔
        ∃ names, ms.foldlM (step decode brackets children) ({}, []) = some (c, names) := by
    rw [Document.byName?, Option.bind_eq_some_iff]
    constructor
    · rintro ⟨⟨c', names⟩, hfold, hc⟩
      rw [if_pos (isComplete_parts names _)] at hc
      cases hc
      exact ⟨names, hfold⟩
    · rintro ⟨names, hfold⟩
      exact ⟨(c, names), hfold, if_pos (isComplete_parts names _)⟩
  rw [hbyName, foldlM_step_eq_some_iff, hall, Option.ite_none_right_eq_some, ofGiven?_eq_some_iff]
  exact and_congr_right fun _ => forall_congr' fun p => leaves_default_iff

/-- The value in the place of a part sets it, and a part without a place is left as it is. -/
theorem byPlace?_eq_some_iff {ps : List Part} (hps : ps.Nodup) {c c' : Criterion}
    {names : List String} (hnames : ∀ p ∈ ps, p.name ∉ names) {ds : List Document} :
    Document.byPlace? (Part.member brackets children) (fun p c d => (decode p d).map (c.set p)) ps c
        ds = some c' ↔
      ds.length ≤ ps.length ∧ ∀ p, Leaves decode c names ds[ps.idxOf p]?.toList p (c'.get p) := by
  induction ps generalizing c names ds with
  | nil =>
    cases ds with
    | nil =>
      simp only [List.getElem?_nil, Option.toList_none, forall_leaves_nil_iff]
      simp [Document.byPlace?]
    | cons d ds => simp [Document.byPlace?]
  | cons q ps ih =>
    rw [List.nodup_cons] at hps
    rw [List.forall_mem_cons] at hnames
    cases ds with
    | nil =>
      simp only [List.getElem?_nil, Option.toList_none, forall_leaves_nil_iff]
      simp [Document.byPlace?, isComplete_parts]
    | cons d ds =>
      have hnext : ∀ x : q.Content, ∀ p ∈ ps, p.name ∉ q.name :: names := by
        intro _ p hp
        rw [List.mem_cons, not_or]
        exact ⟨Part.name_ne fun h => hps.1 (h ▸ hp), hnames.2 p hp⟩
      have hother : ∀ p, p ≠ q →
          (d :: ds)[(q :: ps).idxOf p]?.toList = ds[ps.idxOf p]?.toList := by
        intro p hp
        rw [List.idxOf_cons, beq_false_of_ne (Ne.symm hp), cond_false, List.getElem?_cons_succ]
      have hself : ds.length ≤ ps.length →
          (d :: ds)[(q :: ps).idxOf q]?.toList = d :: ds[ps.idxOf q]?.toList := by
        intro hlength
        rw [List.idxOf_cons_self, List.idxOf_eq_length hps.1, List.getElem?_eq_none hlength]
        rfl
      have hplace : Document.byPlace? (Part.member brackets children)
          (fun p c d => (decode p d).map (c.set p)) (q :: ps) c (d :: ds) = some c' ↔
            ∃ x, decode q d = some x ∧ ds.length ≤ ps.length ∧
              ∀ p, Leaves decode (c.set q x) (q.name :: names) ds[ps.idxOf p]?.toList p
                (c'.get p) := by
        rw [Document.byPlace?]
        cases hx : decode q d with
        | none => simp
        | some x => simp [ih hps.2 (hnext x)]
      rw [hplace, List.length_cons, List.length_cons, Nat.add_le_add_iff_right]
      by_cases hlength : ds.length ≤ ps.length
      · rw [forall_leaves_iff (hself hlength) hother]
        simp [hlength, hnames.1]
      · simp [hlength]

/-- What the items of an array make of a criterion is what stands in their places. -/
theorem byPlace?_eq (ds : List Document) :
    Document.byPlace? (Part.member brackets children) (fun p c d => (decode p d).map (c.set p))
      Part.all {} ds =
        if ds.length ≤ Part.all.length then ofGiven? decode fun p => ds[p.place]?.toList
        else none := by
  refine Option.ext fun c => ?_
  have hplace : ∀ p : Part, Part.all.idxOf p = p.place := by
    intro p
    cases p <;> rfl
  rw [byPlace?_eq_some_iff (by decide) (fun p _ => List.not_mem_nil) (c := {}),
    Option.ite_none_right_eq_some, ofGiven?_eq_some_iff]
  simp only [hplace]
  exact and_congr_right fun _ => forall_congr' fun p => leaves_default_iff

end Members

end RecordFilter.Criterion
