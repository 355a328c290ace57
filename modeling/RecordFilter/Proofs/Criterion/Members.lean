import RecordFilter.Proofs.Criterion.Parts
import RecordFilter.Proofs.Json.Written

/-!
# Reading a criterion by its members

A criterion is read from an object by what the object gives for each of its parts.  A part may be
given once, under any of its names; its value has to be one that the part can be made of, and null
is one for the value and the children.  What is not given has its default.  A name that is no part's
may stand any number of times, and what stands under it has to keep to the grammar only.

Children are read in the same way one bracket deeper, and what is said here holds for any number of
brackets that may be open, so it holds at every depth of a filter.

* `takes_reader`, `takes_listReader`: criteria and lists of them are read from every spelling of a
  document, as `ofDocument?` and `listOfDocument?` say.
* `toOption_listOfText`, `listOfText_eq_ok_iff_of_isSpelledBy`: the same of the text of a filter.
* `reader_object`: when an object is read as a criterion, and as which one.
-/

namespace RecordFilter.Criterion

open Json (Document Reader Takes Delimits)

/-! ## Criteria of documents -/

/-- How parts are made of documents in which at most the given number of brackets are open at once,
with the given way of making children. -/
def decoding (brackets : Nat) (children : Document → Option (List Criterion)) : Decoding
  | .property, d => d.string?
  | .comparison, d => d.choice? Comparison.words (brackets ≠ 0)
  | .value, d => d.nullable? (Document.valueWithin? brackets)
  | .connective, d => d.choice? Connective.words (brackets ≠ 0)
  | .children, d => d.nullable? children

mutual

/-- The criterion of a document in which at most the given number of brackets are open at once. -/
def ofDocument? : Nat → Document → Option Criterion
  | 0, _ => none
  | n + 1, d => ofParts? (decoding n (listOfDocument? n)) d

/-- The criteria of a document in which at most the given number of brackets are open at once. -/
def listOfDocument? : Nat → Document → Option (List Criterion)
  | 0, _ => none
  | n + 1, d => d.list? (ofDocument? n)

end

/-- The content of a part that is made of a document inside a criterion. -/
def content? (brackets : Nat) (p : Part) (d : Document) : Option p.Content :=
  decoding brackets (listOfDocument? brackets) p d

theorem takes_part {brackets : Nat} {children : Reader (List Criterion)}
    {f : Document → Option (List Criterion)} (h : ∀ d : Document, Takes children d.Spelled (f d))
    (p : Part) (d : Document) :
    Takes (p.reader brackets children) d.Spelled (decoding brackets f p d) := by
  cases p with
  | property => exact Document.takes_string d
  | comparison => exact Document.takes_choice Comparison.words _ d
  | value => exact Document.takes_nullable (Document.takes_reader brackets d)
  | connective => exact Document.takes_choice Connective.words _ d
  | children => exact Document.takes_nullable (h d)

/-- What a record with the parts of a criterion makes of a document. -/
theorem record?_eq (brackets : Nat) (children : Reader (List Criterion)) (decode : Decoding)
    (d : Document) :
    d.record? (Part.member brackets children) (fun p c d => (decode p d).map (c.set p))
      Part.all {} = ofParts? decode d := by
  cases d with
  | object ms => exact byName?_eq ms
  | array ds => exact byPlace?_eq ds
  | _ => rfl

mutual

/-- A criterion is read from any spelling of a document. -/
theorem takes_reader : ∀ (n : Nat) (d : Document), Takes (reader n) d.Spelled (ofDocument? n d)
  | 0, d => by
    rw [reader, ofDocument?]
    exact Document.takes_record_none "FilterNode" ({} : Criterion) d
  | n + 1, d => by
    rw [reader, ofDocument?, jsonMembers_eq, ← record?_eq n (listReader n)]
    have hpart : ∀ p ∈ Part.all, ∀ (c : Criterion) (d : Document),
        Takes ((p.member n (listReader n)).read c) d.Spelled
          ((decoding n (listOfDocument? n) p d).map (c.set p)) :=
      fun p _ c d => (takes_part (takes_listReader n) p d).map (c.set p)
    exact Document.takes_record hpart "FilterNode" {} d

/-- A list of criteria is read from any spelling of a document. -/
theorem takes_listReader : ∀ (n : Nat) (d : Document),
    Takes (listReader n) d.Spelled (listOfDocument? n d)
  | 0, d => by
    rw [listReader, listOfDocument?]
    exact Document.takes_list_none d
  | n + 1, d => by
    rw [listReader, listOfDocument?]
    exact Document.takes_list (takes_reader n) d

end

/-- The text of a filter is read as the criteria of its document. -/
theorem toOption_listOfText {d : Document} {s : String} (hs : d.IsSpelledBy s) :
    (listOfText s).toOption = listOfDocument? Json.Reader.bracketLimit d :=
  Json.toOption_complete (takes_listReader Json.Reader.bracketLimit d) hs

theorem listOfText_eq_ok_iff_of_isSpelledBy {d : Document} {s : String} (hs : d.IsSpelledBy s)
    {filter : List Criterion} :
    listOfText s = .ok filter ↔ listOfDocument? Json.Reader.bracketLimit d = some filter := by
  rw [← toOption_listOfText hs]
  refine ⟨fun h => ?_, Json.Reader.eq_ok_of_toOption⟩
  rw [h]
  rfl

/-! ## Criteria of objects -/

/-- The members of an object stand for a criterion. -/
structure StandFor (brackets : Nat) (ms : List (Option String × Document)) : Prop where
  /-- The name of each member is a text. -/
  names : ∀ m ∈ ms, m.1 ≠ none
  /-- No two members are of the same part. -/
  once : ∀ p, (given ms p).length ≤ 1
  /-- What is given for a part can be made into it. -/
  contents : ∀ p, ∀ d ∈ given ms p, content? brackets p d ≠ none

/-- The member is of a part of a criterion. -/
def isKnown (m : Option String × Document) : Bool :=
  m.1.any fun name => Part.all.any (·.names.contains name)

theorem one?_ne_none_iff {decode : Decoding} {p : Part} {ds : List Document} :
    (∃ x, one? decode p ds = some x) ↔ ds.length ≤ 1 ∧ ∀ d ∈ ds, decode p d ≠ none := by
  cases ds with
  | nil => simp [one?]
  | cons d ds =>
    cases ds with
    | nil => simp [one?, Option.ne_none_iff_exists']
    | cons d' ds => simp [one?]

/-- An object is made into a criterion when its members stand for one. -/
theorem exists_ofDocument?_object_iff {n : Nat} {ms : List (Option String × Document)} :
    (∃ c, ofDocument? (n + 1) (.object ms) = some c) ↔ StandFor n ms := by
  have hnames : ms.all (·.1.isSome) = true ↔ ∀ m ∈ ms, m.1 ≠ none := by
    simp [Option.isSome_iff_ne_none]
  simp only [ofDocument?, ofParts?, Option.ite_none_right_eq_some, ofGiven?_eq_some_iff, hnames]
  constructor
  · rintro ⟨c, hms, h⟩
    have hone : ∀ p, _ := fun p => one?_ne_none_iff.mp ⟨_, h p⟩
    exact ⟨hms, fun p => (hone p).1, fun p => (hone p).2⟩
  · rintro ⟨hms, honce, hcontents⟩
    choose x hx using fun p => one?_ne_none_iff.mpr ⟨honce p, hcontents p⟩
    refine ⟨⟨x .property, x .comparison, x .value, x .connective, x .children⟩, hms, fun p => ?_⟩
    cases p <;> exact hx _

/-- What a criterion made of an object has for a part. -/
theorem get_of_ofDocument?_object {n : Nat} {ms : List (Option String × Document)} {c : Criterion}
    (h : ofDocument? (n + 1) (.object ms) = some c) (p : Part) :
    given ms p = [] ∧ c.get p = p.absent ∨
      ∃ d, given ms p = [d] ∧ content? n p d = some (c.get p) := by
  rw [ofDocument?, ofParts?, Option.ite_none_right_eq_some, ofGiven?_eq_some_iff] at h
  exact one?_eq_some_iff.mp (h.2 p)

/-- Null is made into nothing, where it is made into anything. -/
theorem content?_null {n : Nat} {p : Part} {x : p.Content} (h : content? n p .null = some x) :
    x = p.absent := by
  cases p <;> cases h <;> rfl

/-! ## Order -/

/-- Only known members are given for a part. -/
theorem given_filter_isKnown (ms : List (Option String × Document)) (p : Part) :
    given (ms.filter isKnown) p = given ms p := by
  have hknown : ∀ m : Option String × Document,
      (m.1.any (p.names.contains ·) && isKnown m) = m.1.any (p.names.contains ·) := by
    rintro ⟨_ | name, d⟩
    · rfl
    · cases h : (some name).any (p.names.contains ·) with
      | false => rfl
      | true => exact List.any_eq_true.mpr ⟨p, p.mem_all, h⟩
  rw [given, given, List.filter_filter]
  simp only [hknown]

theorem given_perm {ms ms' : List (Option String × Document)}
    (h : (ms.filter isKnown).Perm (ms'.filter isKnown)) (p : Part) :
    (given ms p).Perm (given ms' p) := by
  rw [← given_filter_isKnown ms, ← given_filter_isKnown ms']
  exact (h.filter _).map _

/-- A part is made of its only value, so the order of several does not matter. -/
theorem one?_eq_of_perm (decode : Decoding) (p : Part) {ds ds' : List Document} (h : ds.Perm ds') :
    one? decode p ds = one? decode p ds' := by
  match ds, ds', h.length_eq with
  | [], [], _ => rfl
  | [d], [d'], _ => rw [List.singleton_perm_singleton.mp h]
  | _ :: _ :: _, _ :: _ :: _, _ => rfl

/-- Neither the order of the members nor a member of no part matters. -/
theorem ofDocument?_object_eq_of_perm (n : Nat) {ms ms' : List (Option String × Document)}
    (hms : ∀ m ∈ ms, m.1 ≠ none) (hms' : ∀ m ∈ ms', m.1 ≠ none)
    (h : (ms.filter isKnown).Perm (ms'.filter isKnown)) :
    ofDocument? (n + 1) (.object ms) = ofDocument? (n + 1) (.object ms') := by
  have hall : ∀ {ms : List (Option String × Document)}, (∀ m ∈ ms, m.1 ≠ none) →
      ms.all (·.1.isSome) = true := by
    intro ms hms
    simpa [Option.isSome_iff_ne_none] using hms
  rw [ofDocument?, ofDocument?, ofParts?, ofParts?, if_pos (hall hms), if_pos (hall hms')]
  refine Option.ext fun c => ?_
  rw [ofGiven?_eq_some_iff, ofGiven?_eq_some_iff]
  exact forall_congr' fun p => by rw [one?_eq_of_perm _ p (given_perm h p)]

/-- Children are given twice if they are given under both of their names. -/
theorem length_given_children {ms : List (Option String × Document)} {d d' : Document}
    (h : (some "children", d) ∈ ms) (h' : (some "nestedFilters", d') ∈ ms) :
    1 < (given ms .children).length := by
  have hmem : (some "children", d) ∈ ms.filter fun m => m.1.any (Part.children.names.contains ·) :=
    List.mem_filter.mpr ⟨h, rfl⟩
  have hmem' : (some "nestedFilters", d') ∈
      ms.filter fun m => m.1.any (Part.children.names.contains ·) :=
    List.mem_filter.mpr ⟨h', rfl⟩
  rw [given, List.length_map]
  generalize (ms.filter fun m => m.1.any (Part.children.names.contains ·)) = named at hmem hmem' ⊢
  by_contra hfew
  rcases Nat.le_one_iff_eq_zero_or_eq_one.mp (Nat.le_of_not_lt hfew) with hnone | hone
  · rw [List.length_eq_zero_iff.mp hnone] at hmem
    cases hmem
  · obtain ⟨m, rfl⟩ := List.length_eq_one_iff.mp hone
    rw [List.mem_singleton] at hmem hmem'
    have hname : (some "children" : Option String) = some "nestedFilters" :=
      congrArg Prod.fst (hmem.trans hmem'.symm)
    exact absurd hname (by decide)

/-! ## Objects -/

/-- **An object is read as a criterion by its members.**  It is read when its members stand for a
criterion, and refused otherwise.  The criterion has what is given for each part, and the default of
the part where nothing or null is given.  Another spelling, another order and other members that are
of no part make no difference, and children that are given under both of their names are refused. -/
theorem reader_object (n : Nat) (ms : List (Option String × Document)) {s rest : List Char}
    (hs : (Document.object ms).Spelled s rest) (hrest : Delimits rest) :
    (StandFor n ms ↔ ∃ c, (reader (n + 1)).read s = .ok (c, rest)) ∧
    (¬ StandFor n ms ↔ ∃ e, (reader (n + 1)).read s = .error e) ∧
    (∀ c rest', (reader (n + 1)).read s = .ok (c, rest') → ∀ p,
      (∀ d ∈ given ms p, content? n p d = some (c.get p)) ∧
      (given ms p = [] ∨ given ms p = [.null] → c.get p = p.absent)) ∧
    (∀ ms' s' rest', (Document.object ms').Spelled s' rest' → Delimits rest' →
      (∀ m ∈ ms ++ ms', m.1 ≠ none) → (ms.filter isKnown).Perm (ms'.filter isKnown) →
      ∀ c, (reader (n + 1)).read s = .ok (c, rest) ↔ (reader (n + 1)).read s' = .ok (c, rest')) ∧
    ((∃ d, (some "children", d) ∈ ms) → (∃ d, (some "nestedFilters", d) ∈ ms) →
      ∃ e, (reader (n + 1)).read s = .error e) := by
  have hgives := takes_reader (n + 1) (.object ms) s rest hs hrest
  have hok : ∀ {c rest'}, (reader (n + 1)).read s = .ok (c, rest') ↔
      ofDocument? (n + 1) (.object ms) = some c ∧ rest' = rest := hgives.eq_ok_iff
  have hstand : StandFor n ms ↔ ∃ c, (reader (n + 1)).read s = .ok (c, rest) := by
    rw [← exists_ofDocument?_object_iff]
    exact exists_congr fun c => by rw [hok, and_iff_left rfl]
  have hrefused : ¬ StandFor n ms ↔ ∃ e, (reader (n + 1)).read s = .error e := by
    rw [hstand]
    cases hread : (reader (n + 1)).read s with
    | error e => simp
    | ok x => simp [(hok.mp hread).2, Prod.ext_iff]
  refine ⟨hstand, hrefused, fun c rest' hc p => ?_, ?_, ?_⟩
  · have hget := get_of_ofDocument?_object (hok.mp hc).1 p
    refine ⟨fun d hd => ?_, ?_⟩
    · rcases hget with ⟨hnil, -⟩ | ⟨d', hsingle, hcontent⟩
      · rw [hnil] at hd
        cases hd
      · rw [hsingle, List.mem_singleton] at hd
        rw [hd]
        exact hcontent
    · rintro (hnil | hnull)
      · rcases hget with ⟨-, habsent⟩ | ⟨d', hsingle, -⟩
        · exact habsent
        · rw [hnil] at hsingle
          cases hsingle
      · rcases hget with ⟨hnil, -⟩ | ⟨d', hsingle, hcontent⟩
        · rw [hnil] at hnull
          cases hnull
        · rw [hnull] at hsingle
          cases hsingle
          exact content?_null hcontent
  · intro ms' s' rest' hs' hrest' hnames hperm c
    rw [List.forall_mem_append] at hnames
    have hgives' := takes_reader (n + 1) (.object ms') s' rest' hs' hrest'
    rw [hok, hgives'.eq_ok_iff, ofDocument?_object_eq_of_perm n hnames.1 hnames.2 hperm,
      and_iff_left rfl, and_iff_left rfl]
  · rintro ⟨d, hd⟩ ⟨d', hd'⟩
    refine hrefused.mp fun h => ?_
    exact absurd (h.once .children) (Nat.not_le_of_lt (length_given_children hd hd'))

/-! ### An instance -/

/-- The members of a group without children, with a member that is of no part. -/
def emptyGroup : List (String × Json) :=
  [("nestedFilters", .array []), ("note", .null), ("operator", .string "LessThanOrEqual"),
    ("value", .null)]

/-- The text of the group, on a line for each member. -/
def emptyGroupText : List Char := (Json.object emptyGroup).write .indented 0 []

theorem spelled_emptyGroup :
    (Document.object (Json.memberDocuments emptyGroup)).Spelled emptyGroupText [] :=
  Json.spelled_write (.object emptyGroup) .indented 0 rfl .none

theorem given_emptyGroup : given (Json.memberDocuments emptyGroup) = fun
    | .property => []
    | .comparison => [.string (some "LessThanOrEqual")]
    | .value => [.null]
    | .connective => []
    | .children => [.array []] := by
  funext p
  cases p <;> rfl

theorem standFor_emptyGroup (n : Nat) : StandFor (n + 1) (Json.memberDocuments emptyGroup) where
  names := by simp [emptyGroup, Json.memberDocuments]
  once p := by
    rw [given_emptyGroup]
    cases p <;> decide
  contents p d hd := by
    rw [given_emptyGroup] at hd
    cases p with
    | property => cases hd
    | comparison =>
      rw [List.mem_singleton.mp hd]
      exact Option.some_ne_none Comparison.atMost
    | value =>
      rw [List.mem_singleton.mp hd]
      exact Option.some_ne_none none
    | connective => cases hd
    | children =>
      rw [List.mem_singleton.mp hd]
      exact Option.some_ne_none (some [])

/-- Children are read from their second name, null is no value, and the bound is read from its
second spelling. -/
theorem reader_object_emptyGroup :
    (Document.object (Json.memberDocuments emptyGroup)).Spelled emptyGroupText [] ∧ Delimits [] ∧
      (reader 126).read emptyGroupText = .ok (⟨"", .atMost, none, .and, some []⟩, []) := by
  obtain ⟨hstand, -, hget, -⟩ := reader_object 125 (Json.memberDocuments emptyGroup)
    spelled_emptyGroup Json.delimits_nil
  obtain ⟨c, hc⟩ := hstand.mp (standFor_emptyGroup 124)
  have hparts := hget c [] hc
  rw [given_emptyGroup] at hparts
  have hcriterion : c = ⟨"", .atMost, none, .and, some []⟩ := by
    refine eq_of_get fun p => ?_
    cases p with
    | property => exact (hparts .property).2 (Or.inl rfl)
    | comparison => exact (Option.some_inj.mp ((hparts .comparison).1 _ List.mem_cons_self)).symm
    | value => exact (hparts .value).2 (Or.inr rfl)
    | connective => exact (hparts .connective).2 (Or.inl rfl)
    | children => exact (Option.some_inj.mp ((hparts .children).1 _ List.mem_cons_self)).symm
  rw [← hcriterion]
  exact ⟨spelled_emptyGroup, Json.delimits_nil, hc⟩

end RecordFilter.Criterion
