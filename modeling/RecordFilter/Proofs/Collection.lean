import RecordFilter.Collection

/-!
# What a collection holds

A collection is made of records, and more are put in one by one or several at a time.  Of what was
put in, nothing is lost, doubled or moved: after any steps the collection holds the records of the
steps since it was last made anew, one behind the other (`putIn`), and it is these that a predicate
is asked about.

* `toList_records_step`: what one step does to the records.
* `toList_records_foldl`: what the steps of a run do to them.
* `run_keeps_all`: what a collection holds, lists and counts after any run.
-/

namespace RecordFilter.Collection

variable {ρ : Type}

/-! ## Runs -/

/-- A step in the life of a collection. -/
inductive Step (ρ : Type) where
  /-- The collection is made anew, of the given records. -/
  | start (records : List ρ)
  /-- One more record is put in. -/
  | insert (record : ρ)
  /-- More records are put in. -/
  | extend (records : List ρ)

namespace Step

/-- The records that a step puts in. -/
def added : Step ρ → List ρ
  | start records => records
  | insert record => [record]
  | extend records => records

/-- The step makes the collection anew. -/
def startsAnew : Step ρ → Bool
  | start _ => true
  | insert _ => false
  | extend _ => false

end Step

/-- The collection after a step. -/
def step (c : Collection ρ) : Step ρ → Collection ρ
  | .start records => ofList records
  | .insert record => c.insert record
  | .extend records => c.extend records

/-- The collection after the steps, which begin with the one without records. -/
def run (steps : List (Step ρ)) : Collection ρ := steps.foldl step empty

/-- The records that the steps put in, from the last on that makes the collection anew. -/
def putIn : List (Step ρ) → List ρ
  | [] => []
  | s :: rest =>
    if rest.any Step.startsAnew then putIn rest else s.added ++ rest.flatMap Step.added

/-! ## Records -/

@[simp] theorem toList_records_ofList (records : List ρ) :
    (ofList records).records.toList = records := rfl

@[simp] theorem toList_records_insert (c : Collection ρ) (record : ρ) :
    (c.insert record).records.toList = c.records.toList ++ [record] :=
  Array.toList_push

@[simp] theorem toList_records_extend (c : Collection ρ) (records : List ρ) :
    (c.extend records).records.toList = c.records.toList ++ records :=
  Array.toList_appendList

/-- A step puts its records behind those that it keeps. -/
theorem toList_records_step (c : Collection ρ) (s : Step ρ) :
    (c.step s).records.toList =
      (if s.startsAnew then [] else c.records.toList) ++ s.added := by
  cases s with
  | start records => exact toList_records_ofList records
  | insert record => exact toList_records_insert c record
  | extend records => exact toList_records_extend c records

/-- A run keeps what was there before it until a step makes the collection anew. -/
theorem toList_records_foldl (c : Collection ρ) (steps : List (Step ρ)) :
    (steps.foldl step c).records.toList =
      if steps.any Step.startsAnew then putIn steps
      else c.records.toList ++ steps.flatMap Step.added := by
  induction steps generalizing c with
  | nil => simp
  | cons s rest ih =>
    rw [List.foldl_cons, ih, toList_records_step, List.any_cons, putIn, List.flatMap_cons]
    -- A later step that makes the collection anew drops what this one puts in.
    by_cases hrest : rest.any Step.startsAnew = true
    · simp [hrest]
    · cases hs : s.startsAnew <;> simp [hrest]

/-- After a run the collection holds what was put in. -/
theorem toList_records_run (steps : List (Step ρ)) : (run steps).records.toList = putIn steps := by
  rw [run, toList_records_foldl]
  cases steps with
  | nil => rfl
  | cons s rest =>
    by_cases hrest : rest.any Step.startsAnew = true
    · simp [putIn, hrest]
    · simp [putIn, hrest, empty]

/-! ## Predicates -/

theorem toList_matching (c : Collection ρ) (p : Predicate ρ) :
    (Source.matching c p).toList = c.records.toList.filter p.accepts :=
  Array.toList_filter

/-- Counting in place gives the number of the records that are listed. -/
theorem count_eq_size_matching (c : Collection ρ) (p : Predicate ρ) :
    Source.count c p = (Source.matching c p).size :=
  Array.countP_eq_size_filter

theorem toList_matching_insert (c : Collection ρ) (p : Predicate ρ) (record : ρ) :
    (Source.matching (c.insert record) p).toList =
      (Source.matching c p).toList ++ [record].filter p.accepts := by
  rw [toList_matching, toList_matching, toList_records_insert, List.filter_append]

theorem toList_matching_extend (c : Collection ρ) (p : Predicate ρ) (records : List ρ) :
    (Source.matching (c.extend records) p).toList =
      (Source.matching c p).toList ++ records.filter p.accepts := by
  rw [toList_matching, toList_matching, toList_records_extend, List.filter_append]

/-- **A collection loses, doubles and moves nothing.**  After any steps it holds the records that
were put in since it was last made anew, in order.  A predicate lists those of them that it accepts,
in the same order and as often; counting them in place and by listing gives the length of that list;
and when more records are put in, those that the predicate accepts come behind it. -/
theorem run_keeps_all (steps : List (Step ρ)) (p : Predicate ρ) :
    (run steps).records.toList = putIn steps ∧
      (Source.matching (run steps) p).toList = (putIn steps).filter p.accepts ∧
      Source.count (run steps) p = Source.countByListing (run steps) p ∧
      Source.countByListing (run steps) p = (Source.matching (run steps) p).size ∧
      (∀ record, (Source.matching ((run steps).step (.insert record)) p).toList =
        (Source.matching (run steps) p).toList ++ [record].filter p.accepts) ∧
      ∀ records, (Source.matching ((run steps).step (.extend records)) p).toList =
        (Source.matching (run steps) p).toList ++ records.filter p.accepts := by
  have hrecords := toList_records_run steps
  refine ⟨hrecords, ?_, count_eq_size_matching _ p, rfl, toList_matching_insert _ p,
    toList_matching_extend _ p⟩
  rw [toList_matching, hrecords]

example : (run [.start [7], .insert 4, .start [3, 1], .insert 2, .extend [5]]).records =
    #[3, 1, 2, 5] := by
  decide

end RecordFilter.Collection
