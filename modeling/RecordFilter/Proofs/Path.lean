import RecordFilter.Proofs.DocumentOrder
import RecordFilter.Proofs.Meaning
import RecordFilter.Proofs.Text.Quoted

/-!
# Paths

A path is a list of places, and an error shows it as a text.  This module says how paths are
ordered, how their texts are read, and what follows for the one error that carries a path
(`compile_eq_illFormed_iff`).

Paths are ordered like words: a path comes before those that go on from it, and otherwise the first
place in which two paths differ decides.  That is the order in which a filter is checked
(`siblingsSorted`), so the first fault is the fault at the least path, and it can be said without
listing what is met on the way (`compile_eq_error_iff_least`).

The text of a path puts each place in brackets.  Its digits end at the bracket behind them, however
many there are, and what is between two brackets is always the same word; so a text belongs to one
path (`Path.text_inj`), and an error that shows a text points to one criterion.
-/

namespace RecordFilter

/-! ## The order of paths -/

namespace Criterion

theorem visitsDescend (c : Criterion) : VisitsDescend c := by
  cases h : c.members? with
  | none => exact visitsDescend_of_leaf h
  | some ds => exact visitsDescend_of_group h (visitsSpread ds)

/-- What is met from a criterion on has a path that goes on from the path of the criterion. -/
theorem exists_path_of_mem_visits {c : Criterion} {path : Path} {v : Visit}
    (h : v ∈ c.visits path) : ∃ q, v.path = path ++ q := by
  rcases (visitsDescend c path v).mp h with rfl | ⟨ds, -, q, d, -, rfl⟩
  · exact ⟨[], (List.append_nil path).symm⟩
  · exact ⟨q, rfl⟩

/-- What is met at siblings has a path that goes on from the path above them, to one of the places
counted. -/
theorem exists_path_of_mem_visitsFrom {cs : List Criterion} {path : Path} {i : Nat} {v : Visit}
    (h : v ∈ visitsFrom path i cs) : ∃ k q, v.path = path ++ (i + k) :: q := by
  obtain ⟨k, q, d, -, rfl⟩ := (visitsSpread cs path i v).mp h
  exact ⟨k, q, rfl⟩

/-- What is met from a criterion on is met in the order of paths. -/
def VisitsSorted (c : Criterion) : Prop :=
  ∀ path : Path, (c.visits path).Pairwise fun u v => u.path < v.path

/-- What is met at siblings is met in the order of paths. -/
def SiblingsSorted (cs : List Criterion) : Prop :=
  ∀ (path : Path) (i : Nat), (visitsFrom path i cs).Pairwise fun u v => u.path < v.path

theorem visitsSorted_of_leaf {c : Criterion} (h : c.members? = none) : VisitsSorted c := by
  intro path
  rw [visits_of_leaf h]
  exact List.pairwise_singleton _ _

theorem visitsSorted_of_group {c : Criterion} {ds : List Criterion} (h : c.members? = some ds)
    (hds : SiblingsSorted ds) : VisitsSorted c := by
  intro path
  rw [visits_of_group h, List.pairwise_cons]
  refine ⟨fun v hv => ?_, hds path 0⟩
  obtain ⟨k, q, hpath⟩ := exists_path_of_mem_visitsFrom hv
  have hbelow : path ++ [] < path ++ (0 + k) :: q := List.append_left_lt (List.nil_lt_cons _ _)
  rwa [List.append_nil, ← hpath] at hbelow

theorem siblingsSorted_nil : SiblingsSorted [] := by
  intro path i
  rw [visitsFrom]
  exact List.Pairwise.nil

theorem siblingsSorted_cons {c : Criterion} {cs : List Criterion} (hc : VisitsSorted c)
    (hcs : SiblingsSorted cs) : SiblingsSorted (c :: cs) := by
  intro path i
  rw [visitsFrom, List.pairwise_append]
  refine ⟨hc _, hcs path (i + 1), fun u hu v hv => ?_⟩
  obtain ⟨q, hu⟩ := exists_path_of_mem_visits hu
  obtain ⟨k, q', hv⟩ := exists_path_of_mem_visitsFrom hv
  rw [hu, hv, List.append_assoc]
  exact List.append_left_lt (List.cons_lt_cons_iff.mpr (Or.inl (by omega)))

/-- A filter is checked in the order of paths. -/
theorem siblingsSorted (cs : List Criterion) : SiblingsSorted cs :=
  onFilter (fun _ h => visitsSorted_of_leaf h) (fun _ _ h hds => visitsSorted_of_group h hds)
    siblingsSorted_nil (fun _ _ hc hcs => siblingsSorted_cons hc hcs) cs

end Criterion

variable {ρ : Type} {schema : Schema ρ} {settings : Settings} {filter : List Criterion}

/-- A filter fails with the fault at the least path. -/
theorem compile_eq_error_iff_least {e : CompileError} :
    compile schema settings filter = .error e ↔
      ∃ path c, Criterion.at? path filter = some c ∧ (c.visit path).Fault schema settings e ∧
        ∀ path' < path, ∀ d, Criterion.at? path' filter = some d →
          (d.visit path').IsSound schema settings := by
  have hsorted := Criterion.siblingsSorted filter [] 0
  rw [compile_eq_error_iff_firstFault]
  constructor
  · rintro ⟨before, v, after, hvisits, hbefore, hv⟩
    rw [hvisits] at hsorted
    obtain ⟨path, c, hc, rfl⟩ := Criterion.mem_visits_iff.mp
      (hvisits ▸ List.mem_append_right before List.mem_cons_self)
    refine ⟨path, c, hc, hv, fun path' hlt d hd => ?_⟩
    have hmem : d.visit path' ∈ before ++ c.visit path :: after :=
      hvisits ▸ Criterion.mem_visits_iff.mpr ⟨path', d, hd, rfl⟩
    -- A criterion at a lesser path is met neither here nor later.
    rcases List.mem_append.mp hmem with hmem | hmem
    · exact hbefore _ hmem
    · exfalso
      have hbehind := (List.pairwise_cons.mp (List.pairwise_append.mp hsorted).2.1).1
      rcases List.mem_cons.mp hmem with heq | hmem
      · have hpath : path' = path := congrArg Visit.path heq
        exact List.lt_irrefl path (hpath ▸ hlt)
      · exact List.lt_asymm hlt (hbehind _ hmem)
  · rintro ⟨path, c, hc, hfault, hbefore⟩
    obtain ⟨before, after, hvisits⟩ :=
      List.append_of_mem (Criterion.mem_visits_iff.mpr ⟨path, c, hc, rfl⟩)
    rw [hvisits] at hsorted
    refine ⟨before, c.visit path, after, hvisits, fun u hu => ?_, hfault⟩
    obtain ⟨path', d, hd, rfl⟩ := Criterion.mem_visits_iff.mp
      (hvisits ▸ List.mem_append_left _ hu)
    have hlt := (List.pairwise_append.mp hsorted).2.2 _ hu _ List.mem_cons_self
    exact hbefore path' hlt d hd

/-! ## The text of a path -/

namespace Path

open Json.Reader (stops_cons isDigits_digits)

theorem toList_stepText (i : Nat) : (stepText i).toList = '[' :: (Integer.digits i ++ [']']) := by
  have hnumeral : Integer.numeralChars (i : Int) = Integer.digits i := by
    rw [Integer.numeralChars, if_neg (by omega), Int.natAbs_natCast]
  simp [stepText, Integer.numeral, hnumeral]

/-- The text of a path is its first place and, for each of the others, the word for children. -/
theorem text_cons (i : Nat) (path : Path) :
    text (i :: path) = stepText i ++ String.join (path.map fun j => ".children" ++ stepText j) := by
  induction path generalizing i with
  | nil => simp [text]
  | cons j path ih =>
    have hrest := ih j
    rw [← String.toList_inj] at hrest ⊢
    rw [text, String.toList_intercalate] at hrest ⊢
    simp only [List.map_cons, List.intercalate_cons_cons] at hrest ⊢
    rw [hrest]
    simp

/-- A place is read off from the front of a text. -/
theorem stepText_append_inj {i j : Nat} {r r' : List Char}
    (h : (stepText i).toList ++ r = (stepText j).toList ++ r') : i = j ∧ r = r' := by
  rw [toList_stepText, toList_stepText, List.cons_append, List.cons_append, List.append_assoc,
    List.append_assoc] at h
  obtain ⟨hdigits, hrest⟩ := Text.eq_of_append_eq (isDigits_digits i).2 (isDigits_digits j).2
    (stops_cons (by decide) _) (stops_cons (by decide) _) (List.cons.inj h).2
  refine ⟨?_, (List.cons.inj hrest).2⟩
  rw [← Integer.ofDigits_digits i, hdigits, Integer.ofDigits_digits]

/-- The places behind the first are read off from the front of a text. -/
theorem childrenText_inj {path path' : Path}
    (h : (String.join (path.map fun j => ".children" ++ stepText j)).toList =
      (String.join (path'.map fun j => ".children" ++ stepText j)).toList) : path = path' := by
  induction path generalizing path' with
  | nil =>
    cases path' with
    | nil => rfl
    | cons j path' => simp at h
  | cons i path ih =>
    cases path' with
    | nil => simp at h
    | cons j path' =>
      simp only [List.map_cons, String.join_cons, String.toList_append, List.append_assoc] at h
      obtain ⟨rfl, hrest⟩ := stepText_append_inj (List.append_cancel_left h)
      rw [ih hrest]

theorem text_cons_ne_text_nil (i : Nat) (path : Path) : text (i :: path) ≠ text [] := by
  intro h
  rw [text_cons, ← String.toList_inj, String.toList_append, toList_stepText] at h
  exact List.cons_ne_nil _ _ h

/-- A text is that of one path. -/
theorem text_inj {path path' : Path} (h : path.text = path'.text) : path = path' := by
  cases path with
  | nil =>
    cases path' with
    | nil => rfl
    | cons j path' => exact absurd h.symm (text_cons_ne_text_nil j path')
  | cons i path =>
    cases path' with
    | nil => exact absurd h (text_cons_ne_text_nil i path)
    | cons j path' =>
      rw [text_cons, text_cons, ← String.toList_inj, String.toList_append,
        String.toList_append] at h
      obtain ⟨rfl, hrest⟩ := stepText_append_inj h
      rw [childrenText_inj hrest]

example : text [1, 10, 0] = "[1].children[10].children[0]" := by decide +kernel

end Path

/-! ## The path of an error -/

/-- A criterion is ill-formed when it is neither a group nor a leaf. -/
theorem visit_fault_illFormed_iff {path path' : Path} {c : Criterion} :
    (c.visit path').Fault schema settings (.illFormed path) ↔
      path' = path ∧ c.isGroup = false ∧ c.isLeaf = false := by
  constructor
  · intro h
    cases h with
    | illFormed hgroup hproperty =>
      refine ⟨rfl, hgroup, Bool.eq_false_iff.mpr fun hleaf => ?_⟩
      exact (Criterion.isLeaf_iff.mp hleaf).2 hproperty
    | leaf _ _ hleaf => nomatch hleaf
  · rintro ⟨rfl, hgroup, hleaf⟩
    refine .illFormed hgroup ?_
    by_contra hproperty
    have hmembers := Criterion.isGroup_eq_false_iff.mp hgroup
    exact Bool.eq_false_iff.mp hleaf (Criterion.isLeaf_iff.mpr ⟨hmembers, hproperty⟩)

variable (schema settings) in
/-- **An error that carries a path points to one criterion.**  A filter fails with the path of a
criterion exactly when the path leads to a criterion that is neither a group nor a leaf and whatever
lies at a lesser path, the groups around that criterion among it, is in order: a group within the
limit, or a leaf that names a property and fits.  The text of the path shows its places, each in
brackets and with the word for children between them, and no other path has the same text. -/
theorem compile_eq_illFormed_iff (filter : List Criterion) (path : Path) :
    (compile schema settings filter = .error (.illFormed path) ↔
      (∃ c, Criterion.at? path filter = some c ∧ c.isGroup = false ∧ c.isLeaf = false) ∧
      ∀ path' < path, ∀ d, Criterion.at? path' filter = some d →
        (d.isGroup = true → path'.length ≤ settings.maxDepth) ∧
          (d.isGroup = false → d.property ≠ "" ∧ d.Fits schema settings)) ∧
    (∀ i rest, path = i :: rest →
      path.text = "[" ++ Integer.numeral i ++ "]" ++
        String.join (rest.map fun (j : Nat) => ".children[" ++ Integer.numeral j ++ "]")) ∧
    ∀ path', path'.text = path.text → path' = path := by
  refine ⟨?_, ?_, fun path' htext => Path.text_inj htext⟩
  · rw [compile_eq_error_iff_least]
    simp only [visit_fault_illFormed_iff, visit_isSound_iff]
    constructor
    · rintro ⟨path', c, hc, ⟨rfl, hc'⟩, hbefore⟩
      exact ⟨⟨c, hc, hc'⟩, hbefore⟩
    · rintro ⟨⟨c, hc, hc'⟩, hbefore⟩
      exact ⟨path, c, hc, ⟨rfl, hc'⟩, hbefore⟩
  · rintro i rest rfl
    rw [Path.text_cons, Path.stepText]
    simp only [Path.stepText, String.append_assoc]
    rfl

/-! ### An instance -/

/-- `Age >= 18 && (Age <= 30 && _)`, the last criterion naming nothing. -/
def namelessFilter : List Criterion :=
  [.leaf "Age" .atLeast (.integer 18),
    .group [.leaf "Age" .atMost (.integer 30), .leaf "" .equals (.integer 7)]]

theorem compile_namelessFilter :
    compile ages {} namelessFilter = .error (.illFormed [1, 1]) := by
  simp [compile, namelessFilter, ages, Criterion.leaf, Criterion.group, Compile.siblings,
    Compile.criterion, Compile.leaf, Compile.test_integer, Compile.constraint, Compile.constant,
    Value.toInteger?, FieldType.isOrdered, Functor.map, Except.map, bind, Except.bind]

theorem compile_eq_illFormed_iff_ages :
    compile ages {} namelessFilter = .error (.illFormed [1, 1]) ∧
      (∃ c, Criterion.at? [1, 1] namelessFilter = some c ∧ c.isGroup = false ∧
        c.isLeaf = false) ∧
      ∀ path, Path.text path = "[1].children[1]" → path = [1, 1] := by
  obtain ⟨herror, -, htext⟩ := compile_eq_illFormed_iff ages {} namelessFilter [1, 1]
  refine ⟨compile_namelessFilter, (herror.mp compile_namelessFilter).1, fun path h => ?_⟩
  exact htext path (h.trans (by decide +kernel))

end RecordFilter
