import RecordFilter.Proofs.Criterion.Members
import RecordFilter.Proofs.DocumentOrder

/-!
# Documents with a gap

A constant of a filter stands somewhere in the document of the filter: in the value of a criterion,
or among the items of the value, and the criterion is an object or an array of its own, next to
others and inside as many groups as there are.  A `ConstantPlace` is a document with a gap in such a
place.  It is made of three gaps, one inside the other, and each of them says only what stands round
it:

* a `ValueGap` in a value: the whole of it, or one of its items;
* a `PartGap` in a criterion: what is given for a part, under one of its names or in its place;
* a `FilterGap` in a list of criteria: the value of one of them, or of one inside their children.

Nothing that stands round a gap depends on what stands in it.  So a document that is read with one
thing in the gap is read with any other that can be read there, and what is read for the gap is
where the path to it leads.

* `PartGap.gives?_fill`: what stands in the gap is given for the part, and nothing else depends on
  it.
* `FilterGap.exists_at?`: the same of the value of a criterion, at any depth of a filter.
* `ConstantPlace.exists_constantAt`, `ConstantPlace.exists_listOfDocument?`: the same of a constant.
* `exists_constantPlace`: every constant of a filter that is read comes from such a place.
-/

namespace RecordFilter

open Json (Document Numeral)

/-! ## Lists -/

section Lists

variable {α β : Type} {f : α → Option β}

theorem mapM_append_cons_eq_some_iff {before after : List α} {a : α} {bs : List β} :
    (before ++ a :: after).mapM f = some bs ↔ ∃ bs₁ b bs₂, before.mapM f = some bs₁ ∧
      f a = some b ∧ after.mapM f = some bs₂ ∧ bs = bs₁ ++ b :: bs₂ := by
  simp only [List.mapM_append, List.mapM_cons, Option.bind_eq_bind, Option.bind_eq_some_iff,
    Option.pure_def, Option.some_inj]
  constructor
  · rintro ⟨bs₁, h₁, _, ⟨b, hb, bs₂, h₂, rfl⟩, rfl⟩
    exact ⟨bs₁, b, bs₂, h₁, hb, h₂, rfl⟩
  · rintro ⟨bs₁, b, bs₂, h₁, hb, h₂, rfl⟩
    exact ⟨bs₁, h₁, _, ⟨b, hb, bs₂, h₂, rfl⟩, rfl⟩

theorem getElem?_of_mapM {as : List α} {bs : List β} (h : as.mapM f = some bs) (k : Nat) :
    bs[k]? = as[k]?.bind f := by
  induction as generalizing bs k with
  | nil =>
    cases h
    rfl
  | cons a as ih =>
    have hsplit : ([] ++ a :: as).mapM f = some bs := h
    obtain ⟨bs₁, b, bs₂, h₁, hb, h₂, rfl⟩ := mapM_append_cons_eq_some_iff.mp hsplit
    cases h₁
    cases k with
    | zero => exact hb.symm
    | succ k => exact ih h₂ k

/-- What is made of an item stands in the place of the item. -/
theorem getElem?_of_mapM_append_cons {before after : List α} {a : α} {bs : List β}
    (h : (before ++ a :: after).mapM f = some bs) : bs[before.length]? = f a := by
  rw [getElem?_of_mapM h, List.getElem?_append_right (Nat.le_refl _), Nat.sub_self]
  rfl

/-- Another item of which something is made can stand in the same place. -/
theorem exists_mapM_append_cons {before after : List α} {a : α} {bs : List β}
    (h : (before ++ a :: after).mapM f = some bs) {a' : α} (ha' : f a' ≠ none) :
    ∃ bs', (before ++ a' :: after).mapM f = some bs' := by
  obtain ⟨b', hb'⟩ := Option.ne_none_iff_exists'.mp ha'
  obtain ⟨bs₁, b, bs₂, h₁, -, h₂, -⟩ := mapM_append_cons_eq_some_iff.mp h
  exact ⟨_, mapM_append_cons_eq_some_iff.mpr ⟨bs₁, b', bs₂, h₁, hb', h₂, rfl⟩⟩

/-- A list with an item in a place is what stands before the place, the item, and what stands after
it. -/
theorem exists_append_cons_of_getElem? {as : List α} {k : Nat} {a : α} (h : as[k]? = some a) :
    ∃ before after, before ++ a :: after = as ∧ before.length = k := by
  obtain ⟨hk, rfl⟩ := List.getElem?_eq_some_iff.mp h
  refine ⟨as.take k, as.drop (k + 1), ?_, List.length_take_of_le (Nat.le_of_lt hk)⟩
  rw [List.getElem_cons_drop, List.take_append_drop]

/-- The other places have what they have, whatever stands in this one. -/
theorem getElem?_append_cons_of_ne {before : List α} {k : Nat} (hk : k ≠ before.length) (a a' : α)
    (after : List α) : (before ++ a :: after)[k]? = (before ++ a' :: after)[k]? := by
  have hset : (before ++ a :: after).set before.length a' = before ++ a' :: after := by simp
  rw [← hset, List.getElem?_set_ne (Ne.symm hk)]

end Lists

/-! ## Documents -/

namespace Json.Document

/-- Where null may stand, something is read of what is not null and is read as it. -/
theorem nullable?_eq_some_some_iff {α : Type} {f : Document → Option α} {d : Document} {a : α} :
    d.nullable? f = some (some a) ↔ d ≠ .null ∧ f d = some a := by
  by_cases h : d = .null
  · subst h
    simp [nullable?]
  · rw [nullable?_of_ne h, and_iff_right h]
    simp

theorem values?_eq_mapM (ds : List Document) : values? ds = ds.mapM value? := by
  induction ds with
  | nil => rfl
  | cons d ds ih =>
    rw [values?, ih, List.mapM_cons]
    cases d.value? with
    | none => rfl
    | some v => cases ds.mapM value? <;> rfl

theorem depths_append_cons (before : List Document) (x : Document) (after : List Document) :
    depths (before ++ x :: after) = max x.depth (depths (before ++ after)) := by
  induction before with
  | nil => rfl
  | cons d before ih =>
    rw [List.cons_append, List.cons_append, depths, depths, ih, Nat.max_left_comm]

end Json.Document

namespace Criterion

/-! ## Parts -/

/-- No two parts have the same place. -/
theorem Part.place_inj {p q : Part} (h : p.place = q.place) : p = q := by
  have hall : ∀ p ∈ all, ∀ q ∈ all, p.place = q.place → p = q := by decide
  exact hall p p.mem_all q q.mem_all h

/-- What a document gives for the parts of a criterion, if it can stand for one. -/
def gives? : Document → Option (Part → List Document)
  | .object ms => if ms.all (·.1.isSome) then some (given ms) else none
  | .array ds => if ds.length ≤ Part.all.length then some fun p => ds[p.place]?.toList else none
  | _ => none

theorem ofParts?_eq_bind (decode : Decoding) (d : Document) :
    ofParts? decode d = (gives? d).bind (ofGiven? decode) := by
  cases d with
  | object ms =>
    rw [ofParts?, gives?]
    split <;> rfl
  | array ds =>
    rw [ofParts?, gives?]
    split <;> rfl
  | _ => rfl

/-- The document of a criterion with a gap for a part. -/
inductive PartGap (p : Part) where
  /-- The value of a member of an object, under a name of the part. -/
  | member (before : List (Option String × Document)) (name : String) (isName : name ∈ p.names)
      (after : List (Option String × Document))
  /-- The item of an array in the place of the part. -/
  | item (before after : List Document) (isPlace : before.length = p.place)

namespace PartGap

variable {p : Part}

/-- The document with something in the gap. -/
def fill (x : Document) : PartGap p → Document
  | member before name _ after => .object (before ++ (some name, x) :: after)
  | item before after _ => .array (before ++ x :: after)

/-- A member is given for the part that it names, and for no other. -/
theorem given_append_cons {name : String} (hname : name ∈ p.names)
    (before after : List (Option String × Document)) (x : Document) :
    given (before ++ (some name, x) :: after) =
      Function.update (given (before ++ after)) p (given before p ++ x :: given after p) := by
  funext q
  by_cases hq : q = p
  · subst hq
    rw [Function.update_self]
    simp [given, hname]
  · have hnot : name ∉ q.names := fun h => hq (Part.eq_of_mem_names h hname)
    rw [Function.update_of_ne hq]
    simp [given, hnot]

/-- An item is given for the part whose place it has, and for no other. -/
theorem item_append_cons {before : List Document} (hplace : before.length = p.place) (x : Document)
    (after : List Document) : (fun q : Part => (before ++ x :: after)[q.place]?.toList) =
      Function.update (fun q => (before ++ .null :: after)[q.place]?.toList) p [x] := by
  funext q
  by_cases hq : q = p
  · subst hq
    rw [Function.update_self, ← hplace, List.getElem?_append_right (Nat.le_refl _), Nat.sub_self]
    rfl
  · have hne : q.place ≠ before.length := by
      rw [hplace]
      exact fun h => hq (Part.place_inj h)
    rw [Function.update_of_ne hq, getElem?_append_cons_of_ne hne]

/-- What stands in the gap is given for the part, and what is given for the others does not depend
on it. -/
theorem gives?_fill (gap : PartGap p) : (∀ x, gives? (gap.fill x) = none) ∨
    ∃ others before after, ∀ x, gives? (gap.fill x) =
      some (Function.update others p (before ++ x :: after)) := by
  cases gap with
  | member before name hname after =>
    by_cases hall : (before ++ after).all (·.1.isSome) = true
    · refine Or.inr ⟨given (before ++ after), given before p, given after p, fun x => ?_⟩
      rw [fill, gives?, if_pos (by simpa using hall), given_append_cons hname]
    · refine Or.inl fun x => ?_
      rw [fill, gives?, if_neg (by simpa using hall)]
  | item before after hplace =>
    by_cases hlength : before.length + (after.length + 1) ≤ Part.all.length
    · refine Or.inr ⟨fun q => (before ++ .null :: after)[q.place]?.toList, [], [], fun x => ?_⟩
      rw [fill, gives?, if_pos (by simpa using hlength), item_append_cons hplace]
      rfl
    · refine Or.inl fun x => ?_
      rw [fill, gives?, if_neg (by simpa using hlength)]

variable {decode : Decoding} {x : Document} {c : Criterion}

/-- In the document of a criterion, nothing but what stands in the gap is given for the part. -/
theorem gives?_fill_of_ofParts? (gap : PartGap p) (h : ofParts? decode (gap.fill x) = some c) :
    ∃ others, ∀ y, gives? (gap.fill y) = some (Function.update others p [y]) := by
  rw [ofParts?_eq_bind] at h
  rcases gap.gives?_fill with hnone | ⟨others, before, after, hfill⟩
  · rw [hnone] at h
    cases h
  · rw [hfill, Option.bind_some, ofGiven?_eq_some_iff] at h
    have hp := h p
    rw [Function.update_self, one?_eq_some_iff] at hp
    rcases hp with ⟨hnil, -⟩ | ⟨d, hsingle, -⟩
    · exact absurd hnil (List.append_ne_nil_of_right_ne_nil before (List.cons_ne_nil x after))
    · rcases List.append_eq_singleton_iff.mp hsingle with ⟨rfl, hafter⟩ | ⟨-, hafter⟩
      · obtain ⟨rfl, rfl⟩ := List.cons_eq_cons.mp hafter
        exact ⟨others, hfill⟩
      · cases hafter

/-- What stands in the gap is what the criterion has for the part. -/
theorem get_of_ofParts? (gap : PartGap p) (h : ofParts? decode (gap.fill x) = some c) :
    decode p x = some (c.get p) := by
  obtain ⟨others, hfill⟩ := gap.gives?_fill_of_ofParts? h
  rw [ofParts?_eq_bind, hfill, Option.bind_some, ofGiven?_eq_some_iff] at h
  have hp := h p
  rw [Function.update_self] at hp
  exact hp

/-- What can be made into the part can stand in the gap. -/
theorem ofParts?_fill (gap : PartGap p) (h : ofParts? decode (gap.fill x) = some c) {y : Document}
    {b : p.Content} (hy : decode p y = some b) :
    ofParts? decode (gap.fill y) = some (c.set p b) := by
  obtain ⟨others, hfill⟩ := gap.gives?_fill_of_ofParts? h
  rw [ofParts?_eq_bind, hfill, Option.bind_some, ofGiven?_eq_some_iff] at h ⊢
  intro q
  by_cases hq : q = p
  · subst hq
    rw [Function.update_self, get_set_self]
    exact hy
  · have hother := h q
    rw [Function.update_of_ne hq] at hother ⊢
    rw [get_set_of_ne c hq]
    exact hother

end PartGap

/-- What a criterion has for a part, other than the default, comes from a gap for the part. -/
theorem exists_partGap {decode : Decoding} {d : Document} {c : Criterion} {p : Part}
    (h : ofParts? decode d = some c) (hp : c.get p ≠ p.absent) :
    ∃ (gap : PartGap p) (x : Document), gap.fill x = d ∧ decode p x = some (c.get p) := by
  rw [ofParts?_eq_bind, Option.bind_eq_some_iff] at h
  obtain ⟨given', hgives, hc⟩ := h
  rcases one?_eq_some_iff.mp (ofGiven?_eq_some_iff.mp hc p) with ⟨-, habsent⟩ | ⟨x, hx, hget⟩
  · exact absurd habsent hp
  · cases d with
    | object ms =>
      obtain rfl := Option.some_inj.mp (Option.ite_none_right_eq_some.mp hgives).2
      have hmem : x ∈ given ms p := hx ▸ List.mem_cons_self
      obtain ⟨⟨name, _⟩, hm, rfl⟩ := List.mem_map.mp hmem
      obtain ⟨hm, hname⟩ := List.mem_filter.mp hm
      obtain ⟨before, after, rfl⟩ := List.append_of_mem hm
      cases name with
      | none => cases hname
      | some name => exact ⟨.member before name (by simpa using hname) after, _, rfl, hget⟩
    | array ds =>
      obtain rfl := Option.some_inj.mp (Option.ite_none_right_eq_some.mp hgives).2
      obtain ⟨before, after, rfl, hplace⟩ :=
        exists_append_cons_of_getElem? (Option.toList_eq_singleton_iff.mp hx)
      exact ⟨.item before after hplace, x, rfl, hget⟩
    | _ => cases hgives

/-! ## Lists of criteria -/

theorem ne_nil_of_at? {path : Path} {cs : List Criterion} {c : Criterion}
    (h : at? path cs = some c) : cs ≠ [] := by
  rintro rfl
  cases path with
  | nil => cases h
  | cons i path =>
    obtain ⟨_, hd, _⟩ := at?_cons_eq_some_iff.mp h
    cases hd

/-- Where a list of criteria is read, each of its items is read as the criterion in the same place,
and the list is read with anything else in the place that is read as a criterion. -/
theorem exists_of_listOfDocument? {before after : List Document} {d : Document} {n : Nat}
    {cs : List Criterion} (h : listOfDocument? n (.array (before ++ d :: after)) = some cs) :
    ∃ brackets c, cs[before.length]? = some c ∧
      ofParts? (decoding brackets (listOfDocument? brackets)) d = some c ∧
      ∀ d', ofParts? (decoding brackets (listOfDocument? brackets)) d' ≠ none →
        ∃ cs', listOfDocument? n (.array (before ++ d' :: after)) = some cs' := by
  match n with
  | 0 => cases h
  | 1 =>
    obtain ⟨_, _, _, _, hd, _⟩ := mapM_append_cons_eq_some_iff.mp h
    cases hd
  | brackets + 2 =>
    obtain ⟨_, c, _, _, hd, _⟩ := mapM_append_cons_eq_some_iff.mp h
    refine ⟨brackets, c, ?_, hd, fun d' hd' => exists_mapM_append_cons h hd'⟩
    exact (getElem?_of_mapM_append_cons h).trans hd

/-- The document of a filter with a gap for the value of one of its criteria. -/
inductive FilterGap where
  /-- The value of a criterion of the list. -/
  | value (before : List Document) (gap : PartGap .value) (after : List Document)
  /-- A gap in the children of a criterion of the list. -/
  | children (before : List Document) (gap : PartGap .children) (inner : FilterGap)
      (after : List Document)

namespace FilterGap

/-- The document with something in the gap. -/
def fill (x : Document) : FilterGap → Document
  | value before gap after => .array (before ++ gap.fill x :: after)
  | children before gap inner after => .array (before ++ gap.fill (inner.fill x) :: after)

/-- The path to the criterion whose value has the gap. -/
def path : FilterGap → Path
  | value before _ _ => [before.length]
  | children before _ inner _ => before.length :: inner.path

theorem fill_ne_null (gap : FilterGap) (x : Document) : gap.fill x ≠ .null := by
  cases gap <;> exact Document.noConfusion

/-- Where a filter is read, what stands in the gap is read as the value of the criterion that the
path leads to, with some number of brackets; and the filter is read with anything else in the gap
that is a value with this number of brackets. -/
theorem exists_at? (gap : FilterGap) {x : Document} {n : Nat} {filter : List Criterion}
    (h : listOfDocument? n (gap.fill x) = some filter) : ∃ brackets,
      (∃ c, at? gap.path filter = some c ∧ content? brackets .value x = some c.value) ∧
      ∀ y, content? brackets .value y ≠ none →
        ∃ filter', listOfDocument? n (gap.fill y) = some filter' := by
  -- The number of brackets is that of the innermost list, and each list round it is read again with
  -- what has become of the children that it holds.
  induction gap generalizing n filter with
  | value before gap after =>
    obtain ⟨brackets, c, hc, hd, hother⟩ := exists_of_listOfDocument? h
    refine ⟨brackets, ⟨c, at?_cons_eq_some_iff.mpr ⟨c, hc, Or.inl ⟨rfl, rfl⟩⟩,
      gap.get_of_ofParts? hd⟩, fun y hy => hother _ ?_⟩
    obtain ⟨b, hb⟩ := Option.ne_none_iff_exists'.mp hy
    rw [gap.ofParts?_fill hd hb]
    exact Option.some_ne_none _
  | children before gap inner after ih =>
    obtain ⟨brackets, c, hc, hd, hother⟩ := exists_of_listOfDocument? h
    have hread : (inner.fill x).nullable? (listOfDocument? brackets) = some c.children :=
      gap.get_of_ofParts? hd
    rw [Document.nullable?_of_ne (inner.fill_ne_null x), Option.map_eq_some_iff] at hread
    obtain ⟨cs, hcs, hchildren⟩ := hread
    obtain ⟨brackets', ⟨c', hc', hvalue⟩, hinner⟩ := ih hcs
    have hne : cs ≠ [] := ne_nil_of_at? hc'
    refine ⟨brackets', ⟨c', at?_cons_eq_some_iff.mpr ⟨c, hc, Or.inr ⟨cs, ?_, hc'⟩⟩, hvalue⟩,
      fun y hy => hother _ ?_⟩
    · exact members?_eq_some_iff.mpr ⟨hchildren.symm, hne⟩
    · obtain ⟨cs', hcs'⟩ := hinner y hy
      have hread' : content? brackets .children (inner.fill y) = some (some cs') :=
        Document.nullable?_eq_some_some_iff.mpr ⟨inner.fill_ne_null y, hcs'⟩
      rw [gap.ofParts?_fill hd hread']
      exact Option.some_ne_none _

end FilterGap

/-- Each criterion of a list that is read comes from the item in the same place. -/
theorem exists_array_of_listOfDocument? {n : Nat} {d : Document} {cs : List Criterion}
    (h : listOfDocument? n d = some cs) {k : Nat} {c : Criterion} (hc : cs[k]? = some c) :
    ∃ before e after, Document.array (before ++ e :: after) = d ∧ before.length = k := by
  cases n with
  | zero => cases h
  | succ n =>
    cases d with
    | array items =>
      rw [getElem?_of_mapM h, Option.bind_eq_some_iff] at hc
      obtain ⟨e, he, -⟩ := hc
      obtain ⟨before, after, hitems, hlength⟩ := exists_append_cons_of_getElem? he
      exact ⟨before, e, after, congrArg Document.array hitems, hlength⟩
    | _ => cases h

/-- The value of a criterion of a filter that is read comes from a gap in the document of the
filter. -/
theorem exists_filterGap {n : Nat} {d : Document} {filter : List Criterion}
    (h : listOfDocument? n d = some filter) {path : Path} {c : Criterion}
    (hc : at? path filter = some c) (hvalue : c.value ≠ none) :
    ∃ (gap : FilterGap) (x : Document) (brackets : Nat), gap.fill x = d ∧ gap.path = path ∧
      content? brackets .value x = some c.value := by
  induction path generalizing n d filter with
  | nil => cases hc
  | cons k path ih =>
    obtain ⟨c', hc', hrest⟩ := at?_cons_eq_some_iff.mp hc
    obtain ⟨before, e, after, rfl, rfl⟩ := exists_array_of_listOfDocument? h hc'
    obtain ⟨brackets, c'', hc'', he, -⟩ := exists_of_listOfDocument? h
    rw [hc', Option.some_inj] at hc''
    subst hc''
    rcases hrest with ⟨rfl, rfl⟩ | ⟨cs, hcs, hbelow⟩
    · obtain ⟨gap, x, rfl, hx⟩ := exists_partGap (p := .value) he hvalue
      exact ⟨.value before gap after, x, brackets, rfl, rfl, hx⟩
    · obtain ⟨hchildren, -⟩ := members?_eq_some_iff.mp hcs
      have hne : c'.children ≠ none := hchildren ▸ Option.some_ne_none cs
      obtain ⟨gap, y, rfl, hy⟩ := exists_partGap (p := .children) he hne
      have hread : y.nullable? (listOfDocument? brackets) = some (some cs) :=
        hy.trans (congrArg some hchildren)
      obtain ⟨inner, x, brackets', rfl, rfl, hx⟩ :=
        ih (Document.nullable?_eq_some_some_iff.mp hread).2 hbelow
      exact ⟨.children before gap inner after, x, brackets', rfl, rfl, hx⟩

end Criterion

/-! ## Values -/

/-- The value itself, or its item at a place. -/
def Value.constantAt : Option Nat → Value → Option Value
  | none, v => some v
  | some k, v => v.items?.bind (·[k]?)

namespace Criterion

/-- The document of a value with a gap for a constant. -/
inductive ValueGap where
  /-- The value itself. -/
  | whole
  /-- An item of the value. -/
  | item (before after : List Document)

namespace ValueGap

/-- The document with something in the gap. -/
def fill (x : Document) : ValueGap → Document
  | whole => x
  | item before after => .array (before ++ x :: after)

/-- The place of the gap among the items of the value, if it is not the value itself. -/
def index : ValueGap → Option Nat
  | whole => none
  | item before _ => some before.length

theorem fill_ne_null (gap : ValueGap) {x : Document} (hx : x ≠ .null) : gap.fill x ≠ .null := by
  cases gap with
  | whole => exact hx
  | item before after => exact Document.noConfusion

/-- A value with something in the gap that is not null is read as it is where null may stand. -/
theorem content?_fill (gap : ValueGap) {x : Document} (hx : x ≠ .null) (n : Nat) :
    content? n .value (gap.fill x) = ((gap.fill x).valueWithin? n).map some :=
  Document.nullable?_of_ne (gap.fill_ne_null hx)

/-- What stands in the gap has the value of the constant. -/
theorem exists_constantAt (gap : ValueGap) {x : Document} {payload : Value}
    (h : (gap.fill x).value? = some payload) :
    ∃ v, x.value? = some v ∧ payload.constantAt gap.index = some v := by
  cases gap with
  | whole => exact ⟨payload, h, rfl⟩
  | item before after =>
    obtain ⟨vs, hvs, rfl⟩ := Option.map_eq_some_iff.mp h
    rw [Document.values?_eq_mapM] at hvs
    obtain ⟨_, v, _, _, hv, _⟩ := mapM_append_cons_eq_some_iff.mp hvs
    exact ⟨v, hv, (getElem?_of_mapM_append_cons hvs).trans hv⟩

/-- Another constant whose brackets do not nest deeper can stand in the gap. -/
theorem valueWithin?_fill_ne_none (gap : ValueGap) {x y : Document} {n : Nat}
    (h : (gap.fill x).valueWithin? n ≠ none) (hdepth : y.depth ≤ x.depth) (hy : y.value? ≠ none) :
    (gap.fill y).valueWithin? n ≠ none := by
  rw [Document.valueWithin?, ne_eq, ite_eq_right_iff, Classical.not_imp] at h ⊢
  obtain ⟨hnesting, hvalue⟩ := h
  cases gap with
  | whole => exact ⟨Nat.le_trans hdepth hnesting, hy⟩
  | item before after =>
    refine ⟨Nat.le_trans ?_ hnesting, ?_⟩
    · rw [fill, fill, Document.depth, Document.depth, Document.depths_append_cons,
        Document.depths_append_cons]
      exact Nat.succ_le_succ (max_le_max_right _ hdepth)
    · rw [fill, Document.value?, Option.map_eq_none_iff, Document.values?_eq_mapM] at hvalue ⊢
      obtain ⟨vs, hvs⟩ := Option.ne_none_iff_exists'.mp hvalue
      obtain ⟨vs', hvs'⟩ := exists_mapM_append_cons hvs hy
      rw [hvs']
      exact Option.some_ne_none vs'

end ValueGap

/-- A number has no items. -/
theorem items?_of_value?_number {k : Numeral} {v : Value} (h : k.value? = some v) :
    v.items? = none := by
  cases hk : k.toInteger? with
  | some j =>
    rw [Numeral.value?_of_toInteger? hk, Value.ofJson?] at h
    split at h <;> cases h <;> rfl
  | none =>
    rw [Numeral.value?_of_toInteger?_eq_none hk, Option.map_eq_some_iff] at h
    obtain ⟨x, -, rfl⟩ := h
    rfl

/-- Only an array is read as a value with items. -/
theorem exists_array_of_items? {d : Document} {payload : Value} {vs : List Value}
    (h : d.value? = some payload) (hvs : payload.items? = some vs) :
    ∃ items, d = .array items ∧ items.mapM Document.value? = some vs := by
  cases d with
  | array items =>
    obtain ⟨vs', hitems, rfl⟩ := Option.map_eq_some_iff.mp h
    rw [Document.values?_eq_mapM] at hitems
    exact ⟨items, rfl, hitems.trans hvs⟩
  | string text =>
    obtain ⟨_, _, rfl⟩ := Option.map_eq_some_iff.mp h
    cases hvs
  | number k =>
    rw [items?_of_value?_number h] at hvs
    cases hvs
  | boolean b =>
    cases h
    cases hvs
  | null => cases h
  | object ms => cases h

/-- A constant in a value comes from a gap in the document of the value. -/
theorem exists_valueGap {d : Document} {payload v : Value} {index : Option Nat}
    (h : d.value? = some payload) (hv : payload.constantAt index = some v) :
    ∃ (gap : ValueGap) (x : Document), gap.fill x = d ∧ gap.index = index ∧ x.value? = some v := by
  cases index with
  | none =>
    obtain rfl := Option.some_inj.mp hv
    exact ⟨.whole, d, rfl, rfl, h⟩
  | some k =>
    obtain ⟨vs, hvs, hk⟩ := Option.bind_eq_some_iff.mp hv
    obtain ⟨items, rfl, hitems⟩ := exists_array_of_items? h hvs
    rw [getElem?_of_mapM hitems, Option.bind_eq_some_iff] at hk
    obtain ⟨x, hx, hvalue⟩ := hk
    obtain ⟨before, after, rfl, rfl⟩ := exists_append_cons_of_getElem? hx
    exact ⟨.item before after, x, rfl, rfl, hvalue⟩

/-! ## Filters -/

/-- The constant of a criterion: its value, or an item of the value. -/
def constantAt (index : Option Nat) (c : Criterion) : Option Value :=
  c.value.bind (Value.constantAt index)

/-- The document of a filter with a gap for a constant. -/
structure ConstantPlace where
  /-- Where the value of the criterion stands. -/
  filter : FilterGap
  /-- Where the constant stands in the value. -/
  value : ValueGap

namespace ConstantPlace

/-- The document with something in the gap. -/
def fill (place : ConstantPlace) (x : Document) : Document := place.filter.fill (place.value.fill x)

/-- The path to the criterion whose constant is missing. -/
def path (place : ConstantPlace) : Path := place.filter.path

/-- The place of the constant among the items of the criterion's value, if it is not the value. -/
def index (place : ConstantPlace) : Option Nat := place.value.index

variable {x : Document} {n : Nat} {filter : List Criterion}

/-- What stands in the gap is read as the constant of the criterion that the path leads to. -/
theorem exists_constantAt (place : ConstantPlace) (hx : x ≠ .null)
    (h : listOfDocument? n (place.fill x) = some filter) : ∃ c v,
      at? place.path filter = some c ∧ c.constantAt place.index = some v ∧ x.value? = some v := by
  obtain ⟨brackets, ⟨c, hc, hcontent⟩, -⟩ := place.filter.exists_at? h
  obtain ⟨payload, hpayload, hvalue⟩ := Option.map_eq_some_iff.mp
    ((place.value.content?_fill hx brackets).symm.trans hcontent)
  obtain ⟨v, hv, hat⟩ :=
    place.value.exists_constantAt (Option.ite_none_right_eq_some.mp hpayload).2
  exact ⟨c, v, hc, Option.bind_eq_some_iff.mpr ⟨payload, hvalue.symm, hat⟩, hv⟩

/-- Another constant whose brackets do not nest deeper can stand in the gap. -/
theorem exists_listOfDocument? (place : ConstantPlace) (hx : x ≠ .null)
    (h : listOfDocument? n (place.fill x) = some filter) {y : Document} (hy : y.value? ≠ none)
    (hdepth : y.depth ≤ x.depth) : ∃ filter', listOfDocument? n (place.fill y) = some filter' := by
  obtain ⟨brackets, ⟨c, -, hcontent⟩, hother⟩ := place.filter.exists_at? h
  have hnull : y ≠ .null := by
    rintro rfl
    exact hy rfl
  have hvalue : (place.value.fill x).valueWithin? brackets ≠ none := by
    intro hnone
    rw [place.value.content?_fill hx, hnone] at hcontent
    cases hcontent
  refine hother _ ?_
  rw [place.value.content?_fill hnull]
  exact fun hnone => place.value.valueWithin?_fill_ne_none hvalue hdepth hy
    (Option.map_eq_none_iff.mp hnone)

end ConstantPlace

/-- Every constant of a filter that is read comes from a place in the document of the filter. -/
theorem exists_constantPlace {n : Nat} {d : Document} {filter : List Criterion}
    (h : listOfDocument? n d = some filter) {path : Path} {c : Criterion}
    (hc : at? path filter = some c) {index : Option Nat} {v : Value}
    (hv : c.constantAt index = some v) : ∃ (place : ConstantPlace) (x : Document),
      place.fill x = d ∧ place.path = path ∧ place.index = index ∧ x.value? = some v := by
  obtain ⟨payload, hpayload, hat⟩ := Option.bind_eq_some_iff.mp hv
  obtain ⟨gap, y, brackets, rfl, rfl, hcontent⟩ :=
    exists_filterGap h hc (hpayload ▸ Option.some_ne_none payload)
  have hread : y.nullable? (Document.valueWithin? brackets) = some (some payload) :=
    hcontent.trans (congrArg some hpayload)
  obtain ⟨inner, x, rfl, rfl, hx⟩ := exists_valueGap
    (Option.ite_none_right_eq_some.mp (Document.nullable?_eq_some_some_iff.mp hread).2).2 hat
  exact ⟨⟨gap, inner⟩, x, rfl, rfl, rfl, hx⟩

end Criterion

end RecordFilter
