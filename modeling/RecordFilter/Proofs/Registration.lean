import RecordFilter.Schema
import Mathlib.Data.List.Induction
import Mathlib.Data.List.Nodup

/-!
# Schemas and the registrations they come from

A schema is built by registering names one after the other, and a name may be registered again.
What comes of it can be told from the registrations alone: the names stand in the order of their
first registration (`firstNames`), each once, and each has the accessor of its last one
(`lastAccessor?`).  `Answers` says from the registrations what a property stands for.

## Why the two halves of a schema stay together

A search goes through the index and, failing that, through the fields, so both have to tell the
same story.  What one registration does is said once for each of them: to the names
(`names_register`, a new name goes to the end and a known one changes nothing) and to the search by
name (`find?_register`).  What a sequence does follows by adding the registrations at the end.

* `names_ofList`, `find?_ofList`: the fields of a sequence of registrations.
* `resolve_eq_some_iff`, `resolve_eq_none_iff`: what a property stands for in any schema.
* `ofList_agrees`: both halves of the schema, and the answers to all properties, from the
  registrations.
-/

namespace RecordFilter.Schema

variable {ρ : Type}

/-! ## Names and their places -/

/-- The index leads from a name to its place among the names. -/
theorem index_eq_some_iff {schema : Schema ρ} {name : String} {i : Nat} :
    schema.index[name]? = some i ↔ schema.names[i]? = some name := by
  rw [schema.index_iff, names, List.getElem?_map, Option.map_eq_some_iff, Array.getElem?_toList]

theorem mem_names_iff {schema : Schema ρ} {name : String} :
    name ∈ schema.names ↔ ∃ i, schema.index[name]? = some i := by
  simp only [List.mem_iff_getElem?, index_eq_some_iff]

theorem nodup_names (schema : Schema ρ) : schema.names.Nodup := by
  rw [List.nodup_iff_getElem?_ne_getElem?]
  intro i j hij hj h
  have hplace := index_eq_some_iff.mpr (List.getElem?_eq_getElem hj)
  rw [List.getElem?_eq_getElem hj, ← index_eq_some_iff, hplace] at h
  exact Nat.ne_of_gt hij (Option.some_inj.mp h)

/-! ## One registration -/

theorem names_replace (schema : Schema ρ) (i : Nat) (hi : i < schema.fields.size)
    (accessor : Accessor ρ) : (schema.replace i hi accessor).names = schema.names := by
  have hlength : i < (schema.fields.toList.map Field.name).length := by simpa using hi
  have hname : schema.fields[i].name = (schema.fields.toList.map Field.name)[i] := by simp
  rw [names, names, replace, Array.toList_set, List.map_set]
  dsimp only
  rw [hname]
  exact List.set_getElem_self hlength

/-- A new name goes to the end, and a known one changes nothing. -/
theorem names_register (schema : Schema ρ) (name : String) (accessor : Accessor ρ) :
    (schema.register name accessor).names =
      if name ∈ schema.names then schema.names else schema.names ++ [name] := by
  unfold register
  split
  · rename_i i h
    rw [names_replace, if_pos (mem_names_iff.mpr ⟨i, h⟩)]
  · rename_i h
    have hnew : name ∉ schema.names := by
      rw [mem_names_iff, h]
      simp
    rw [if_neg hnew, names, append, Array.toList_push, List.map_append]
    rfl

/-! ## Resolution -/

/-- A property stands for the field of exactly its name or, if there is none and the case may
differ, for the first field whose name is equal to it up to case. -/
theorem resolve_eq_some_iff {schema : Schema ρ} {property : String} {ignoresCase : Bool}
    {f : Field ρ} :
    schema.resolve property ignoresCase = some f ↔
      schema.find? property = some f ∨
        (schema.find? property = none ∧ ignoresCase = true ∧
          Text.sameIgnoringCase f.name property = true ∧
          ∃ before after, schema.fields.toList = before ++ f :: after ∧
            ∀ g ∈ before, Text.sameIgnoringCase g.name property = false) := by
  rw [resolve]
  cases schema.find? property with
  | some g => simp
  | none =>
    cases ignoresCase with
    | false => simp
    | true =>
      rw [if_pos rfl, ← Array.find?_toList, List.find?_eq_some_iff_append]
      simp

theorem resolve_eq_none_iff {schema : Schema ρ} {property : String} {ignoresCase : Bool} :
    schema.resolve property ignoresCase = none ↔
      schema.find? property = none ∧
        (ignoresCase = true → ∀ f ∈ schema.fields,
          Text.sameIgnoringCase f.name property = false) := by
  rw [resolve]
  cases schema.find? property with
  | some g => simp
  | none =>
    cases ignoresCase with
    | false => simp
    | true => simp

/-! ## What registrations say -/

/-- The names in the order of their first registration. -/
def firstNames (entries : List (String × Accessor ρ)) : List String :=
  (entries.map Prod.fst).eraseDups

/-- The accessor in the last registration of a name. -/
def lastAccessor? (entries : List (String × Accessor ρ)) (name : String) : Option (Accessor ρ) :=
  entries.reverse.lookup name

/-- The field that a property stands for after the given registrations. -/
inductive Answers (entries : List (String × Accessor ρ)) (property : String) (ignoresCase : Bool) :
    Option (Field ρ) → Prop where
  /-- The name has been registered, and its last registration decides. -/
  | named {accessor : Accessor ρ} : lastAccessor? entries property = some accessor →
      Answers entries property ignoresCase (some ⟨property, accessor⟩)
  /-- The name has not been registered, the case of letters may differ, and of the names that differ
  in nothing else this one was registered first. -/
  | folded {before after : List String} {name : String} {accessor : Accessor ρ} :
      property ∉ entries.map Prod.fst → ignoresCase = true →
      firstNames entries = before ++ name :: after →
      Text.sameIgnoringCase name property = true →
      (∀ other ∈ before, Text.sameIgnoringCase other property = false) →
      lastAccessor? entries name = some accessor →
      Answers entries property ignoresCase (some ⟨name, accessor⟩)
  /-- No name that has been registered will do. -/
  | unknown : property ∉ entries.map Prod.fst →
      (ignoresCase = true → ∀ name ∈ entries.map Prod.fst,
        Text.sameIgnoringCase name property = false) →
      Answers entries property ignoresCase none

theorem mem_firstNames_iff {entries : List (String × Accessor ρ)} {name : String} :
    name ∈ firstNames entries ↔ name ∈ entries.map Prod.fst :=
  List.mem_eraseDups

theorem lastAccessor?_eq_none_iff {entries : List (String × Accessor ρ)} {name : String} :
    lastAccessor? entries name = none ↔ name ∉ entries.map Prod.fst := by
  rw [lastAccessor?, List.lookup_eq_none_iff]
  simp only [List.mem_reverse, bne_iff_ne, List.mem_map, not_exists, not_and]
  exact forall₂_congr fun e _ => ne_comm

/-! ## A sequence of registrations -/

theorem ofList_concat (entries : List (String × Accessor ρ)) (e : String × Accessor ρ) :
    ofList (entries ++ [e]) = (ofList entries).register e.1 e.2 := by
  rw [ofList, List.foldl_append]
  rfl

theorem firstNames_concat (entries : List (String × Accessor ρ)) (e : String × Accessor ρ) :
    firstNames (entries ++ [e]) =
      if e.1 ∈ firstNames entries then firstNames entries else firstNames entries ++ [e.1] := by
  have hsplit : firstNames (entries ++ [e]) =
      firstNames entries ++ ([e.1].removeAll (entries.map Prod.fst)).eraseDups := by
    rw [firstNames, List.map_append, List.eraseDups_append]
    rfl
  by_cases h : e.1 ∈ entries.map Prod.fst
  · rw [hsplit, if_pos (mem_firstNames_iff.mpr h)]
    simp [List.removeAll, h]
  · rw [hsplit, if_neg (mt mem_firstNames_iff.mp h)]
    simp [List.removeAll, h, List.eraseDups_cons]

theorem lastAccessor?_concat (entries : List (String × Accessor ρ)) (e : String × Accessor ρ)
    (name : String) :
    lastAccessor? (entries ++ [e]) name =
      if name = e.1 then some e.2 else lastAccessor? entries name := by
  rw [lastAccessor?, List.reverse_concat, List.lookup_cons, ← lastAccessor?]
  by_cases h : name = e.1
  · simp [h]
  · rw [if_neg h, beq_eq_false_iff_ne.mpr h]

theorem names_ofList (entries : List (String × Accessor ρ)) :
    (ofList entries).names = firstNames entries := by
  induction entries using List.reverseRecOn with
  | nil => rfl
  | append_singleton entries e ih =>
    rw [ofList_concat, names_register, firstNames_concat, ih]

theorem find?_ofList (entries : List (String × Accessor ρ)) (name : String) :
    (ofList entries).find? name = (lastAccessor? entries name).map (Field.mk name) := by
  induction entries using List.reverseRecOn with
  | nil => exact find?_empty name
  | append_singleton entries e ih =>
    rw [ofList_concat, find?_register, lastAccessor?_concat, ih]
    by_cases h : name = e.1
    · simp [h]
    · simp [h]

theorem lastAccessor?_of_mem {entries : List (String × Accessor ρ)} {f : Field ρ}
    (h : f ∈ (ofList entries).fields) : lastAccessor? entries f.name = some f.accessor := by
  have hfind := find?_eq_some_iff.mpr ⟨h, rfl⟩
  rw [find?_ofList, Option.map_eq_some_iff] at hfind
  obtain ⟨accessor, haccessor, hf⟩ := hfind
  rw [haccessor, ← hf]

/-! ## The answers of a schema -/

theorem find?_ofList_eq_none_iff {entries : List (String × Accessor ρ)} {property : String} :
    (ofList entries).find? property = none ↔ property ∉ entries.map Prod.fst := by
  rw [find?_ofList, Option.map_eq_none_iff, lastAccessor?_eq_none_iff]

/-- A search through the fields, one after the other, goes through the names in the order of their
first registration, and what it finds has the accessor of the last one. -/
theorem exists_fields_eq_iff {entries : List (String × Accessor ρ)} {f : Field ρ}
    {P : String → Prop} :
    (∃ before after, (ofList entries).fields.toList = before ++ f :: after ∧
        ∀ g ∈ before, P g.name) ↔
      lastAccessor? entries f.name = some f.accessor ∧
        ∃ before after, firstNames entries = before ++ f.name :: after ∧
          ∀ name ∈ before, P name := by
  rw [← names_ofList, names]
  constructor
  · rintro ⟨before, after, hfields, hbefore⟩
    have hmem : f ∈ (ofList entries).fields := by
      rw [← Array.mem_toList_iff, hfields]
      simp
    refine ⟨lastAccessor?_of_mem hmem, before.map Field.name, after.map Field.name, ?_, ?_⟩
    · rw [hfields, List.map_append, List.map_cons]
    · exact List.forall_mem_map.mpr hbefore
  · rintro ⟨haccessor, before, after, hnames, hbefore⟩
    obtain ⟨fields, rest, hfields, rfl, hrest⟩ := List.map_eq_append_iff.mp hnames
    obtain ⟨g, others, rfl, hname, rfl⟩ := List.map_eq_cons_iff.mp hrest
    have hmem : g ∈ (ofList entries).fields := by
      rw [← Array.mem_toList_iff, hfields]
      simp
    have hsame := lastAccessor?_of_mem hmem
    rw [hname, haccessor, Option.some_inj] at hsame
    obtain rfl : f = g := by
      cases f
      cases g
      cases hname
      cases hsame
      rfl
    exact ⟨fields, others, hfields, List.forall_mem_map.mp hbefore⟩

/-- A property stands for what the registrations say. -/
theorem resolve_ofList_eq_iff {entries : List (String × Accessor ρ)} {property : String}
    {ignoresCase : Bool} {o : Option (Field ρ)} :
    (ofList entries).resolve property ignoresCase = o ↔
      Answers entries property ignoresCase o := by
  cases o with
  | none =>
    have hmem : ∀ {name : String}, name ∈ entries.map Prod.fst ↔
        ∃ f ∈ (ofList entries).fields, f.name = name := by
      intro name
      rw [← mem_firstNames_iff, ← names_ofList, names]
      simp
    rw [resolve_eq_none_iff, find?_ofList_eq_none_iff]
    constructor
    · rintro ⟨hnew, hall⟩
      refine .unknown hnew fun hcase name hname => ?_
      obtain ⟨f, hf, rfl⟩ := hmem.mp hname
      exact hall hcase f hf
    · intro h
      cases h with
      | unknown hnew hall =>
        exact ⟨hnew, fun hcase f hf => hall hcase _ (hmem.mpr ⟨f, hf, rfl⟩)⟩
  | some f =>
    rw [resolve_eq_some_iff, find?_ofList_eq_none_iff, find?_ofList, Option.map_eq_some_iff,
      exists_fields_eq_iff (P := fun name => Text.sameIgnoringCase name property = false)]
    constructor
    · rintro (⟨accessor, haccessor, rfl⟩ |
        ⟨hnew, hcase, hsame, haccessor, before, after, hnames, hbefore⟩)
      · exact .named haccessor
      · exact .folded hnew hcase hnames hsame hbefore haccessor
    · intro h
      cases h with
      | named haccessor => exact Or.inl ⟨_, haccessor, rfl⟩
      | folded hnew hcase hnames hsame hbefore haccessor =>
        exact Or.inr ⟨hnew, hcase, hsame, haccessor, _, _, hnames, hbefore⟩

/-- **A schema agrees with its registrations.**  After any sequence of registrations, the index leads
from a name to the place of the field of that name, and so never outside the fields; the names are
those that were registered, each once, in the order of first registration; and each field has the
accessor of the last registration of its name.  So a property stands for the last accessor of
exactly its name or, if its name was never registered and the case of letters may differ, for the
first registered of the names that are equal to it up to case, and otherwise for nothing. -/
theorem ofList_agrees (entries : List (String × Accessor ρ)) :
    (∀ (name : String) (i : Nat), (ofList entries).index[name]? = some i ↔
      ∃ f, (ofList entries).fields[i]? = some f ∧ f.name = name) ∧
    (∀ (name : String) (i : Nat), (ofList entries).index[name]? = some i →
      i < (ofList entries).fields.size) ∧
    (ofList entries).names = firstNames entries ∧ (ofList entries).names.Nodup ∧
    (∀ f ∈ (ofList entries).fields, lastAccessor? entries f.name = some f.accessor) ∧
    ∀ (property : String) (ignoresCase : Bool) (o : Option (Field ρ)),
      (ofList entries).resolve property ignoresCase = o ↔
        Answers entries property ignoresCase o := by
  refine ⟨fun name i => (ofList entries).index_iff, fun name i => lt_size_of_index,
    names_ofList entries, nodup_names _, fun f => lastAccessor?_of_mem, fun property _ o => ?_⟩
  exact resolve_ofList_eq_iff

end RecordFilter.Schema
