import RecordFilter.Proofs.Json.Integers
import RecordFilter.Proofs.Json.Shapes

/-!
# The values that documents stand for

A document stands for a value by what it looks like, item by item (`Document.value?`).  Null and
objects stand for none, and neither does anything that holds one of them.

A value is read through the JSON that its text denotes, in which every bracket counts against a
limit.  So a document is read as the value it stands for if its brackets do not nest too deep, and
refused otherwise (`takes_reader`).
-/

namespace RecordFilter.Json

open Reader
open Spelling (exactly)

variable {α β : Type}

theorem Takes.bind {r : Reader α} {p : Spelling} {o : Option α} (h : Takes r p o)
    {f : α → Reader β} {g : α → Option β}
    (hf : ∀ a, o = some a → Takes (f a) (exactly []) (g a)) : Takes (r >>= f) p (o.bind g) :=
  fun s rest hs hrest => (h s rest hs hrest).bind fun a ha => hf a ha rest rest rfl hrest

namespace Document

/-! ## Nesting -/

mutual

/-- The greatest number of brackets that are open at once in a document. -/
def depth : Document → Nat
  | array items => depths items + 1
  | object members => memberDepths members + 1
  | _ => 0

/-- The greatest number of brackets that are open at once in one of the documents. -/
def depths : List Document → Nat
  | [] => 0
  | d :: ds => max d.depth (depths ds)

/-- The greatest number of brackets that are open at once in one of the members of an object. -/
def memberDepths : List (Option String × Document) → Nat
  | [] => 0
  | (_, d) :: ms => max d.depth (memberDepths ms)

end

/-! ## Values -/

mutual

/-- The value that a document stands for. -/
def value? : Document → Option Value
  | null => none
  | boolean b => some (.boolean b)
  | number n => n.value?
  | string text => text.map .string
  | array items => (values? items).map .list
  | object _ => none

/-- The values that the documents stand for, if each of them stands for one. -/
def values? : List Document → Option (List Value)
  | [] => some []
  | d :: ds => d.value?.bind fun v => (values? ds).map (v :: ·)

end

/-- The value that a document stands for if no more than the given number of brackets are open at
once in it. -/
def valueWithin? (brackets : Nat) (d : Document) : Option Value :=
  if d.depth ≤ brackets then d.value? else none

theorem ofJsons?_cons (j : Json) (js : List Json) : Value.ofJsons? (j :: js) =
    (Value.ofJson? j).bind fun v => (Value.ofJsons? js).map (v :: ·) := by
  rw [Value.ofJsons?]
  cases Value.ofJson? j with
  | none => rfl
  | some v => cases Value.ofJsons? js <;> simp

mutual

/-- The JSON of a document is that of the value it stands for. -/
theorem bind_json? : ∀ (d : Document) (n : Nat),
    (json? n d).bind Value.ofJson? = d.valueWithin? n
  | null, n => by cases n <;> rfl
  | boolean b, n => by cases n <;> rfl
  | number k, n => by cases n <;> rfl
  | string text, n => by cases n <;> cases text <;> rfl
  | array items, 0 => by rw [valueWithin?, depth, if_neg (by omega)]; rfl
  | array items, n + 1 => by
    have hitems := bind_jsons? items n
    have hjson : json? (n + 1) (array items) = (items.mapM (json? n)).map .array := rfl
    have hmap : (items.mapM (json? n)).bind (Value.ofJson? ∘ Json.array) =
        ((items.mapM (json? n)).bind Value.ofJsons?).map Value.list := by
      cases items.mapM (json? n) <;> rfl
    rw [hjson, Option.bind_map, hmap, hitems, valueWithin?, depth, value?]
    by_cases h : depths items ≤ n
    · rw [if_pos h, if_pos (Nat.succ_le_succ h)]
    · rw [if_neg h, if_neg fun h' => h (Nat.le_of_succ_le_succ h')]
      rfl
  | object members, 0 => by rw [valueWithin?, value?, ite_self]; rfl
  | object members, n + 1 => by
    have hjson : json? (n + 1) (object members) =
        (members.mapM (pair? (json? n))).map .object := rfl
    rw [valueWithin?, value?, ite_self, hjson]
    cases members.mapM (pair? (json? n)) <;> rfl

theorem bind_jsons? : ∀ (ds : List Document) (n : Nat),
    (ds.mapM (json? n)).bind Value.ofJsons? = if depths ds ≤ n then values? ds else none
  | [], n => by rw [depths, if_pos (Nat.zero_le n)]; rfl
  | d :: ds, n => by
    have hd := bind_json? d n
    have hds := bind_jsons? ds n
    have hsplit : ((d :: ds).mapM (json? n)).bind Value.ofJsons? =
        ((json? n d).bind Value.ofJson?).bind fun v =>
          ((ds.mapM (json? n)).bind Value.ofJsons?).map (v :: ·) := by
      rw [List.mapM_cons]
      cases json? n d with
      | none => rfl
      | some j =>
        cases ds.mapM (json? n) with
        | none =>
          show none = (Value.ofJson? j).bind fun _ => none
          rw [Option.bind_fun_none]
        | some js => exact ofJsons?_cons j js
    rw [hsplit, hd, hds, valueWithin?, depths, values?]
    by_cases h : d.depth ≤ n
    · by_cases h' : depths ds ≤ n
      · rw [if_pos h, if_pos h', if_pos (Nat.max_le.mpr ⟨h, h'⟩)]
      · rw [if_pos h, if_neg h', if_neg fun hmax => h' (Nat.max_le.mp hmax).2]
        cases d.value? <;> rfl
    · rw [if_neg h, if_neg fun hmax => h (Nat.max_le.mp hmax).1, Option.bind_none]

end

/-- A document is read as the value it stands for, unless its brackets nest too deep. -/
theorem takes_reader (n : Nat) (d : Document) :
    Takes (Value.reader n) d.Spelled (d.valueWithin? n) := by
  rw [← bind_json?]
  refine (takes_document n d).bind fun j _ => ?_
  cases Value.ofJson? j with
  | none => exact takes_mismatched _ _
  | some v => exact takes_pure v

end Document

end RecordFilter.Json
