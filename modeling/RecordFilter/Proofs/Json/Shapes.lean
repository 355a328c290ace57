import RecordFilter.Proofs.Json.Skipping
import RecordFilter.Proofs.Json.Writing

/-!
# What the shapes make of a document

Each shape of a program's data is read straight from a text.  Beside each reader stands a function
on documents, and the reader makes of every spelling of a document what this function makes of the
document (`Takes`).  So the text may be forgotten: two spellings of one document are read alike, and
a property of everything that is read is one of the documents.

* `takes_foldItems`: the loop over the items of a bracket is a fold over the documents in it.
* `takes_items`, `takes_list`: an array is read item by item.
* `takes_document`: any JSON value.
* `takes_choice`: a word, or an object whose only member is the word, with null.
* `toOption_complete`: a whole text that spells a document.
-/

namespace RecordFilter.Json

open Reader
open Spelling (Blanks exactly)

variable {α β σ : Type}

/-! ## Items between brackets -/

section Items

variable {close : Char} {item : σ → Reader σ} {sp : β → Spelling} {step : σ → β → Option σ}

/-- Behind an item and a comma, the loop goes on with the state that the item left. -/
theorem foldFrom_of_comma (hclose : close = ']' ∨ close = '\x7d') {state state' : σ}
    {s between t : List Char} (hread : (item state).read s = .ok (state', between))
    (hcomma : Spelling.mark ',' between t) :
    foldFrom close item state s = foldFrom close item state' t := by
  have hne : ',' ≠ close := by rcases hclose with rfl | rfl <;> decide
  rw [foldFrom_eq, hread]
  simp only [skipBlanks_of_blanks (blanks_of_mark hcomma),
    skipBlanks_cons (show isBlank ',' = false by decide), if_neg hne, if_true]

/-- Behind an item and the closing bracket, the loop ends with the state that the item left. -/
theorem foldFrom_of_close (hclose : close = ']' ∨ close = '\x7d') {state state' : σ}
    {s between rest : List Char} (hread : (item state).read s = .ok (state', between))
    (hmark : Spelling.mark close between rest) :
    foldFrom close item state s = .ok (state', rest) := by
  rw [foldFrom_eq, hread]
  simp only [skipBlanks_of_blanks (blanks_of_mark hmark), skipBlanks_cons (isBlank_close hclose),
    if_true]

theorem gives_foldFrom (hclose : close = ']' ∨ close = '\x7d') {b : β} {bs : List β}
    (h : ∀ d ∈ b :: bs, ∀ state, Takes (item state) (sp d) (step state d)) (state : σ)
    {s between rest : List Char} (hs : sp b s between)
    (hbetween : Spelling.behind close (bs.map sp) between rest) :
    Gives (foldFrom close item state s) ((b :: bs).foldlM step state) rest := by
  induction bs generalizing b state s between with
  | nil =>
    have hread := h b List.mem_cons_self state s between hs (delimits_of_behind hclose hbetween)
    rw [List.foldlM_cons]
    cases hstep : step state b with
    | none =>
      obtain ⟨e, he⟩ := gives_none.mp (hstep ▸ hread)
      exact ⟨e, by rw [foldFrom_eq, he]⟩
    | some state' =>
      rw [hstep] at hread
      exact foldFrom_of_close hclose hread hbetween
  | cons b' bs ih =>
    have hread := h b List.mem_cons_self state s between hs (delimits_of_behind hclose hbetween)
    obtain ⟨t, hcomma, u, hb', hbs⟩ := hbetween
    rw [List.foldlM_cons]
    cases hstep : step state b with
    | none =>
      obtain ⟨e, he⟩ := gives_none.mp (hstep ▸ hread)
      exact ⟨e, by rw [foldFrom_eq, he]⟩
    | some state' =>
      rw [hstep] at hread
      rw [foldFrom_of_comma hclose hread hcomma]
      exact ih (fun d hd => h d (List.mem_cons_of_mem _ hd)) state' hb' hbs

/-- The loop over the items of a bracket makes of them what the step makes of one after the
other. -/
theorem takes_foldItems (hclose : close = ']' ∨ close = '\x7d') {bs : List β}
    (h : ∀ b ∈ bs, ∀ state, Takes (item state) (sp b) (step state b)) (hsp : ∀ b, Opens (sp b))
    (state : σ) :
    Takes (foldItems close item state) (Spelling.inside close (bs.map sp))
      (bs.foldlM step state) := by
  intro s rest hs _
  cases bs with
  | nil =>
    rw [foldItems, read_onNext_of_blanks (blanks_of_mark hs) (isBlank_close hclose), if_pos rfl]
    exact read_map_of_ok (read_next_cons _ _) _
  | cons b bs =>
    obtain ⟨between, hb, hbs⟩ := hs
    obtain ⟨c, t, hblanks, hc, hsquare, hcurly, ht⟩ := hsp b s between hb
    have hne : c ≠ close := by rcases hclose with rfl | rfl <;> assumption
    have hread : (foldItems close item state).read s = foldFrom close item state (c :: t) := by
      rw [foldItems, read_onNext_of_blanks hblanks hc, if_neg hne]
    rw [hread]
    exact gives_foldFrom hclose h state ht hbs

end Items

/-- Putting each item in front of those before it, in the order of the items, reverses them. -/
theorem foldlM_cons_eq (f : β → Option α) (bs : List β) (taken : List α) :
    bs.foldlM (fun taken b => (f b).map (· :: taken)) taken =
      (bs.mapM f).map fun as => as.reverse ++ taken := by
  induction bs generalizing taken with
  | nil => rfl
  | cons b bs ih =>
    rw [List.foldlM_cons, List.mapM_cons]
    cases f b with
    | none => rfl
    | some a =>
      have hbs := ih (a :: taken)
      cases hmap : bs.mapM f with
      | none =>
        rw [hmap] at hbs
        exact hbs
      | some as =>
        rw [hmap] at hbs
        simpa using hbs

/-- The items of a bracket are read into a list, unless one of them is refused. -/
theorem takes_items {close : Char} (hclose : close = ']' ∨ close = '\x7d') {item : Reader α}
    {sp : β → Spelling} {f : β → Option α} {bs : List β} (h : ∀ b ∈ bs, Takes item (sp b) (f b))
    (hsp : ∀ b, Opens (sp b)) :
    Takes (items close item) (Spelling.inside close (bs.map sp)) (bs.mapM f) := by
  have hstep : ∀ b ∈ bs, ∀ taken : List α,
      Takes ((· :: taken) <$> item) (sp b) ((f b).map (· :: taken)) :=
    fun b hb taken => (h b hb).map _
  have hfold := (takes_foldItems hclose hstep hsp []).map List.reverse
  rw [foldlM_cons_eq, Option.map_map] at hfold
  simpa [items, Function.comp_def] using hfold

/-! ## Scalars -/

theorem token?_of_toInteger? {n : Numeral} {k : Int} (h : n.toInteger? = some k) :
    n.token? = some (.integer k) := by
  rw [Numeral.token?, h]

theorem token?_of_toInteger?_eq_none {n : Numeral} (h : n.toInteger? = none) :
    n.token? = n.toFloat?.map .float := by
  rw [Numeral.token?, h]

/-- What is made of the token of a number is made of an integer or of a number of the format. -/
theorem bind_token? (n : Numeral) (g : Token → Option α) :
    n.token?.bind g = match n.toInteger? with
      | some k => g (.integer k)
      | none => n.toFloat?.bind fun x => g (.float x) := by
  cases h : n.toInteger? with
  | some k => rw [token?_of_toInteger? h, Option.bind_some]
  | none => rw [token?_of_toInteger?_eq_none h, Option.bind_map]; rfl

theorem bind_token?_eq_none {g : Token → Option α} (hinteger : ∀ k, g (.integer k) = none)
    (hfloat : ∀ x, g (.float x) = none) (n : Numeral) : n.token?.bind g = none := by
  rw [bind_token?]
  cases n.toInteger? with
  | some k => exact hinteger k
  | none =>
    cases n.toFloat? with
    | none => rfl
    | some x => exact hfloat x

namespace Token

/-- The text of a string. -/
def string? : Token → Option String
  | string s => some s
  | _ => none

/-- The truth value. -/
def truth? : Token → Option Bool
  | boolean b => some b
  | _ => none

/-- The integer of a type with the given range. -/
def integer? (ofInt? : Int → Option α) : Token → Option α
  | integer n => ofInt? n
  | _ => none

/-- The token is null. -/
def null? : Token → Option Unit
  | null => some ()
  | _ => none

/-- The given outcome behind the bracket of an array or an object, and otherwise what is made of the
token. -/
def bracketOr (o : Option α) (scalar? : Token → Option α) : Token → Option α
  | array | object => o
  | t => scalar? t

/-- The given outcome behind the bracket of an array, and nothing otherwise. -/
def array? (o : Option α) : Token → Option α
  | array => o
  | _ => none

end Token

namespace Document

/-- The text of a string. -/
def string? : Document → Option String
  | string text => text
  | _ => none

/-- The truth value. -/
def truth? : Document → Option Bool
  | boolean b => some b
  | _ => none

/-- The integer of a type with the given range. -/
def integer? (ofInt? : Int → Option α) : Document → Option α
  | number n => n.toInteger?.bind ofInt?
  | _ => none

/-- The document is null. -/
def null? : Document → Option Unit
  | null => some ()
  | _ => none

theorem first?_number {n : Numeral} {t : Token} (h : (number n).first? = some t) :
    (∃ k, t = .integer k) ∨ ∃ x, t = .float x := by
  change n.token? = some t at h
  cases hn : n.toInteger? with
  | some k =>
    rw [token?_of_toInteger? hn] at h
    exact Or.inl ⟨k, (Option.some_inj.mp h).symm⟩
  | none =>
    rw [token?_of_toInteger?_eq_none hn] at h
    obtain ⟨x, -, hx⟩ := Option.map_eq_some_iff.mp h
    exact Or.inr ⟨x, hx.symm⟩

/-- Only an array starts with the bracket of one. -/
theorem eq_array_of_first? {d : Document} (h : d.first? = some .array) :
    ∃ items, d = array items := by
  cases d with
  | array items => exact ⟨items, rfl⟩
  | number n =>
    rcases first?_number h with ⟨k, hk⟩ | ⟨x, hx⟩
    · cases hk
    · cases hx
  | string text => cases text <;> cases h
  | _ => cases h

/-- Only an object starts with the bracket of one. -/
theorem eq_object_of_first? {d : Document} (h : d.first? = some .object) :
    ∃ members, d = object members := by
  cases d with
  | object members => exact ⟨members, rfl⟩
  | number n =>
    rcases first?_number h with ⟨k, hk⟩ | ⟨x, hx⟩
    · cases hk
    · cases hx
  | string text => cases text <;> cases h
  | _ => cases h

/-- Behind a token that opens no bracket nothing is left of a document. -/
theorem behindFirst_of_first? {d : Document} {t : Token} (h : d.first? = some t)
    (harray : t ≠ .array) (hobject : t ≠ .object) : d.behindFirst = exactly [] := by
  cases d with
  | array items => exact absurd (Option.some_inj.mp h).symm harray
  | object members => exact absurd (Option.some_inj.mp h).symm hobject
  | _ => rfl

/-- What is made of a document by its first token alone: a scalar becomes something, or the token is
refused. -/
theorem takes_token {d : Document} {f : Token → Reader α} {g : Token → Option α}
    (h : ∀ t, (∃ a, f t = pure a ∧ g t = some a ∧ t ≠ .array ∧ t ≠ .object) ∨
      ∃ e, f t = fail e ∧ g t = none) :
    Takes (token >>= f) d.Spelled (d.first?.bind g) := by
  refine takes_token_bind fun t ht => ?_
  rcases h t with ⟨a, hf, hg, harray, hobject⟩ | ⟨e, hf, hg⟩
  · rw [hf, hg]
    rw [behindFirst_of_first? ht harray hobject]
    exact takes_pure a
  · rw [hf, hg]
    exact takes_fail e _

theorem takes_string (d : Document) : Takes Reader.string d.Spelled d.string? := by
  have hd : d.first?.bind Token.string? = d.string? := by
    cases d with
    | number n => exact bind_token?_eq_none (fun _ => rfl) (fun _ => rfl) n
    | string text => cases text <;> rfl
    | _ => rfl
  rw [← hd]
  refine takes_token fun t => ?_
  cases t with
  | string s => exact Or.inl ⟨s, rfl, rfl, by simp, by simp⟩
  | _ => exact Or.inr ⟨_, rfl, rfl⟩

theorem takes_truth (d : Document) : Takes Reader.truth d.Spelled d.truth? := by
  have hd : d.first?.bind Token.truth? = d.truth? := by
    cases d with
    | number n => exact bind_token?_eq_none (fun _ => rfl) (fun _ => rfl) n
    | string text => cases text <;> rfl
    | _ => rfl
  rw [← hd]
  refine takes_token fun t => ?_
  cases t with
  | boolean b => exact Or.inl ⟨b, rfl, rfl, by simp, by simp⟩
  | _ => exact Or.inr ⟨_, rfl, rfl⟩

theorem takes_unit (d : Document) : Takes Reader.unit d.Spelled d.null? := by
  have hd : d.first?.bind Token.null? = d.null? := by
    cases d with
    | number n => exact bind_token?_eq_none (fun _ => rfl) (fun _ => rfl) n
    | string text => cases text <;> rfl
    | _ => rfl
  rw [← hd]
  refine takes_token fun t => ?_
  cases t with
  | null => exact Or.inl ⟨(), rfl, rfl, by simp, by simp⟩
  | _ => exact Or.inr ⟨_, rfl, rfl⟩

theorem takes_integer (name : String) (ofInt? : Int → Option α) (d : Document) :
    Takes (Reader.integer name ofInt?) d.Spelled (d.integer? ofInt?) := by
  have hd : d.first?.bind (Token.integer? ofInt?) = d.integer? ofInt? := by
    cases d with
    | number n =>
      change n.token?.bind (Token.integer? ofInt?) = n.toInteger?.bind ofInt?
      rw [bind_token?]
      cases n.toInteger? with
      | some k => rfl
      | none => cases n.toFloat? <;> rfl
    | string text => cases text <;> rfl
    | _ => rfl
  rw [← hd]
  refine takes_token fun t => ?_
  cases t with
  | integer n =>
    cases hn : ofInt? n with
    | none => exact Or.inr ⟨.mismatch (.range n name), by simp only [hn]; rfl, hn⟩
    | some a => exact Or.inl ⟨a, by simp only [hn], hn, by simp, by simp⟩
  | _ => exact Or.inr ⟨_, rfl, rfl⟩

/-- Where null may stand, null is nothing and anything else is read as without it. -/
def nullable? (f : Document → Option α) : Document → Option (Option α)
  | null => some none
  | d => (f d).map some

theorem nullable?_of_ne {f : Document → Option α} {d : Document} (h : d ≠ null) :
    d.nullable? f = (f d).map some := by
  cases d with
  | null => exact absurd rfl h
  | _ => rfl

theorem takes_nullable {r : Reader α} {f : Document → Option α} {d : Document}
    (h : Takes r d.Spelled (f d)) : Takes (nullable r) d.Spelled (d.nullable? f) := by
  intro s rest hs hrest
  by_cases hnull : d = null
  · subst hnull
    rw [Spelled] at hs
    obtain ⟨t, hblanks, rfl⟩ := hs
    rw [nullable, read_onNext_of_blanks hblanks (by decide), if_pos rfl]
    exact read_map_of_ok (read_word ['n', 'u', 'l', 'l'] rest) _
  · obtain ⟨c, t, hblanks, hc, ht⟩ := exists_cons_of_spelled hs
    have hn : c ≠ 'n' := fun hn => hnull (Starts.eq_null (hn ▸ hc))
    rw [nullable, read_onNext_of_blanks hblanks hc.isBlank, if_neg hn, nullable?_of_ne hnull]
    exact (h _ rest ht hrest).map some

/-! ## Arrays -/

/-- The items of an array, if each of them is one. -/
def list? (f : Document → Option α) : Document → Option (List α)
  | array items => items.mapM f
  | _ => none

theorem takes_list {item : Reader α} {f : Document → Option α}
    (h : ∀ d : Document, Takes item d.Spelled (f d)) (d : Document) :
    Takes (list (some item)) d.Spelled (d.list? f) := by
  have hd : d.first?.bind (Token.array? (d.list? f)) = d.list? f := by
    cases d with
    | number n => exact bind_token?_eq_none (fun _ => rfl) (fun _ => rfl) n
    | string text => cases text <;> rfl
    | _ => rfl
  rw [← hd]
  refine takes_token_bind fun t ht => ?_
  cases t with
  | array =>
    obtain ⟨items, rfl⟩ := eq_array_of_first? ht
    exact takes_items (Or.inl rfl) (fun d _ => h d) opens_spelled
  | _ => exact takes_mismatched _ _

/-- An array is refused where no bracket may open, and anything else is no array. -/
theorem takes_list_none (d : Document) :
    Takes (list (none : Option (Reader α))) d.Spelled none := by
  have hd : (d.first?.bind fun _ => (none : Option (List α))) = none := by
    cases d.first? <;> rfl
  rw [← hd]
  refine takes_token_bind fun t _ => ?_
  cases t with
  | array => exact takes_fail _ _
  | _ => exact takes_mismatched _ _

/-! ## Any value -/

/-- The member of an object with its name and its value. -/
def pair? (f : Document → Option Json) (m : Option String × Document) : Option (String × Json) :=
  m.1.bind fun name => (f m.2).map (name, ·)

/-- The value of a document whose items, if it has any, have the given values. -/
def jsonOf? (f : Option (Document → Option Json)) : Document → Option Json
  | array items => f.bind fun f => (items.mapM f).map .array
  | object members => f.bind fun f => (members.mapM (pair? f)).map .object
  | d => d.first?.bind Token.scalar?

/-- The value of a document in which at most the given number of brackets are open at once. -/
def json? : Nat → Document → Option Json
  | 0 => jsonOf? none
  | n + 1 => jsonOf? (some (json? n))

theorem takes_entry {value : Reader Json} {f : Document → Option Json}
    (h : ∀ d : Document, Takes value d.Spelled (f d)) (m : Option String × Document) :
    Takes (entry value) (Spelling.member m.1 m.2.Spelled) (pair? f m) := by
  intro s rest hs hrest
  obtain ⟨t, hname, u, hcolon, hvalue⟩ := hs
  refine (gives_key hname).bind fun name _ => ?_
  rw [read_bind_of_ok (read_mark (by decide) hcolon)]
  exact (h m.2 u rest hvalue hrest).map (name, ·)

theorem takes_valueOf {item : Option (Reader Json)} {f : Option (Document → Option Json)}
    (h : Option.Rel (fun r f => ∀ d : Document, Takes r d.Spelled (f d)) item f) (d : Document) :
    Takes (valueOf item) d.Spelled (d.jsonOf? f) := by
  have hd : d.first?.bind (Token.bracketOr (d.jsonOf? f) Token.scalar?) = d.jsonOf? f := by
    cases d with
    | number n =>
      change n.token?.bind (Token.bracketOr _ Token.scalar?) = n.token?.bind Token.scalar?
      rw [bind_token?, bind_token?]
      cases n.toInteger? <;> rfl
    | string text => cases text <;> rfl
    | _ => rfl
  rw [← hd]
  refine takes_token_bind fun t ht => ?_
  cases t with
  | array =>
    obtain ⟨items, rfl⟩ := eq_array_of_first? ht
    cases h with
    | none => exact takes_fail _ _
    | some hf =>
      exact (takes_items (Or.inl rfl) (fun d _ => hf d) opens_spelled).map Json.array
  | object =>
    obtain ⟨members, rfl⟩ := eq_object_of_first? ht
    cases h with
    | none => exact takes_fail _ _
    | some hf =>
      exact (takes_items (Or.inr rfl) (fun m _ => takes_entry hf m)
        fun m => opens_member m.1 _).map Json.object
  | _ =>
    rw [behindFirst_of_first? ht (by simp) (by simp)]
    exact takes_pure _

/-- Any value is read as that of its document. -/
theorem takes_document (n : Nat) (d : Document) :
    Takes (Reader.document n) d.Spelled (json? n d) := by
  induction n generalizing d with
  | zero => exact takes_valueOf .none d
  | succ n ih => exact takes_valueOf (.some ih) d

/-! ## Choices -/

/-- The meaning of the word of a choice, which may be the only member of an object, with null. -/
def choice? (choices : List (String × α)) (mayOpen : Bool) : Document → Option α
  | string text => text.bind (choices.lookup ·)
  | object [(name, null)] => if mayOpen then name.bind (choices.lookup ·) else none
  | _ => none

theorem gives_chosen (choices : List (String × α)) (word : String) (rest : List Char) :
    Gives ((chosen choices word).read rest) (choices.lookup word) rest := by
  rw [chosen]
  cases choices.lookup word with
  | none => exact ⟨_, rfl⟩
  | some a => exact rfl

theorem choice?_object (choices : List (String × α)) (name : Option String) (d : Document)
    (ms : List (Option String × Document)) :
    (object ((name, d) :: ms)).choice? choices true =
      (name.bind (choices.lookup ·)).bind fun a =>
        d.null?.bind fun _ => if ms.isEmpty then some a else none := by
  have hnone : (name.bind (choices.lookup ·)).bind (fun _ => (none : Option α)) = none := by
    cases name.bind (choices.lookup ·) <;> rfl
  cases d with
  | null =>
    cases ms with
    | nil => exact (Option.bind_fun_some _).symm
    | cons m ms => exact hnone.symm
  | _ => exact hnone.symm

/-- The word of a choice in an object that has just been opened. -/
theorem gives_wrapped (choices : List (String × α)) {ms : List (Option String × Document)}
    {s rest : List Char}
    (hs : Spelling.inside '\x7d' (ms.map fun m => Spelling.member m.1 m.2.Spelled) s rest) :
    Gives ((wrapped choices).read s) ((object ms).choice? choices true) rest := by
  cases ms with
  | nil =>
    refine ⟨.malformed, ?_⟩
    rw [wrapped, read_bind, read_bind, key, read_onNext_of_blanks (blanks_of_mark hs) (by decide)]
    rfl
  | cons m ms =>
    obtain ⟨name, d⟩ := m
    obtain ⟨u, ⟨t, hname, v, hcolon, hd⟩, hbehind⟩ := hs
    have hword : Gives ((key false >>= chosen choices).read s) (name.bind (choices.lookup ·)) t :=
      (gives_key hname).bind fun word _ => gives_chosen choices word t
    have hnull := takes_unit d v u hd (delimits_of_behind (Or.inr rfl) hbehind)
    rw [choice?_object]
    refine hword.bind fun a _ => ?_
    rw [read_bind_of_ok (read_mark (by decide) hcolon)]
    refine hnull.bind fun _ _ => ?_
    cases ms with
    | nil =>
      rw [read_bind_of_ok (read_mark (by decide) hbehind)]
      exact rfl
    | cons m ms =>
      obtain ⟨w, hcomma, -⟩ := hbehind
      obtain ⟨e, he⟩ := exists_read_mark_error (c := '\x7d') (by decide) (by decide)
        (blanks_of_mark hcomma)
      exact ⟨e, by rw [read_bind, he]⟩

/-- A choice is read from its word, or from an object where a bracket may open. -/
theorem takes_choice (choices : List (String × α)) (mayOpen : Bool) (d : Document) :
    Takes (choice choices mayOpen) d.Spelled (d.choice? choices mayOpen) := by
  intro s rest hs _
  cases d with
  | string text =>
    rw [Spelled] at hs
    obtain ⟨t, hblanks, hcontent⟩ := exists_of_string hs
    rw [choice, read_onNext_of_blanks hblanks (by decide), if_pos rfl]
    exact (gives_quoted hcontent).bind fun word _ => gives_chosen choices word rest
  | object ms =>
    rw [Spelled, spelledMembers_eq_map] at hs
    obtain ⟨t, hmark, hmembers⟩ := hs
    rw [choice, read_onNext_of_blanks (blanks_of_mark hmark) (by decide), if_neg (by decide),
      if_pos rfl, read_bind_of_ok (read_symbol_cons _ _)]
    cases mayOpen with
    | true => exact gives_wrapped choices hmembers
    | false =>
      have hnone : (object ms).choice? choices false = none := by
        unfold choice?
        split
        · rename_i heq
          cases heq
        · rfl
        · rfl
      rw [hnone]
      exact ⟨.malformed, rfl⟩
  | _ =>
    obtain ⟨c, t, hblanks, hc, -⟩ := exists_cons_of_spelled hs
    have hquote : c ≠ '\"' := by
      rintro rfl
      obtain ⟨text, h⟩ := hc.exists_string
      cases h
    have hcurly : c ≠ '\x7b' := by
      rintro rfl
      obtain ⟨members, h⟩ := hc.exists_object
      cases h
    rw [choice, read_onNext_of_blanks hblanks hc.isBlank, if_neg hquote, if_neg hcurly]
    exact ⟨.malformed, rfl⟩

end Document

/-! ## Whole texts -/

/-- A whole text that spells a document is read as what the reader makes of this document. -/
theorem toOption_complete {r : Reader α} {d : Document} {o : Option α} (h : Takes r d.Spelled o)
    {s : String} (hs : d.IsSpelledBy s) : (r.complete s).toOption = o := by
  obtain ⟨between, hd, hblanks⟩ := hs
  have hread := h _ between hd (delimits_of_blanks hblanks delimits_nil)
  rw [complete]
  cases o with
  | none =>
    obtain ⟨e, he⟩ := gives_none.mp hread
    rw [he]
    rfl
  | some a =>
    have hnil : skipBlanks between = [] := skipBlanks_of_blanks hblanks
    rw [gives_some.mp hread]
    simp only [if_pos hnil]
    rfl

end RecordFilter.Json
