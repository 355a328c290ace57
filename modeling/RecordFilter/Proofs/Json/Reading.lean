import RecordFilter.Json.Shape

/-!
# Reading what was written

A text is written in front of whatever follows it, so a written text is a function on texts, a
`Writing`.  `Reads r w o` says what a reader makes of it: the value `o` and exactly the text that
follows, or, if there is no `o`, some error.  What follows a value is the end of the text, a comma
or a closing bracket (`Ends`), and nothing else is asked of it.

* `Reads.map`, `Reads.bind`: the outcome of a composed reader.
* `Folds`: the outcome of a loop over items, in which each one changes the state; `Folds.reads`
  says that the loop over the written items of a bracket has this outcome.
* `reads_items`, `reads_list`: an array is read item by item, and refused if one item is.
-/

namespace RecordFilter.Json.Reader

variable {α β σ : Type}

/-! ## Outcomes -/

/-- What may follow a value: nothing, or what stands behind an item of a bracket. -/
def Ends (rest : List Char) : Prop := ∀ c ∈ rest.head?, c = ',' ∨ c = ']' ∨ c = '\x7d'

/-- A text to be written in front of another. -/
abbrev Writing := List Char → List Char

/-- An outcome is the given value in front of the rest of the text, or some error if there is no
value. -/
def Gives (x : Outcome α) (o : Option α) (rest : List Char) : Prop :=
  match o with
  | some a => x = .ok (a, rest)
  | none => ∃ e, x = .error e

/-- The reader makes the given value of the text, whatever follows it, or refuses the text. -/
def Reads (r : Reader α) (w : Writing) (o : Option α) : Prop :=
  ∀ rest, Ends rest → Gives (r.read (w rest)) o rest

@[simp] theorem gives_some {x : Outcome α} {a : α} {rest : List Char} :
    Gives x (some a) rest ↔ x = .ok (a, rest) := Iff.rfl

@[simp] theorem gives_none {x : Outcome α} {rest : List Char} :
    Gives x none rest ↔ ∃ e, x = .error e := Iff.rfl

theorem ends_nil : Ends [] := by
  intro c hc
  cases hc

theorem ends_comma (rest : List Char) : Ends (',' :: rest) := by
  intro c hc
  exact Or.inl (Option.some_inj.mp hc).symm

theorem read_bind_of_ok {r : Reader α} {s rest : List Char} {a : α}
    (h : r.read s = .ok (a, rest)) (f : α → Reader β) : (r >>= f).read s = (f a).read rest := by
  rw [read_bind, h]

theorem read_map_of_ok {r : Reader α} {s rest : List Char} {a : α}
    (h : r.read s = .ok (a, rest)) (f : α → β) : (f <$> r).read s = .ok (f a, rest) := by
  rw [read_map, h]

theorem Gives.map {r : Reader α} {o : Option α} {s rest : List Char} (h : Gives (r.read s) o rest)
    (f : α → β) : Gives ((f <$> r).read s) (o.map f) rest := by
  cases o with
  | none =>
    obtain ⟨e, he⟩ := gives_none.mp h
    exact ⟨e, by rw [read_map, he]⟩
  | some a =>
    rw [Option.map_some, gives_some, read_map_of_ok (gives_some.mp h)]

/-- A value that was read decides what becomes of the text behind it. -/
theorem Gives.bind {r : Reader α} {o : Option α} {s between rest : List Char}
    (h : Gives (r.read s) o between) {f : α → Reader β} {g : α → Option β}
    (hf : ∀ a, o = some a → Gives ((f a).read between) (g a) rest) :
    Gives ((r >>= f).read s) (o.bind g) rest := by
  cases o with
  | none =>
    obtain ⟨e, he⟩ := gives_none.mp h
    exact ⟨e, by rw [read_bind, he]⟩
  | some a =>
    rw [read_bind_of_ok (gives_some.mp h)]
    exact hf a rfl

/-- What is read in front of the rest of a text is what is given there. -/
theorem Gives.eq_ok_iff {x : Outcome α} {o : Option α} {rest rest' : List Char} {a : α}
    (h : Gives x o rest) : x = .ok (a, rest') ↔ o = some a ∧ rest' = rest := by
  cases o with
  | none =>
    obtain ⟨e, he⟩ := gives_none.mp h
    rw [he]
    simp
  | some b =>
    rw [gives_some.mp h]
    simp [eq_comm]

theorem Reads.map {r : Reader α} {w : Writing} {o : Option α} (h : Reads r w o) (f : α → β) :
    Reads (f <$> r) w (o.map f) := fun rest hrest => (h rest hrest).map f

/-- A value that was read decides what becomes of it, and no more text is taken. -/
theorem Reads.bind {r : Reader α} {w : Writing} {o : Option α} (h : Reads r w o)
    {f : α → Reader β} {g : α → Option β} (hf : ∀ a, o = some a → Reads (f a) id (g a)) :
    Reads (r >>= f) w (o.bind g) :=
  fun rest hrest => (h rest hrest).bind fun a ha => hf a ha rest hrest

theorem reads_pure (a : α) : Reads (pure a) id (some a) := fun _ _ => rfl

theorem reads_mismatched (m : Mismatch) : Reads (mismatched m : Reader α) id none :=
  fun _ _ => ⟨_, rfl⟩

/-! ## The first character -/

theorem skipBlanks_cons {c : Char} (hc : isBlank c = false) (s : List Char) :
    skipBlanks (c :: s) = c :: s := by
  rw [skipBlanks, List.dropWhile_cons_of_neg (by simp [hc])]

theorem read_onNext_cons {f : Char → Reader α} {c : Char} (hc : isBlank c = false)
    (s : List Char) : (onNext f).read (c :: s) = (f c).read (c :: s) := by
  rw [read_onNext, skipBlanks_cons hc]

@[simp] theorem read_mark_cons {c : Char} (hc : isBlank c = false) (s : List Char) :
    (mark c).read (c :: s) = .ok ((), s) := by
  rw [mark, read_onNext_cons hc, read_symbol_cons]

/-- A text starts with neither a blank nor a closing bracket. -/
def Begins (w : Writing) : Prop :=
  ∀ rest, ∃ c s, w rest = c :: s ∧ isBlank c = false ∧ c ≠ ']' ∧ c ≠ '\x7d'

/-! ## Items between brackets -/

/-- The items behind the first one, each behind a comma, and the end of the bracket. -/
def behind (close : Char) : List Writing → Writing
  | [], rest => close :: rest
  | w :: ws, rest => ',' :: w (behind close ws rest)

/-- All items of a bracket and its end. -/
def inside (close : Char) : List Writing → Writing
  | [], rest => close :: rest
  | w :: ws, rest => w (behind close ws rest)

theorem ends_behind {close : Char} (hclose : close = ']' ∨ close = '\x7d') (ws : List Writing)
    (rest : List Char) : Ends (behind close ws rest) := by
  cases ws with
  | nil =>
    intro c hc
    rw [← Option.some_inj.mp (show some close = some c from hc)]
    exact Or.inr hclose
  | cons w ws => exact ends_comma _

theorem isBlank_close {close : Char} (hclose : close = ']' ∨ close = '\x7d') :
    isBlank close = false := by
  rcases hclose with rfl | rfl <;> decide

/-- The outcome of a loop over items from a state on: the state behind the last one, or none if one
of them is refused. -/
inductive Folds (item : σ → Reader σ) : σ → List Writing → Option σ → Prop where
  | nil {state : σ} : Folds item state [] (some state)
  | cons {state state' : σ} {w : Writing} {ws : List Writing} {o : Option σ} :
      Reads (item state) w (some state') → Folds item state' ws o → Folds item state (w :: ws) o
  | refused {state : σ} {w : Writing} {ws : List Writing} :
      Reads (item state) w none → Folds item state (w :: ws) none

theorem Folds.single {item : σ → Reader σ} {state : σ} {w : Writing} {o : Option σ}
    (h : Reads (item state) w o) : Folds item state [w] o := by
  cases o with
  | none => exact .refused h
  | some t => exact .cons h .nil

/-- A loop over further items goes on from the state behind the first ones. -/
theorem Folds.append {item : σ → Reader σ} {state t : σ} {ws vs : List Writing} {o : Option σ}
    (h : Folds item state ws (some t)) (hvs : Folds item t vs o) :
    Folds item state (ws ++ vs) o := by
  induction ws generalizing state with
  | nil =>
    cases h
    exact hvs
  | cons w ws ih =>
    cases h with
    | cons hw hws => exact .cons hw (ih hws)

/-- A loop that was refused does not come to further items. -/
theorem Folds.append_of_refused {item : σ → Reader σ} {state : σ} {ws : List Writing}
    (h : Folds item state ws none) (vs : List Writing) : Folds item state (ws ++ vs) none := by
  induction ws generalizing state with
  | nil => cases h
  | cons w ws ih =>
    cases h with
    | cons hw hws => exact .cons hw (ih hws)
    | refused hw => exact .refused hw

/-- The loop from the first item on has the outcome of the items. -/
theorem Folds.reads_foldFrom {close : Char} (hclose : close = ']' ∨ close = '\x7d')
    {item : σ → Reader σ} {ws : List Writing} {o : Option σ} (w : Writing) (state : σ)
    (h : Folds item state (w :: ws) o) (rest : List Char) :
    Gives (foldFrom close item state (w (behind close ws rest))) o rest := by
  induction ws generalizing w state with
  | nil =>
    cases h with
    | refused hw =>
      obtain ⟨e, he⟩ := hw _ (ends_behind hclose [] rest)
      exact ⟨e, by rw [foldFrom_eq, he]⟩
    | @cons _ t _ _ _ hw hs =>
      cases hs
      have hr : (item state).read (w (behind close [] rest)) = .ok (t, close :: rest) :=
        hw _ (ends_behind hclose [] rest)
      rw [gives_some, foldFrom_eq, hr]
      simp only [skipBlanks_cons (isBlank_close hclose), if_true]
  | cons w' ws ih =>
    cases h with
    | refused hw =>
      obtain ⟨e, he⟩ := hw _ (ends_behind hclose (w' :: ws) rest)
      exact ⟨e, by rw [foldFrom_eq, he]⟩
    | @cons _ t _ _ _ hw hs =>
      have hr : (item state).read (w (behind close (w' :: ws) rest)) =
          .ok (t, ',' :: w' (behind close ws rest)) := hw _ (ends_behind hclose (w' :: ws) rest)
      have hcomma : ',' ≠ close := by rcases hclose with rfl | rfl <;> decide
      have hstep : foldFrom close item state (w (behind close (w' :: ws) rest)) =
          foldFrom close item t (w' (behind close ws rest)) := by
        rw [foldFrom_eq, hr]
        simp only [skipBlanks_cons (show isBlank ',' = false by decide), if_neg hcomma, if_true]
      rw [hstep]
      exact ih w' t hs

/-- The loop over the written items of a bracket has the outcome of the items. -/
theorem Folds.reads {close : Char} (hclose : close = ']' ∨ close = '\x7d') {item : σ → Reader σ}
    {state : σ} {ws : List Writing} {o : Option σ} (h : Folds item state ws o)
    (hws : ∀ w ∈ ws, Begins w) : Reads (foldItems close item state) (inside close ws) o := by
  intro rest _
  cases ws with
  | nil =>
    cases h
    rw [gives_some, inside, foldItems, read_onNext_cons (isBlank_close hclose), if_pos rfl]
    rfl
  | cons w ws =>
    obtain ⟨c, s, hs, hblank, hsquare, hcurly⟩ := hws w (by simp) (behind close ws rest)
    have hc : c ≠ close := by rcases hclose with rfl | rfl <;> assumption
    have hread : (foldItems close item state).read (inside close (w :: ws) rest) =
        foldFrom close item state (w (behind close ws rest)) := by
      rw [inside, hs, foldItems, read_onNext_cons hblank, if_neg hc]
    rw [hread]
    exact h.reads_foldFrom hclose w state rest

/-! ## Arrays -/

/-- Items that are read one by one are put in front of those taken before. -/
theorem folds_items {item : Reader α} {w : β → Writing} {f : β → Option α} {bs : List β}
    (h : ∀ b ∈ bs, Reads item (w b) (f b)) (taken : List α) :
    Folds (fun taken => (· :: taken) <$> item) taken (bs.map w)
      ((bs.mapM f).map fun as => as.reverse ++ taken) := by
  induction bs generalizing taken with
  | nil => exact .nil
  | cons b bs ih =>
    rw [List.forall_mem_cons] at h
    have hb := h.1.map (· :: taken)
    rw [List.mapM_cons, List.map_cons]
    cases hfb : f b with
    | none =>
      rw [hfb] at hb
      exact .refused hb
    | some a =>
      rw [hfb] at hb
      have hbs := Folds.cons hb (ih h.2 (a :: taken))
      cases hmap : bs.mapM f with
      | none =>
        rw [hmap] at hbs
        exact hbs
      | some as =>
        rw [hmap] at hbs
        simpa using hbs

/-- The items of a bracket are read into a list, unless one is refused. -/
theorem reads_items {close : Char} (hclose : close = ']' ∨ close = '\x7d') {item : Reader α}
    {w : β → Writing} {f : β → Option α} {bs : List β} (h : ∀ b ∈ bs, Reads item (w b) (f b))
    (hw : ∀ b, Begins (w b)) : Reads (items close item) (inside close (bs.map w)) (bs.mapM f) := by
  have hbegins : ∀ v ∈ bs.map w, Begins v := by
    intro v hv
    obtain ⟨b, -, rfl⟩ := List.mem_map.mp hv
    exact hw b
  have hread := ((folds_items h []).reads hclose hbegins).map List.reverse
  rw [Option.map_map] at hread
  simpa [items, Function.comp_def] using hread

theorem read_token_array (rest : List Char) :
    token.read ('[' :: rest) = .ok (.array, rest) := by
  rw [token, read_onNext_cons (by decide)]
  rfl

theorem read_token_object (rest : List Char) :
    token.read ('\x7b' :: rest) = .ok (.object, rest) := by
  rw [token, read_onNext_cons (by decide)]
  rfl

/-- An array is read item by item. -/
theorem reads_list {item : Reader α} {ws : List Writing} {o : Option (List α)}
    (h : Reads (items ']' item) (inside ']' ws) o) :
    Reads (list (some item)) (fun rest => '[' :: inside ']' ws rest) o := by
  intro rest hrest
  have hread : (list (some item)).read ('[' :: inside ']' ws rest) =
      (items ']' item).read (inside ']' ws rest) := by
    rw [list, read_bind_of_ok (read_token_array _)]
  simp only [hread]
  exact h rest hrest

/-- An array is refused where no bracket may open. -/
theorem reads_list_none (w : Writing) :
    Reads (list (none : Option (Reader α))) (fun rest => '[' :: w rest) none := by
  intro rest _
  refine ⟨.malformed, ?_⟩
  rw [list, read_bind_of_ok (read_token_array _)]
  rfl

/-! ## Whole texts -/

theorem eq_ok_of_toOption {ε : Type} {x : Except ε α} {a : α} (h : x.toOption = some a) :
    x = .ok a := by
  cases x with
  | error e => cases h
  | ok b => exact congrArg Except.ok (Option.some_inj.mp h)

/-- A whole text is read as what its reader makes of it. -/
theorem complete_eq_ok_iff {r : Reader α} {w : Writing} {o : Option α} (h : Reads r w o) {a : α} :
    r.complete (String.ofList (w [])) = .ok a ↔ o = some a := by
  have hread := h [] ends_nil
  rw [complete, String.toList_ofList]
  cases o with
  | none =>
    obtain ⟨e, he⟩ := gives_none.mp hread
    rw [he]
    simp
  | some b =>
    rw [gives_some.mp hread]
    simp [skipBlanks]

end RecordFilter.Json.Reader
