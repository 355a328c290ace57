import RecordFilter.Proofs.Binary64.Nearest
import RecordFilter.Json.Document

/-!
# What a reader can make of a text

Many texts are read alike, so a property of everything that is read cannot go by the texts.  It goes
by the readers: `Yields r P` says that whatever the reader `r` makes of any text has the property
`P`.  A reader is built from others, and what it yields follows from what they yield, without a look
at the characters.

* `Yields.bind`, `Yields.map`, `yields_onNext`: composed readers.
* `Yields.items`: a loop over items keeps what each item keeps.
* `yields_record`: a record keeps what the reader of each member keeps, whether the members are told
  by name or by place.
* `yields_token`: a token that is a number is a finite one or an integer of 64 bits.
-/

namespace RecordFilter.Json

/-- An integer that a token may be: signed or unsigned, it has 64 bits. -/
def IsWord (n : Int) : Prop := Int64.minValue.toInt ≤ n ∧ n < (UInt64.size : Int)

/-- A number in the token is finite, and an integer has 64 bits. -/
def Token.IsBounded : Token → Prop
  | integer n => IsWord n
  | float x => x.isFinite = true
  | _ => True

namespace Reader

variable {α β σ : Type} {P : α → Prop} {Q : β → Prop}

/-- Everything that the reader makes of a text has the property. -/
def Yields (r : Reader α) (P : α → Prop) : Prop :=
  ∀ s a rest, r.read s = .ok (a, rest) → P a

/-! ## Composed readers -/

theorem Yields.mono {r : Reader α} {P' : α → Prop} (h : Yields r P) (hP : ∀ a, P a → P' a) :
    Yields r P' := fun s a rest hs => hP a (h s a rest hs)

theorem yields_true (r : Reader α) : Yields r fun _ => True := fun _ _ _ _ => trivial

theorem yields_pure {a : α} (ha : P a) : Yields (pure a) P := by
  intro s b rest h
  cases h
  exact ha

theorem yields_fail (e : ReadError) : Yields (fail e) P := by
  intro s a rest h
  cases h

theorem yields_mismatched (m : Mismatch) : Yields (mismatched m) P := yields_fail _

theorem Yields.bind {r : Reader α} {f : α → Reader β} (h : Yields r P)
    (hf : ∀ a, P a → Yields (f a) Q) : Yields (r >>= f) Q := by
  intro s b rest hs
  rw [read_bind] at hs
  split at hs
  · rename_i a rest' hr
    exact hf a (h _ _ _ hr) _ _ _ hs
  · cases hs

theorem Yields.map {r : Reader α} {f : α → β} (h : Yields r P) (hf : ∀ a, P a → Q (f a)) :
    Yields (f <$> r) Q := by
  intro s b rest hs
  rw [read_map] at hs
  split at hs
  · rename_i a rest' hr
    cases hs
    exact hf a (h _ _ _ hr)
  · cases hs

theorem yields_onNext {f : Char → Reader α} (h : ∀ c, Yields (f c) P) : Yields (onNext f) P := by
  intro s a rest hs
  rw [read_onNext] at hs
  split at hs
  · cases hs
  · exact h _ _ _ _ hs

theorem Yields.nullable {r : Reader α} (h : Yields r P) :
    Yields (nullable r) fun o => ∀ a, o = some a → P a := by
  refine yields_onNext fun c => ?_
  split
  · exact (yields_true null).map fun _ _ _ h => nomatch h
  · refine h.map fun a ha b hb => ?_
    cases hb
    exact ha

/-! ## Items between brackets -/

/-- What each item keeps holds of the state behind the last one. -/
theorem of_foldFrom {R : σ → Prop} {close : Char} {item : σ → Reader σ}
    (h : ∀ state, R state → Yields (item state) R) {state t : σ} {s rest : List Char}
    (hstate : R state) (hs : foldFrom close item state s = .ok (t, rest)) : R t := by
  fun_induction foldFrom close item state s with
  | case1 => cases hs
  | case2 => cases hs
  | case3 state s state' rest' hi rest'' hr =>
    cases hs
    exact h state hstate _ _ _ hi
  | case4 state s state' rest' hi rest'' hr _ ih => exact ih (h state hstate _ _ _ hi) hs
  | case5 => cases hs

theorem yields_foldItems {R : σ → Prop} {item : σ → Reader σ}
    (h : ∀ state, R state → Yields (item state) R) {state : σ} (hstate : R state) (close : Char) :
    Yields (foldItems close item state) R := by
  refine yields_onNext fun c => ?_
  split
  · exact (yields_true next).map fun _ _ => hstate
  · intro s t rest hs
    exact of_foldFrom h hstate hs

/-- The items of a bracket are what the reader of an item yields. -/
theorem Yields.items {item : Reader α} (h : Yields item P) (close : Char) :
    Yields (items close item) fun as => ∀ a ∈ as, P a := by
  have hfold : Yields (foldItems close (fun taken => (· :: taken) <$> item) [])
      fun as => ∀ a ∈ as, P a := by
    refine yields_foldItems (fun taken htaken => ?_) (by simp) close
    exact h.map fun a ha => List.forall_mem_cons.mpr ⟨ha, htaken⟩
  exact hfold.map fun as has a ha => has a (List.mem_reverse.mp ha)

theorem Yields.list {item : Reader α} (h : Yields item P) :
    Yields (list (some item)) fun as => ∀ a ∈ as, P a := by
  refine (yields_true token).bind fun t _ => ?_
  split
  · cases ‹some item = some _›
    exact h.items ']'
  · exact yields_fail _
  · exact yields_mismatched _

theorem yields_list_none : Yields (list (none : Option (Reader α))) fun _ => False := by
  refine (yields_true token).bind fun t _ => ?_
  split
  · cases ‹none = some _›
  · exact yields_fail _
  · exact yields_mismatched _

/-! ## Records -/

section Records

variable {R : σ → Prop} {members : List (Member σ)}

theorem yields_named (h : ∀ m ∈ members, ∀ record, R record → Yields (m.read record) R)
    {state : σ × List String} (hstate : R state.1) :
    Yields (named members state) fun state => R state.1 := by
  refine (yields_true _).bind fun name _ => ?_
  split
  · exact (yields_true _).bind fun _ _ => (yields_true _).bind fun _ _ => yields_pure hstate
  · rename_i m hm
    split
    · exact yields_mismatched _
    · refine (yields_true _).bind fun _ _ => ?_
      exact (h m (List.mem_of_find?_eq_some hm) _ hstate).bind fun record hrecord =>
        yields_pure hrecord

theorem yields_byName (h : ∀ m ∈ members, ∀ record, R record → Yields (m.read record) R)
    {start : σ} (hstart : R start) : Yields (byName members start) R := by
  have hfold : Yields (foldItems '\x7d' (named members) (start, [])) fun state => R state.1 :=
    yields_foldItems (fun state hstate => yields_named h hstate) hstart _
  refine hfold.bind fun state hstate => ?_
  obtain ⟨record, given⟩ := state
  dsimp only
  split
  · exact yields_mismatched _
  · exact yields_pure hstate

theorem yields_byPlace (h : ∀ m ∈ members, ∀ record, R record → Yields (m.read record) R)
    (expected : String) (i : Nat) {record : σ} (hrecord : R record) :
    Yields (byPlace expected i record members) R := by
  induction members generalizing i record with
  | nil => exact (yields_true _).map fun _ _ => hrecord
  | cons m ms ih =>
    rw [List.forall_mem_cons] at h
    have hgo : Yields (m.read record >>= fun record => byPlace expected (i + 1) record ms) R :=
      (h.1 record hrecord).bind fun record hrecord => ih h.2 (i + 1) hrecord
    rw [byPlace]
    refine yields_onNext fun c => ?_
    split
    · split
      · exact yields_mismatched _
      · exact (yields_true _).map fun _ _ => hrecord
    · split
      · exact (yields_true _).bind fun _ _ => hgo
      · exact hgo

/-- A record keeps what the reader of each of its members keeps. -/
theorem yields_record (h : ∀ m ∈ members, ∀ record, R record → Yields (m.read record) R)
    {start : σ} (hstart : R start) (name : String) :
    Yields (record name start (some members)) R := by
  refine (yields_true token).bind fun t _ => ?_
  split
  · cases ‹some members = some _›
    exact yields_byName h hstart
  · cases ‹some members = some _›
    exact yields_byPlace h _ 0 hstart
  · exact yields_fail _
  · exact yields_fail _
  · exact yields_mismatched _

theorem yields_record_none (name : String) (start : σ) :
    Yields (record name start none) fun _ => False := by
  refine (yields_true token).bind fun t _ => ?_
  split
  · cases ‹none = some _›
  · cases ‹none = some _›
  · exact yields_fail _
  · exact yields_fail _
  · exact yields_mismatched _

end Records

/-! ## Tokens -/

theorem isWord_of_toInteger? {n : Numeral} {k : Int} (h : n.toInteger? = some k) : IsWord k := by
  have hsize : (0 : Int) < (UInt64.size : Int) := by decide
  have hmin : Int64.minValue.toInt ≤ 0 := by decide
  unfold Numeral.toInteger? at h
  split at h
  · simp only at h
    split at h
    · split at h
      · cases h
        exact ⟨by omega, by omega⟩
      · cases h
    · split at h
      · cases h
        exact ⟨by omega, by omega⟩
      · cases h
  · cases h

theorem isFinite_of_toFloat? {n : Numeral} {x : Binary64} (h : n.toFloat? = some x) :
    x.isFinite = true := by
  rw [Numeral.toFloat?] at h
  obtain ⟨unscaled, -, h⟩ := Option.bind_eq_some_iff.mp h
  obtain ⟨m, -, h⟩ := Option.bind_eq_some_iff.mp h
  cases h
  rfl

theorem isBounded_of_token? {n : Numeral} {t : Token} (h : n.token? = some t) : t.IsBounded := by
  unfold Numeral.token? at h
  split at h
  · rename_i k hk
    cases h
    exact isWord_of_toInteger? hk
  · obtain ⟨x, hx, rfl⟩ := Option.map_eq_some_iff.mp h
    exact isFinite_of_toFloat? hx

theorem yields_number : Yields number Token.IsBounded := by
  refine (yields_true _).bind fun n _ => ?_
  split
  · exact yields_pure (isBounded_of_token? ‹_›)
  · exact yields_fail _

/-- A token that is a number is a finite one or an integer of 64 bits. -/
theorem yields_token : Yields token Token.IsBounded := by
  refine yields_onNext fun c => ?_
  repeat' split
  · exact (yields_true _).map fun _ _ => trivial
  · exact (yields_true _).map fun _ _ => trivial
  · exact (yields_true _).map fun _ _ => trivial
  · exact (yields_true _).map fun _ _ => trivial
  · exact (yields_true _).map fun _ _ => trivial
  · exact (yields_true _).map fun _ _ => trivial
  · exact yields_number
  · exact yields_fail _

/-! ## Whole texts -/

theorem Yields.of_complete {r : Reader α} (h : Yields r P) {s : String} {a : α}
    (hs : r.complete s = .ok a) : P a := by
  unfold complete at hs
  split at hs
  · cases hs
  · rename_i b rest hread
    split at hs
    · cases hs
      exact h _ _ _ hread
    · cases hs

end Reader

end RecordFilter.Json

namespace RecordFilter.Binary64

theorem isFinite_ofQuotient {negative : Bool} {num den : Nat}
    (h : Magnitude.nearest? num den ≠ none) : (ofQuotient negative num den).isFinite = true := by
  unfold ofQuotient
  split
  · rfl
  · exact absurd ‹_› h

/-- An integer of 64 bits lies far below the limit of the numbers. -/
theorem isFinite_ofInt {n : Int} (h : Json.IsWord n) : (ofInt n).isFinite = true := by
  have hmin : Int64.minValue.toInt = -9223372036854775808 := rfl
  have hsize : (UInt64.size : Int) = 18446744073709551616 := rfl
  have htop : 18446744073709551616 ≤ tenTo Magnitude.greatestTen := by decide +kernel
  have habs : n.natAbs ≤ tenTo Magnitude.greatestTen := by
    obtain ⟨hlow, hhigh⟩ := h
    generalize tenTo Magnitude.greatestTen = top at *
    omega
  obtain ⟨m, hm⟩ := Magnitude.exists_ofNat? habs
  rw [ofInt]
  refine isFinite_ofQuotient (Option.ne_none_iff_exists'.mpr ⟨m, hm⟩)

end RecordFilter.Binary64
