import RecordFilter.Criterion.Basic

/-!
# Criteria as a tree

A filter is a tree: its inner nodes are the groups, and everything else is a leaf, a criterion with
an empty list of children included.  `members?` is the view that makes the distinction, and a proof
about all filters follows it.

* `members?_eq_some_iff`: what the view says of the children.
* `onCriterion`, `onFilter`: induction over a filter, with one case for leaves, one for groups, and
  two for lists of siblings.
* `onChildren`: induction where an empty list of children is no different from another list.
-/

namespace RecordFilter.Criterion

theorem members?_eq_some_iff {c : Criterion} {ds : List Criterion} :
    c.members? = some ds ↔ c.children = some ds ∧ ds ≠ [] := by
  obtain ⟨property, comparison, value, connective, _ | _ | ⟨d, es⟩⟩ := c
  · simp [members?]
  · simp only [members?, Option.some_inj]
    constructor
    · intro h
      cases h
    · rintro ⟨rfl, h⟩
      exact absurd rfl h
  · simp only [members?, Option.some_inj]
    constructor
    · rintro rfl
      exact ⟨rfl, List.cons_ne_nil _ _⟩
    · exact fun h => h.1

theorem isGroup_eq_false_iff {c : Criterion} : c.isGroup = false ↔ c.members? = none := by
  simp [isGroup]

theorem isLeaf_iff {c : Criterion} : c.isLeaf = true ↔ c.members? = none ∧ c.property ≠ "" := by
  simp [isLeaf, isGroup]

/-! ## Induction -/

variable {P : Criterion → Prop} {Q : List Criterion → Prop}

mutual

/-- What holds of leaves, of groups of members it holds of, and passes to lists, holds of every
criterion. -/
theorem onCriterion (leaf : ∀ c, c.members? = none → P c)
    (group : ∀ c ds, c.members? = some ds → Q ds → P c) (nil : Q [])
    (cons : ∀ c cs, P c → Q cs → Q (c :: cs)) : ∀ c, P c
  | ⟨_, _, _, _, none⟩ => leaf _ rfl
  | ⟨_, _, _, _, some []⟩ => leaf _ rfl
  | ⟨_, _, _, _, some (d :: ds)⟩ =>
    group _ (d :: ds) rfl (onFilter leaf group nil cons (d :: ds))

/-- What holds of leaves, of groups of members it holds of, and passes to lists, holds of every
filter. -/
theorem onFilter (leaf : ∀ c, c.members? = none → P c)
    (group : ∀ c ds, c.members? = some ds → Q ds → P c) (nil : Q [])
    (cons : ∀ c cs, P c → Q cs → Q (c :: cs)) : ∀ cs, Q cs
  | [] => nil
  | c :: cs => cons c cs (onCriterion leaf group nil cons c) (onFilter leaf group nil cons cs)

end

mutual

/-- What a criterion inherits from its children, whether or not they make it a group, holds of every
criterion. -/
theorem onChildren (h : ∀ c, (∀ ds, c.children = some ds → ∀ d ∈ ds, P d) → P c) : ∀ c, P c
  | ⟨_, _, _, _, none⟩ => h _ fun _ hds => nomatch hds
  | ⟨_, _, _, _, some cs⟩ => h _ fun ds hds => by
    rw [← Option.some_inj.mp hds]
    exact onSiblings h cs

/-- What a criterion inherits from its children holds of all siblings. -/
theorem onSiblings (h : ∀ c, (∀ ds, c.children = some ds → ∀ d ∈ ds, P d) → P c) :
    ∀ cs : List Criterion, ∀ c ∈ cs, P c
  | [] => fun _ hc => nomatch hc
  | c :: cs => by
    intro d hd
    rcases List.mem_cons.mp hd with hdc | hd
    · rw [hdc]
      exact onChildren h c
    · exact onSiblings h cs d hd

end

end RecordFilter.Criterion
