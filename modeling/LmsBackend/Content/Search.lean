import LmsBackend.Content.Paging

/-!
# Searching the listings

`?search=` looks for `%term%` with `ILIKE`, in which a term may have characters of its own
meaning.

- `Occurs`: the term is part of a text, in whatever case.
- `SearchLiteral`: a search selects exactly the rows in which the term occurs.
- `search_literal_iff`: exactly if the term has none of the characters `%`, `_` and `\`.
-/

namespace LmsBackend

open Like

variable {env : Env} {fold : Char → Char}

/-! ## What is searched for -/

/-- The term is a part of the text, cases aside. -/
def Occurs (fold : Char → Char) (term text : String) : Prop :=
  term.toList.map fold <:+: text.toList.map fold

/-- The search for the term selects the stored courses and users in which it occurs. -/
structure SearchLiteral (env : Env) (fold : Char → Char) (term : String) : Prop where
  courses : ∀ (f : CourseFilter) (publishedOnly : Bool) (c : Course),
    columnError .courses c = none →
      ((Listing.courses { f with search := some term } publishedOnly).condition env c = true ↔
        (Listing.courses { f with search := none } publishedOnly).condition env c = true ∧
          (Occurs fold term c.title ∨ ∃ summary, c.summary = some summary ∧
            Occurs fold term summary))
  users : ∀ (params : PageParams) (u : User), columnError .users u = none →
    ((Listing.users { params with search := some term }).condition env u = true ↔
      Occurs fold term u.email ∨ Occurs fold term u.fullName)

/-- The term is looked for between any two texts. -/
theorem ilike_contain (hilike : env.ilike = ilike fold) (text term : String) :
    env.ilike text (LmsBackend.like term) = true ↔
      Like.like (text.toList.map fold) ((contain term.toList).map fold) = some true := by
  have hpattern : (LmsBackend.like term).toList = contain term.toList := by
    rw [LmsBackend.like, String.toList_append, String.toList_append]
    rfl
  rw [hilike, ilike, hpattern, decide_eq_true_iff]

theorem truthy_some {term : String} (h : term ≠ "") : truthy (some term) = some term := by
  simp [truthy, h]

/-- The search is one more condition of the listing. -/
theorem courses_condition {term : String} (h : term ≠ "") (f : CourseFilter)
    (publishedOnly : Bool) (c : Course) :
    (Listing.courses { f with search := some term } publishedOnly).condition env c = true ↔
      (Listing.courses { f with search := none } publishedOnly).condition env c = true ∧
        searchCourse env term c = true := by
  show filteredCourse env { f with search := some term } publishedOnly c = true ↔
    filteredCourse env { f with search := none } publishedOnly c = true ∧ _
  simp only [filteredCourse, truthy_some h, truthy_none, Option.all_some, Option.all_none,
    Bool.and_eq_true]
  tauto

theorem users_condition {term : String} (h : term ≠ "") (params : PageParams) (u : User) :
    (Listing.users { params with search := some term }).condition env u = true ↔
      searchUser env term u = true := by
  simp only [Listing.condition, truthy_some h]

/-! ## Terms that stand for themselves -/

/-- Without special characters, `ILIKE` finds the term. -/
theorem ilike_occurs (hilike : env.ilike = ilike fold) (hfold : Folds fold) {term : String}
    (hplain : ∀ c ∈ term.toList, ¬ Special c) (text : String) :
    env.ilike text (LmsBackend.like term) = true ↔ Occurs fold term text :=
  (ilike_contain hilike text term).trans (hfold.like_infix hplain text.toList)

theorem search_plain (hilike : env.ilike = ilike fold) (hfold : Folds fold) {term : String}
    (hterm : term ≠ "") (hplain : ∀ c ∈ term.toList, ¬ Special c) :
    SearchLiteral env fold term where
  courses f publishedOnly c _ := by
    rw [courses_condition hterm, searchCourse, Bool.or_eq_true, Option.any_eq_true,
      ilike_occurs hilike hfold hplain]
    simp only [ilike_occurs hilike hfold hplain]
  users params u _ := by
    rw [users_condition hterm, searchUser, Bool.or_eq_true, ilike_occurs hilike hfold hplain,
      ilike_occurs hilike hfold hplain]

/-! ## Terms that do not -/

/-- A user whose name is the text. -/
def userNamed (text : String) : User where
  id := 0
  tenantId := 0
  email := ""
  hashedPassword := ""
  fullName := text
  createdAt := 0
  updatedAt := 0

theorem userNamed_stored {text : String} (h : text.length ≤ 200) :
    columnError .users (userNamed text) = none := by
  refine firstError_eq_none.mpr fun check hmem => ?_
  simp only [List.mem_cons, List.not_mem_nil, or_false] at hmem
  rcases hmem with rfl | rfl | rfl
  · rfl
  · rfl
  · exact if_neg (Nat.not_lt.mpr h)

/-- With a special character in the term, there is a user that is found and in whose address
and name the term does not occur. -/
theorem search_special (hilike : env.ilike = ilike fold) (hfold : Folds fold) {term : String}
    (hterm : term ≠ "") (hlength : term.length ≤ 200) (hspecial : ∃ c ∈ term.toList, Special c) :
    ¬ SearchLiteral env fold term := by
  obtain ⟨text, htext, hfound, hother⟩ := hfold.like_other hspecial
  intro h
  have hstored : columnError .users (userNamed (String.ofList text)) = none := by
    refine userNamed_stored ?_
    rw [String.length_ofList]
    exact htext.trans hlength
  have hsearch : searchUser env term (userNamed (String.ofList text)) = true := by
    rw [searchUser, Bool.or_eq_true, ilike_contain hilike, ilike_contain hilike]
    refine .inr ?_
    show Like.like ((String.ofList text).toList.map fold) _ = _
    rw [String.toList_ofList]
    exact hfound
  rcases (h.users {} _ hstored).mp ((users_condition hterm {} _).mpr hsearch) with hemail | hname
  · -- only the empty term occurs in the empty address
    have hnil : term.toList.map fold = [] := List.infix_nil.mp hemail
    exact hterm (String.toList_eq_nil_iff.mp (List.map_eq_nil_iff.mp hnil))
  · unfold Occurs at hname
    rw [show (userNamed (String.ofList text)).fullName.toList = text from String.toList_ofList] at hname
    exact hother hname

/-- A search finds the rows in which the term occurs, and no others, exactly if the term has
no special character. -/
theorem search_literal_iff (hilike : env.ilike = ilike fold) (hfold : Folds fold) {term : String}
    (hterm : term ≠ "") (hlength : term.length ≤ 200) :
    SearchLiteral env fold term ↔ ∀ c ∈ term.toList, ¬ Special c := by
  constructor
  · intro h c hc hspecial
    exact search_special hilike hfold hterm hlength ⟨c, hc, hspecial⟩ h
  · exact search_plain hilike hfold hterm

/-! ## The reference platform -/

theorem toLower_folds : Folds Char.toLower := by
  intro c h
  by_cases hupper : c.val ≥ 'A'.val ∧ c.val ≤ 'Z'.val
  · exfalso
    obtain ⟨hleast, hmost⟩ := hupper
    have hlower : c.toLower.val = c.val + ('a'.val - 'A'.val) := by
      unfold Char.toLower
      rw [dif_pos ⟨hleast, hmost⟩]
    simp only [ge_iff_le, UInt32.le_iff_toNat_le] at hleast hmost
    simp at hleast hmost
    have hletter : ∀ d : Char, c = d ∨ c.toLower = d →
        d.val.toNat = c.val.toNat ∨ d.val.toNat = c.val.toNat + 32 := by
      rintro d (rfl | rfl)
      · exact .inl rfl
      · refine .inr ?_
        rw [hlower, UInt32.toNat_add]
        simp
        omega
    have hspecial : ∃ d, (d = '%' ∨ d = '_' ∨ d = '\\') ∧ (c = d ∨ c.toLower = d) := by
      rcases h with h | h
      · exact ⟨c, h, .inl rfl⟩
      · exact ⟨c.toLower, h, .inr rfl⟩
    obtain ⟨d, hd, hcd⟩ := hspecial
    have hvalue : d.toNat = c.toNat ∨ d.toNat = c.toNat + 32 := hletter d hcd
    have hmark : d.toNat = 37 ∨ d.toNat = 95 ∨ d.toNat = 92 := by
      rcases hd with rfl | rfl | rfl
      · exact .inl rfl
      · exact .inr (.inl rfl)
      · exact .inr (.inr rfl)
    clear hletter h hcd hd
    omega
  · exact Platform.toLower_eq_self hupper

theorem search_python : SearchLiteral (Env.reference {}) Char.toLower "python" :=
  (search_literal_iff rfl toLower_folds (by decide) (by decide)).mpr fun c hc hspecial => by
    have hnone : ("python".toList.filter fun c => decide (Special c)) = [] := by decide
    exact List.filter_eq_nil_iff.mp hnone c hc (decide_eq_true hspecial)

/-- The search for `50%` also finds the name `50`. -/
theorem search_percent : ¬ SearchLiteral (Env.reference {}) Char.toLower "50%" := by
  intro h
  have hstored : columnError .users (userNamed "50") = none := by decide
  have hfound : (Listing.users { search := some "50%" }).condition (Env.reference {})
      (userNamed "50") = true := by
    decide +kernel
  rcases (h.users {} _ hstored).mp hfound with hemail | hname
  · exact absurd hemail.length_le (by decide)
  · exact absurd hname.length_le (by decide)

end LmsBackend
