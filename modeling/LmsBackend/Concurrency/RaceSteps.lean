import LmsBackend.Concurrency.KeyRaces

/-!
# The steps of the racing requests

Rules for what the check-then-insert operations are made of, in the company of others that
race for the same key.

- `RaceOpen`: the world in which a race starts.
- `race_check`: the query for a row with the key. `race_insert`: the insert of one.
- `AfterRace.of_writes`: what the commit of a transaction that has inserted the row makes of
  the committed rows.
-/

namespace LmsBackend

open Mvcc Interleave

/-- No row stands for the key yet, and identifiers to come are new. -/
structure RaceOpen (env : Env) (w₀ : World) (k : RaceKey) : Prop where
  rls : env.settings.enableRowLevelSecurity = true
  tenant : ∃ t ∈ w₀.db .tenants, t.id = k.tenantId
  unclaimed : ∀ r ∈ w₀.db k.table, k.stands k.table r = false
  /-- the unique constraint -/
  unique : (w₀.db k.table).countP (k.hits k.table) ≤ 1
  drawn : ∀ r ∈ w₀.db k.table, ∀ id ∈ keyOf k.table r, id < w₀.nextUuid

section Steps

variable {env : Env} {α : Type} {k : RaceKey} {w₀ w : World} {q : RaceRecord} {tx : Tx}
  {l : List Tx} {Q : RaceRecord → List Tx → α → Prop} {E : RaceRecord → List Tx → Err → Prop}

/-- At most one committed row has the key, whoever has won. -/
theorem RaceRely.count (hopen : RaceOpen env w₀ k) (h : RaceRely w₀ k q w) :
    (w.db k.table).countP (k.hits k.table) ≤ 1 := by
  rcases h.2 with ⟨hb, -⟩ | ⟨key, ha, -⟩
  · rw [hb _ k.table_ne]
    exact hopen.unique
  · exact ha.count.le

/-- The rows of a table that nobody writes but the requests' audit. -/
theorem RaceRely.rest (h : RaceRely w₀ k q w) {t : Table}
    (ht : t ≠ k.table ∧ t ∉ k.others ∧ t ≠ .auditLogs) : w.db t = w₀.db t := by
  rcases h.2 with ⟨hb, -⟩ | ⟨key, ha, -⟩
  · exact hb t ht.2.2
  · exact ha.rest t ht.1 ht.2.1 ht.2.2

/-- The rows that a query in a new transaction finds. -/
theorem visible_fresh {db : Database Row} (hw : tx.writes = []) (t : Table) :
    visible schema db tx t = (db t).filter (schema.policy tx.guc t) := by
  rw [visible, view_nil schema db hw]

/-- A query of another table than the key's before the check, unless it is for courses. -/
theorem race_select {t : Table} {p : Row t → Bool} {f : List (Row t) → M α} (hw : tx.writes = [])
    (ht : t ≠ k.table ∧ t ≠ .courses)
    (h : ∀ w, RaceRely w₀ k .start w →
      Races env w₀ k Q E .start (tx :: l) (f ((visible schema w.db tx t).filter p))) :
    Races env w₀ k Q E .start (tx :: l) (query t p >>= f) := by
  refine Does.select (fun _ => ⟨tx, l, rfl, hw⟩) fun w hw => ?_
  have hnote : ∀ a, raceNote k .start (tx :: l) (.db (.select t fun _ => p)) a = .start := by
    intro a
    refine (if_neg ht.1).trans ?_
    cases t with
    | courses => exact absurd rfl ht.2
    | _ => rfl
  rw [hnote]
  exact h w hw

/-- **The check** finds the row that has won. If there is none, nobody has won yet, and what
was read before is still as it was. -/
theorem race_check (t : Table) (ht : k.table = t) {p : Row t → Bool} {f : List (Row t) → M α}
    (hopen : RaceOpen env w₀ k) (hlook : q.looking) (hw : tx.writes = [])
    (hp : ∀ r, p r = true → k.hits t r = true)
    (hsees : ∀ r, k.stands t r = true → p r = true ∧ schema.policy tx.guc t r = true)
    (hfree : ∀ rows, rows.length ≤ 1 → (∀ r ∈ rows, p r = true ∧ k.stands t r = false) →
      (∀ course, q = .read course → course ∈ w₀.db .courses) →
      Races env w₀ k Q E .free [tx] (f rows))
    (hheld : ∀ r, p r = true → k.stands t r = true →
      Races env w₀ k Q E (.held (keyOf t r)) [tx] (f [r])) :
    Races env w₀ k Q E q [tx] (query t p >>= f) := by
  subst ht
  refine Does.select (fun _ => ⟨tx, [], rfl, hw⟩) fun w hrely => ?_
  have hlength : ((visible schema w.db tx k.table).filter p).length ≤ 1 := by
    rw [visible_fresh hw, List.filter_filter, ← List.countP_eq_length_filter]
    refine (List.countP_mono_left fun r _ hr => ?_).trans (hrely.count hopen)
    rw [Bool.and_eq_true] at hr
    exact hp r hr.1
  have hfound : ∀ r ∈ (visible schema w.db tx k.table).filter p, p r = true := fun r hr =>
    (List.mem_filter.mp hr).2
  -- the check would have found the row of one who has won
  have hbefore : (∀ r ∈ (visible schema w.db tx k.table).filter p, k.stands k.table r = false) →
      ∀ course, q = .read course → course ∈ w₀.db .courses := by
    rintro hnone course rfl
    rcases hrely.2 with ⟨-, hearly⟩ | ⟨key, hafter, -⟩
    · exact hearly
    · obtain ⟨r, hrows, hstands, -⟩ := hafter.row
      have hmem : r ∈ (visible schema w.db tx k.table).filter p := by
        rw [visible_fresh hw, List.mem_filter, List.mem_filter, hrows]
        exact ⟨⟨List.mem_append_right _ List.mem_cons_self, (hsees r hstands).2⟩,
          (hsees r hstands).1⟩
      rw [hnone r hmem] at hstands
      cases hstands
  generalize (visible schema w.db tx k.table).filter p = rows at hlength hfound hbefore
  have hnote : raceNote k q [tx] (.db (.select k.table fun _ => p)) rows =
      lookedUp k k.table rows := by
    cases q with
    | start => exact if_pos rfl
    | read course => exact if_pos rfl
    | _ => exact hlook.elim
  rw [hnote]
  unfold lookedUp
  cases hfind : rows.find? (k.stands k.table) with
  | none =>
    rw [List.find?_eq_none] at hfind
    have hnone : ∀ r ∈ rows, k.stands k.table r = false := fun r hr =>
      Bool.eq_false_iff.mpr (hfind r hr)
    exact hfree rows hlength (fun r hr => ⟨hfound r hr, hnone r hr⟩) (hbefore hnone)
  | some r =>
    have hmem := List.mem_of_find?_eq_some hfind
    have hrows : rows = [r] := by
      cases rows with
      | nil => cases hmem
      | cons r' rest =>
        obtain rfl := List.length_eq_zero_iff.mp (Nat.le_zero.mp (Nat.le_of_succ_le_succ hlength))
        rw [List.mem_singleton.mp hmem]
    rw [hrows]
    exact hheld r (hfound r hmem) (List.find?_some hfind)

theorem RaceKey.stands_iff {t : Table} {r : Row t} : k.stands t r = true ↔
    k.hits t r = true ∧ (deletedAtOf t r = none ∧ tenantOf t r = some k.tenantId) ∧
      RaceKey.counts t r = true := by
  simp [stands, and_assoc]

/-- The scope of a tenant's request. -/
theorem inScope_iff {rc : RequestContext} {tid : Uuid} (htid : rc.tenantId = some tid) {t : Table}
    (ht : t ∈ rlsTables) {r : Row t} :
    inScope rc t r = true ↔ deletedAtOf t r = none ∧ tenantOf t r = some tid := by
  obtain ⟨x, hx⟩ := Option.isSome_iff_exists.mp ((tenantOf_isSome_iff t r).mpr ht)
  simp [inScope, htid, hx]

/-- What a row needs to be inserted. -/
theorem insertError_eq_none {db : Database Row} {t : Table} {r : Row t}
    (hpolicy : schema.policy tx.guc t r = true) (hcolumns : columnError t r = none)
    (hunique : uniqueError (view schema db tx) t r = none)
    (hrefers : referenceError (view schema db tx) t r = none) :
    insertError schema db tx t r = none := by
  rw [insertError, if_pos hpolicy]
  exact checkInsert_eq_none.mpr ⟨hcolumns, hunique, hrefers⟩

/-- **The insert** of a row with the key, accepted or refused. -/
theorem race_insertRow (t : Table) (ht : k.table = t) {r : Row t} {f : Unit → M α} (hw : tx.writes = [])
    (hhit : k.hits t (schema.coerce t r) = true)
    (hins : ∀ db, BeforeRace w₀ db → (∀ r' ∈ db t, k.hits t r' = false) →
      insertError schema db tx t (schema.coerce t r) = none)
    (hrefused : ∀ e, E .refused [tx] (.db e))
    (h : Races env w₀ k Q E .inserted [tx.push (inserting ⟨t, r⟩)] (f ())) :
    Races env w₀ k Q E .free [tx] (insertRow ⟨t, r⟩ >>= f) := by
  subst ht
  have hok : ∀ n, raceNote k .free [tx] (.db (.insert k.table r)) (.ok n) = .inserted :=
    fun _ => if_pos rfl
  have herr : ∀ e, raceNote k .free [tx] (.db (.insert k.table r)) (.error e) = .refused :=
    fun _ => if_pos rfl
  refine Does.insertRow (fun _ => ⟨rfl, tx, rfl, hw, hhit, hins⟩) (fun w _ _ => ?_) fun w e _ _ => ?_
  · rw [hok]
    exact h
  · rw [herr]
    exact hrefused e

/-- `repo.add` of a row with the key. -/
theorem race_insert (t : Table) (ht : k.table = t) {r : Row t} {f : Unit → M α} (hw : tx.writes = []) (hp : tx.pending = [])
    (hhit : k.hits t (schema.coerce t r) = true)
    (hins : ∀ db, BeforeRace w₀ db → (∀ r' ∈ db t, k.hits t r' = false) →
      insertError schema db tx t (schema.coerce t r) = none)
    (hrefused : ∀ e, E .refused [tx] (.db e))
    (h : Races env w₀ k Q E .inserted [tx.push (inserting ⟨t, r⟩)] (f ())) :
    Races env w₀ k Q E .free [tx] (repoAdd t r >>= f) := by
  subst ht
  have hok : ∀ n, raceNote k .free [tx] (.db (.insert k.table r)) (.ok n) = .inserted :=
    fun _ => if_pos rfl
  have herr : ∀ e, raceNote k .free [tx] (.db (.insert k.table r)) (.error e) = .refused :=
    fun _ => if_pos rfl
  refine Does.repoAdd hp ⟨trivial, fun _ => rfl⟩ (fun _ => ⟨trivial, fun _ => rfl⟩)
    (fun _ => ⟨rfl, tx, rfl, hw, hhit, hins⟩) (fun w _ _ => ?_) fun w e _ _ => ?_
  · rw [hok]
    exact h
  · rw [herr]
    exact hrefused e

/-- The one row that satisfies a condition is found. -/
theorem find_only {β : Type} {p : β → Bool} {rows : List β} {r : β} (hr : r ∈ rows)
    (hp : p r = true) (honly : ∀ r' ∈ rows, p r' = true → r' = r) : rows.find? p = some r := by
  cases hfind : rows.find? p with
  | none => exact absurd hp (List.find?_eq_none.mp hfind r hr)
  | some r' => rw [honly r' (List.mem_of_find?_eq_some hfind) (List.find?_some hfind)]

/-- While a request's row is inserted and not committed, nobody else has committed one. -/
theorem RaceRely.before (h : RaceRely w₀ k .inserted w) : BeforeRace w₀ w.db := by
  rcases h.2 with ⟨hb, -⟩ | ⟨key, -, hagrees⟩
  · exact hb
  · exact hagrees.elim

/-- The row that has won, in the table of the key. -/
theorem AfterRace.row_at {key : List Uuid} {db : Database Row} (h : AfterRace k w₀ key db)
    (t : Table) (ht : k.table = t) : ∃ r : Row t, db t = w₀.db t ++ [r] ∧ k.stands t r = true ∧
      keyOf t r = key ∧ ∀ r' ∈ w₀.db t, keyOf t r' ≠ key := by
  subst ht
  exact h.row

/-- The commit of a transaction that has inserted the first row with the key, and then
written other tables only. -/
theorem AfterRace.of_writes {db : Database Row} (t : Table) (ht : k.table = t) {r : Row t}
    {rest : List (Write Row (List Uuid))} (hb : BeforeRace w₀ db)
    (hunused : ∀ r' ∈ db t, k.hits t r' = false)
    (hw : tx.writes = .insert t r :: rest) (hrest : ∀ x ∈ rest, x.table ∈ k.others)
    (hstands : k.stands t r = true)
    (hkey : ∀ r' ∈ w₀.db t, keyOf t r' ≠ keyOf t r)
    (hcourses : t ≠ .courses → ∃ f : Course → Course,
      view schema db tx .courses = (db .courses).map f ∧ ∀ c, (f c).id = c.id ∧
        (f c).tenantId = c.tenantId ∧ (f c).status = c.status ∧ (f c).deletedAt = c.deletedAt) :
    ∃ key, AfterRace k w₀ key (view schema db tx) := by
  subst ht
  refine ⟨keyOf k.table r, ?_, ?_, fun t ht ho ha => ?_, fun hk => ?_⟩
  · rw [← hb _ k.table_ne]
    exact hunused
  · refine ⟨r, ?_, hstands, rfl, hkey⟩
    have htable : ∀ x ∈ rest, x.table ≠ k.table := by
      intro x hx heq
      have hothers := hrest x hx
      rw [heq] at hothers
      cases k <;> simp [RaceKey.others, RaceKey.table] at hothers
    rw [view, hw, List.foldl_cons, foldl_apply_other htable, Write.apply_insert, hb _ k.table_ne]
  · rw [view, hw, List.foldl_cons, foldl_apply_other, Write.apply_other, hb t ha]
    · exact ht.symm
    · rintro x hx rfl
      exact ho (hrest x hx)
  · rw [← hb .courses (by rintro ⟨⟩)]
    exact hcourses hk

/-- A request of the tenant sees and may write the tenant's rows. -/
theorem bound_policy {rc : RequestContext} (hrls : env.settings.enableRowLevelSecurity = true)
    {tid : Uuid} (htid : rc.tenantId = some tid) {t : Table} {r : Row t}
    (hr : tenantOf t r = some tid) :
    schema.policy (boundTx env rc.tenantId rc.isSuperadmin).guc t r = true := by
  refine @policy_of_tenant _ _ _ tid ?_ hr
  rw [boundTx, if_pos hrls, htid]

end Steps

end LmsBackend
