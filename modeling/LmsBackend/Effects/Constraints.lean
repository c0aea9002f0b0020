import LmsBackend.Effects.Updates
import Mathlib.Data.List.Pairwise

/-!
# Databases that satisfy their constraints

What the unique constraints and the foreign keys of the association tables say of a
database, and that the writes of a session keep it.

- `Apart`: two rows that the unique constraints of their table admit together.
- `Constrained`: the database satisfies its constraints.
- `At g D V ps s`: one transaction is open; it sees `V` and has the rows `ps` waiting.
- `flush_at`, `relink_at`: what a flush and a changed collection make of `V`.
-/

namespace LmsBackend

open Mvcc

variable {env : Env} {g : Guc} {D V V' : Database Row} {ps : List (AnyRow Row)} {t : Table}
  {st : State}

/-! ## Unique rows -/

/-- The unique constraints of the table admit both rows. -/
def Apart (t : Table) (a b : Row t) : Prop :=
  uniqueError (Function.update (fun _ => []) t [a]) t b = none

instance (a b : Row t) : Decidable (Apart t a b) := inferInstanceAs (Decidable (_ = none))

theorem uniqueError_apart {r : Row t} : uniqueError V t r = none ↔ ∀ r' ∈ V t, Apart t r' r := by
  cases t <;> simp [Apart, uniqueError, firstError_eq_none, taken_eq_none, forall_and]

/-- The primary key is unique. -/
theorem Apart.key {a b : Row t} (h : Apart t a b) : keyOf t a ≠ keyOf t b := by
  have hpk := firstError_eq_none.mp h _ List.mem_cons_self
  rw [taken_eq_none] at hpk
  simpa using hpk

section Tables

-- the lemmas below unfold the constraints at one table each
attribute [local simp] Apart uniqueError firstError_eq_none taken_eq_none keyOf

theorem apart_tenants {a b : Tenant} : Apart .tenants a b ↔ a.id ≠ b.id ∧ a.slug ≠ b.slug := by
  simp

theorem apart_modules {a b : Module} : Apart .modules a b ↔ a.id ≠ b.id ∧ a.code ≠ b.code := by
  simp

theorem apart_tenantModules {a b : TenantModule} : Apart .tenantModules a b ↔
    a.id ≠ b.id ∧ (a.tenantId = b.tenantId → a.moduleId ≠ b.moduleId) := by
  simp

theorem apart_permissions {a b : Permission} :
    Apart .permissions a b ↔ a.id ≠ b.id ∧ a.code ≠ b.code := by
  simp

theorem apart_roles {a b : Role} :
    Apart .roles a b ↔ a.id ≠ b.id ∧ (a.tenantId = b.tenantId → a.code ≠ b.code) := by
  simp

theorem apart_users {a b : User} :
    Apart .users a b ↔ a.id ≠ b.id ∧ (a.tenantId = b.tenantId → a.email ≠ b.email) := by
  simp

theorem apart_rolePermissions {a b : RolePermission} :
    Apart .rolePermissions a b ↔ (a.roleId = b.roleId → a.permissionId ≠ b.permissionId) := by
  simp

end Tables

/-- Rows that are the same in a unique column are the same row. -/
theorem eq_of_pairwise {α : Type} {R : α → α → Prop} {rows : List α} (h : rows.Pairwise R) {a b : α}
    (ha : a ∈ rows) (hb : b ∈ rows) (hab : ¬ R a b) (hba : ¬ R b a) : a = b := by
  by_contra hne
  have hsymm : rows.Pairwise fun a b => R a b ∨ R b a := h.imp .inl
  have : Std.Symm fun a b => R a b ∨ R b a := ⟨fun _ _ => Or.symm⟩
  exact (hsymm.forall ha hb hne).elim hab hba

/-- At most one row has the value that a unique column is asked for. -/
theorem filter_apart {α : Type} {R : α → α → Prop} {rows : List α} (h : rows.Pairwise R)
    {p : α → Bool} (hp : ∀ a b, p a = true → p b = true → ¬ R a b) :
    (rows.filter p).length ≤ 1 := by
  have hfiltered := h.filter p
  have hall : ∀ a ∈ rows.filter p, p a = true := fun a ha => (List.mem_filter.mp ha).2
  generalize rows.filter p = found at hfiltered hall
  rcases found with _ | ⟨a, _ | ⟨b, found⟩⟩
  · exact Nat.zero_le _
  · exact Nat.le_refl _
  · have hab := (List.pairwise_cons.mp hfiltered).1 b List.mem_cons_self
    exact absurd hab (hp a b (hall a List.mem_cons_self)
      (hall b (List.mem_cons_of_mem _ List.mem_cons_self)))

/-! ## Constraints -/

/-- The unique constraints hold, and the association tables refer to rows that exist. -/
structure Constrained (db : Database Row) : Prop where
  unique : ∀ t, (db t).Pairwise (Apart t)
  granted : ∀ rp ∈ db .rolePermissions,
    (∃ r ∈ db .roles, r.id = rp.roleId) ∧ ∃ p ∈ db .permissions, p.id = rp.permissionId
  assigned : ∀ ur ∈ db .userRoles,
    (∃ u ∈ db .users, u.id = ur.userId) ∧ ∃ r ∈ db .roles, r.id = ur.roleId

/-- A lookup of a unique column finds the row, or there is none. -/
theorem Constrained.found (h : Constrained V) {p : Row t → Bool}
    (hp : ∀ a b, p a = true → p b = true → ¬ Apart t a b) :
    ((V t).filter p = [] ∧ ∀ r ∈ V t, p r = false) ∨
      ∃ r ∈ V t, p r = true ∧ (V t).filter p = [r] := by
  have hone := filter_apart (h.unique t) hp
  rcases hfound : (V t).filter p with _ | ⟨r, _ | ⟨r', rest⟩⟩
  · exact .inl ⟨rfl, fun r hr => by simpa using List.filter_eq_nil_iff.mp hfound r hr⟩
  · have hmem : r ∈ (V t).filter p := by simp [hfound]
    exact .inr ⟨r, (List.mem_filter.mp hmem).1, (List.mem_filter.mp hmem).2, rfl⟩
  · rw [hfound] at hone
    simp at hone

/-- Rows with the same key are the same row. -/
theorem Constrained.key_eq (h : Constrained V) {a b : Row t} (ha : a ∈ V t) (hb : b ∈ V t)
    (hkey : keyOf t a = keyOf t b) : a = b :=
  eq_of_pairwise (h.unique t) ha hb (fun hab => hab.key hkey) fun hba => hba.key hkey.symm

theorem Constrained.tenant_eq (h : Constrained V) {a b : Tenant} (ha : a ∈ V .tenants)
    (hb : b ∈ V .tenants) (hslug : a.slug = b.slug) : a = b :=
  eq_of_pairwise (h.unique .tenants) ha hb (fun hab => (apart_tenants.mp hab).2 hslug)
    fun hba => (apart_tenants.mp hba).2 hslug.symm

theorem Constrained.module_eq (h : Constrained V) {a b : Module} (ha : a ∈ V .modules)
    (hb : b ∈ V .modules) (hcode : a.code = b.code) : a = b :=
  eq_of_pairwise (h.unique .modules) ha hb (fun hab => (apart_modules.mp hab).2 hcode)
    fun hba => (apart_modules.mp hba).2 hcode.symm

theorem Constrained.licence_eq (h : Constrained V) {a b : TenantModule}
    (ha : a ∈ V .tenantModules) (hb : b ∈ V .tenantModules) (htenant : a.tenantId = b.tenantId)
    (hmodule : a.moduleId = b.moduleId) : a = b :=
  eq_of_pairwise (h.unique .tenantModules) ha hb
    (fun hab => (apart_tenantModules.mp hab).2 htenant hmodule)
    fun hba => (apart_tenantModules.mp hba).2 htenant.symm hmodule.symm

theorem Constrained.permission_eq (h : Constrained V) {a b : Permission}
    (ha : a ∈ V .permissions) (hb : b ∈ V .permissions) (hcode : a.code = b.code) : a = b :=
  eq_of_pairwise (h.unique .permissions) ha hb (fun hab => (apart_permissions.mp hab).2 hcode)
    fun hba => (apart_permissions.mp hba).2 hcode.symm

theorem Constrained.role_eq (h : Constrained V) {a b : Role} (ha : a ∈ V .roles)
    (hb : b ∈ V .roles) (htenant : a.tenantId = b.tenantId) (hcode : a.code = b.code) : a = b :=
  eq_of_pairwise (h.unique .roles) ha hb (fun hab => (apart_roles.mp hab).2 htenant hcode)
    fun hba => (apart_roles.mp hba).2 htenant.symm hcode.symm

theorem Constrained.user_eq (h : Constrained V) {a b : User} (ha : a ∈ V .users)
    (hb : b ∈ V .users) (htenant : a.tenantId = b.tenantId) (hemail : a.email = b.email) : a = b :=
  eq_of_pairwise (h.unique .users) ha hb (fun hab => (apart_users.mp hab).2 htenant hemail)
    fun hba => (apart_users.mp hba).2 htenant.symm hemail.symm

/-- A granted permission refers to its role and its permission. -/
theorem referenceError_rolePermissions {r : RolePermission} :
    referenceError V .rolePermissions r = none ↔
      (∃ role ∈ V .roles, role.id = r.roleId) ∧ ∃ p ∈ V .permissions, p.id = r.permissionId := by
  simp [referenceError, firstError_eq_none, tenantOf, references_eq_none, keyOf]

theorem mem_insert {r : Row t} {t' : Table} {x : Row t'} :
    x ∈ Write.apply schema V (.insert t r) t' ↔
      x ∈ V t' ∨ (⟨t', x⟩ : AnyRow Row) = ⟨t, r⟩ := by
  by_cases ht : t = t'
  · subst ht
    rw [Write.apply_insert, List.mem_append, List.mem_singleton, Sigma.mk.injEq]
    simp
  · rw [Write.apply_other (w := .insert t r) ht]
    refine (or_iff_left fun heq => ht ?_).symm
    exact (congrArg Sigma.fst heq).symm

/-- A row that passes the checks is inserted. -/
theorem Constrained.insert (h : Constrained V) {r : Row t} (hunique : uniqueError V t r = none)
    (hrefers : referenceError V t r = none) :
    Constrained (Write.apply schema V (.insert t r)) := by
  have hgrows : ∀ t' x, x ∈ V t' → x ∈ Write.apply schema V (.insert t r) t' :=
    fun t' x hx => mem_insert.mpr (.inl hx)
  refine ⟨fun t' => ?_, fun rp hrp => ?_, fun ur hur => ?_⟩
  · by_cases ht : t = t'
    · subst ht
      rw [Write.apply_insert, List.pairwise_append]
      refine ⟨h.unique t, List.pairwise_singleton _ _, fun a ha b hb => ?_⟩
      rw [List.mem_singleton.mp hb]
      exact uniqueError_apart.mp hunique a ha
    · rw [Write.apply_other (w := .insert t r) ht]
      exact h.unique t'
  · have hrows : (∃ r ∈ V .roles, r.id = rp.roleId) ∧
        ∃ p ∈ V .permissions, p.id = rp.permissionId := by
      rcases mem_insert.mp hrp with hrp | heq
      · exact h.granted rp hrp
      · cases heq
        exact referenceError_rolePermissions.mp hrefers
    obtain ⟨⟨role, hrole, hid⟩, p, hp, hpid⟩ := hrows
    exact ⟨⟨role, hgrows _ _ hrole, hid⟩, p, hgrows _ _ hp, hpid⟩
  · have hrows : (∃ u ∈ V .users, u.id = ur.userId) ∧ ∃ r ∈ V .roles, r.id = ur.roleId := by
      rcases mem_insert.mp hur with hur | heq
      · exact h.assigned ur hur
      · cases heq
        exact referenceError_userRoles.mp hrefers
    obtain ⟨⟨u, hu, hid⟩, role, hrole, hrid⟩ := hrows
    exact ⟨⟨u, hgrows _ _ hu, hid⟩, role, hgrows _ _ hrole, hrid⟩

/-- Rows of an association table may go. -/
theorem Constrained.delete (h : Constrained V) (ht : t = .rolePermissions ∨ t = .userRoles)
    (k : List Uuid) : Constrained (Write.apply schema V (.delete t k)) := by
  have hshrinks : ∀ t' x, x ∈ Write.apply schema V (.delete t k) t' → x ∈ V t' := by
    intro t' x hx
    by_cases htt : t = t'
    · subst htt
      rw [Write.apply_delete] at hx
      exact List.mem_of_mem_filter hx
    · rwa [Write.apply_other (w := .delete t k) htt] at hx
  have hother : ∀ t', t' ≠ .rolePermissions → t' ≠ .userRoles →
      Write.apply schema V (.delete t k) t' = V t' := by
    intro t' hrp hur
    refine Write.apply_other ?_
    rcases ht with rfl | rfl
    · exact hrp.symm
    · exact hur.symm
  refine ⟨fun t' => ?_, fun rp hrp => ?_, fun ur hur => ?_⟩
  · by_cases htt : t = t'
    · subst htt
      rw [Write.apply_delete]
      exact (h.unique t).filter _
    · rw [Write.apply_other (w := .delete t k) htt]
      exact h.unique t'
  · rw [hother .roles (by decide) (by decide), hother .permissions (by decide) (by decide)]
    exact h.granted rp (hshrinks _ rp hrp)
  · rw [hother .users (by decide) (by decide), hother .roles (by decide) (by decide)]
    exact h.assigned ur (hshrinks _ ur hur)

/-- The rows of a table, one of them rewritten. -/
theorem mem_rewritten (h : Constrained V) {r new : Row t} (hr : r ∈ V t) {x : Row t} :
    x ∈ Write.apply schema V (.update t (keyOf t r) new) t ↔ x = new ∨ x ∈ V t ∧ x ≠ r := by
  rw [Write.apply_update, List.mem_map]
  constructor
  · rintro ⟨x', hx', rfl⟩
    by_cases hkey : keyOf t x' = keyOf t r
    · exact .inl (if_pos hkey)
    · refine .inr ?_
      rw [show (if schema.key t x' = keyOf t r then new else x') = x' from if_neg hkey]
      exact ⟨hx', fun heq => hkey (congrArg (keyOf t) heq)⟩
  · rintro (rfl | ⟨hx, hne⟩)
    · exact ⟨r, hr, if_pos rfl⟩
    · exact ⟨x, hx, if_neg fun hkey => hne (h.key_eq hx hr hkey)⟩

/-- A licence may be rewritten under its keys. -/
theorem Constrained.licence_rewritten (h : Constrained V) {tm new : TenantModule}
    (htm : tm ∈ V .tenantModules) (hid : new.id = tm.id) (htenant : new.tenantId = tm.tenantId)
    (hmodule : new.moduleId = tm.moduleId) :
    Constrained (Write.apply schema V (.update .tenantModules [tm.id] new)) := by
  have hother : ∀ t', t' ≠ .tenantModules →
      Write.apply schema V (.update .tenantModules [tm.id] new) t' = V t' :=
    fun t' ht' => Write.apply_other (Ne.symm ht')
  refine ⟨fun t' => ?_, fun rp hrp => ?_, fun ur hur => ?_⟩
  · by_cases ht' : t' = .tenantModules
    · subst ht'
      rw [Write.apply_update, List.pairwise_map]
      refine (h.unique .tenantModules).imp_of_mem fun {a b} ha hb hab => ?_
      have hkeys : ∀ r ∈ V .tenantModules, ∀ x : TenantModule,
          x = (if schema.key .tenantModules r = [tm.id] then new else r) →
          x.id = r.id ∧ x.tenantId = r.tenantId ∧ x.moduleId = r.moduleId := by
        rintro r hr x rfl
        split
        · rename_i hkey
          obtain rfl := h.key_eq (t := .tenantModules) hr htm hkey
          exact ⟨hid, htenant, hmodule⟩
        · exact ⟨rfl, rfl, rfl⟩
      obtain ⟨haid, hatenant, hamodule⟩ := hkeys a ha _ rfl
      obtain ⟨hbid, hbtenant, hbmodule⟩ := hkeys b hb _ rfl
      rw [apart_tenantModules] at hab ⊢
      rw [haid, hbid, hatenant, hbtenant, hamodule, hbmodule]
      exact hab
    · rw [hother t' ht']
      exact h.unique t'
  · rw [hother .rolePermissions (by decide)] at hrp
    rw [hother .roles (by decide), hother .permissions (by decide)]
    exact h.granted rp hrp
  · rw [hother .userRoles (by decide)] at hur
    rw [hother .users (by decide), hother .roles (by decide)]
    exact h.assigned ur hur

/-! ## A transaction -/

/-- One transaction is open. It started from `D`, sees `V` and has the rows `ps` waiting. -/
def At (g : Guc) (D V : Database Row) (ps : List (AnyRow Row)) (s : State) : Prop :=
  ∃ w tx, s = (w, [tx]) ∧ w.db = D ∧ tx.guc = g ∧ tx.pending = ps ∧ view schema D tx = V

/-- What the innermost transaction sees. -/
def viewed (st : State) : Database Row :=
  match st.2 with
  | [] => st.1.db
  | tx :: _ => view schema st.1.db tx

theorem At.viewed (h : At g D V ps st) : viewed st = V := by
  obtain ⟨w, tx, rfl, rfl, -, -, rfl⟩ := h
  rfl

/-- The settings let every row of the table through. -/
def Open (g : Guc) (t : Table) : Prop := g.bypassRls = true ∨ t ∉ rlsTables

theorem Open.policy (h : Open g t) (r : Row t) : schema.policy g t r = true := by
  show LmsBackend.policy g t r = true
  unfold LmsBackend.policy
  rcases h with h | h
  · rw [h]
    simp
  · rw [if_neg h]

theorem Open.seen {w : World} {tx : Tx} (h : Open g t) (hdb : w.db = D) (hguc : tx.guc = g)
    (hview : view schema D tx = V) : seen w tx t = V t := by
  subst hdb hguc hview
  exact List.filter_eq_self.mpr fun r _ => h.policy r

/-- A query finds the rows that satisfy its condition. -/
theorem At.query (h : At g D V ps st) (ht : Open g t) (p : Row t → Bool) :
    runM env (query t p) st = (.ok ((V t).filter p), st) := by
  obtain ⟨w, tx, rfl, hdb, hguc, -, hview⟩ := h
  rw [runM_query, ht.seen hdb hguc hview]

/-- One more row waits. -/
theorem At.add (h : At g D V ps st) (r : Row t) :
    ∃ s', runM env (add t r) st = (.ok (), s') ∧ At g D V (ps ++ [⟨t, r⟩]) s' := by
  obtain ⟨w, tx, rfl, hdb, hguc, rfl, hview⟩ := h
  exact ⟨_, rfl, w, _, rfl, hdb, hguc, rfl, hview⟩

theorem At.uuid4 (h : At g D V ps st) :
    ∃ s', runM env uuid4 st = (.ok st.1.nextUuid, s') ∧ At g D V ps s' := by
  obtain ⟨w, tx, rfl, hdb, hguc, hps, hview⟩ := h
  exact ⟨_, rfl, _, tx, rfl, hdb, hguc, hps, hview⟩

theorem At.now (h : At g D V ps st) :
    ∃ s', runM env now st = (.ok (env.clock st.1.ticks), s') ∧ At g D V ps s' := by
  obtain ⟨w, tx, rfl, hdb, hguc, hps, hview⟩ := h
  exact ⟨_, rfl, _, tx, rfl, hdb, hguc, hps, hview⟩

theorem At.hashPassword (h : At g D V ps st) (plain : String) :
    ∃ hashed s', runM env (hashPassword env plain) st = (.ok hashed, s') ∧ At g D V ps s' := by
  obtain ⟨w, tx, rfl, hdb, hguc, hps, hview⟩ := h
  exact ⟨_, _, rfl, _, tx, rfl, hdb, hguc, hps, hview⟩

/-- A row that the settings let through is rewritten, unless a check refuses it. -/
theorem At.update (h : At g D V ps st) (hopen : Open g t) (hV : Constrained V) {r : Row t}
    (hr : r ∈ V t) {id : Uuid} (hkey : keyOf t r = [id]) {s : Session} {f : Row t → Row t}
    (hcheck : schema.checkUpdate V t r (schema.coerce t (touch s.startedAt t (f r))) = none) :
    ∃ s', runM env (updateRow s t id f) st = (.ok (), s') ∧ At g D (Write.apply schema V
      (.update t [id] (schema.coerce t (touch s.startedAt t (f r))))) ps s' := by
  obtain ⟨w, tx, rfl, rfl, rfl, rfl, rfl⟩ := h
  have hrun := @runM_updateRow env s t id f w tx []
  have htarget : target schema w.db tx t [id] (fun _ => true) = some r := by
    cases hfind : target schema w.db tx t [id] fun _ => true with
    | none =>
      have hmiss := List.find?_eq_none.mp hfind r (mem_visible.mpr ⟨hr, hopen.policy r⟩)
      rw [Bool.and_true, decide_eq_true_iff] at hmiss
      exact absurd hkey hmiss
    | some r' =>
      obtain ⟨hr', -, hkey', -⟩ := target_some hfind
      rw [hV.key_eq hr' hr (hkey'.trans hkey.symm)]
  have hupdate : updateError schema w.db tx t r
      (schema.coerce t (touch s.startedAt t (f r))) = none := by
    rw [updateError, hopen.policy]
    exact hcheck
  rw [htarget] at hrun
  dsimp only at hrun
  rw [hupdate] at hrun
  exact ⟨_, hrun, w, _, rfl, rfl, rfl, rfl, view_push _ _ _ _⟩

/-- The database after some writes. -/
def wrote (V : Database Row) (ws : List (Mvcc.Write Row (List Uuid))) : Database Row :=
  ws.foldl (Write.apply schema) V

theorem wrote_other {ws : List (Mvcc.Write Row (List Uuid))} (h : ∀ x ∈ ws, x.table ≠ t) :
    wrote V ws t = V t := foldl_apply_other h

theorem mem_wrote_inserting {x : Row t} :
    x ∈ wrote V (ps.map inserting) t ↔
      x ∈ V t ∨ ∃ y ∈ ps, (⟨t, x⟩ : AnyRow Row) = ⟨y.1, schema.coerce y.1 y.2⟩ := by
  induction ps generalizing V with
  | nil => simp [wrote]
  | cons y ps ih =>
    show x ∈ wrote (Write.apply schema V (inserting y)) (ps.map inserting) t ↔ _
    rw [ih, inserting, mem_insert]
    simp [or_assoc]

/-- Tables into which nothing is inserted are as they were. -/
theorem wrote_inserting_other (h : ∀ y ∈ ps, y.1 ≠ t) : wrote V (ps.map inserting) t = V t := by
  refine wrote_other fun x hx => ?_
  obtain ⟨y, hy, rfl⟩ := List.mem_map.mp hx
  exact h y hy

/-- Rows that were inserted passed the checks. -/
theorem insertAll_constrained {tx tx' : Tx} (hall : insertAll D tx ps = (.ok (), tx')) :
    (Constrained (view schema D tx) → Constrained (view schema D tx')) ∧
      ∀ x ∈ ps, schema.policy tx.guc x.1 (schema.coerce x.1 x.2) = true := by
  induction ps generalizing tx with
  | nil =>
    cases hall
    exact ⟨id, by simp⟩
  | cons x ps ih =>
    obtain ⟨hinsert, hrest⟩ := insertAll_cons_ok hall
    obtain ⟨hkeeps, hpolicy⟩ := ih hrest
    obtain ⟨-, hunique, hrefers⟩ := insertError_checks hinsert
    refine ⟨fun h => hkeeps ?_, List.forall_mem_cons.mpr ⟨(insertError_none hinsert).1, hpolicy⟩⟩
    rw [view_push]
    exact h.insert hunique hrefers

/-- The waiting rows are inserted, or one of them is refused. -/
theorem flush_at (h : At g D V ps st) {E : Err → State → Prop} (herror : ∀ e s', ps ≠ [] → E e s') :
    Ends env flush st (fun _ s' => At g D (wrote V (ps.map inserting)) [] s' ∧
      (Constrained V → Constrained (wrote V (ps.map inserting))) ∧
      ∀ x ∈ ps, schema.policy g x.1 (schema.coerce x.1 x.2) = true) E := by
  obtain ⟨w, tx, rfl, rfl, rfl, rfl, rfl⟩ := h
  refine flush_ends (fun hok => ?_) fun e tx' hfailed => herror _ _ fun hnil => ?_
  · rcases hall : insertAll w.db { tx with pending := [] } tx.pending with ⟨r, tx'⟩
    obtain rfl : r = .ok () := (congrArg Prod.fst hall).symm.trans hok
    obtain ⟨hkeeps, hpolicy⟩ := insertAll_constrained hall
    obtain rfl := insertAll_ok hall
    have hview : view schema w.db ⟨tx.guc, tx.writes ++ tx.pending.map inserting, []⟩ =
        wrote (view schema w.db tx) (tx.pending.map inserting) := List.foldl_append
    refine ⟨⟨w, _, rfl, rfl, rfl, rfl, hview⟩, fun hV => ?_, hpolicy⟩
    rw [← hview]
    exact hkeeps hV
  · rw [flushed_nil hnil] at hfailed
    cases hfailed

/-! ## Collections -/

/-- An association table: its rows are pairs of identifiers. -/
structure Association (t : Table) where
  pair : Uuid → Uuid → Row t
  key : ∀ a b, keyOf t (pair a b) = [a, b]
  eta : ∀ r, ∃ a b, r = pair a b
  stored : ∀ r, schema.coerce t r = r
  table : t = .rolePermissions ∨ t = .userRoles

/-- `role_permissions`. -/
def rolePermissionLinks : Association .rolePermissions where
  pair a b := ⟨a, b⟩
  key _ _ := rfl
  eta r := ⟨r.roleId, r.permissionId, rfl⟩
  stored _ := rfl
  table := .inl rfl

/-- `user_roles`. -/
def userRoleLinks : Association .userRoles where
  pair a b := ⟨a, b⟩
  key _ _ := rfl
  eta r := ⟨r.userId, r.roleId, rfl⟩
  stored _ := rfl
  table := .inr rfl

/-- The flush of a changed collection of `owner`: the links that went, then those that came. -/
def relink (links : Association t) (owner : Uuid) (old new : List Uuid) : M Unit := do
  Prog.forEach (old.filter fun x => new.all fun y => y ≠ x) fun x => deleteRow t [owner, x]
  Prog.forEach (new.filter fun x => old.all fun y => y ≠ x) fun x =>
    insertRow ⟨t, links.pair owner x⟩

theorem assignRoles_eq (user : LoadedUser) (roles : List LoadedRole) :
    assignRoles user roles = relink userRoleLinks user.user.id (user.roles.map (·.role.id))
      (roles.map (·.role.id)) := by
  unfold assignRoles relink
  simp only [List.filter_map, List.all_map, Prog.forEach_map]
  rfl

section Relink

variable {links : Association t} {owner : Uuid}

theorem Association.pair_inj (links : Association t) {a b a' b' : Uuid} :
    links.pair a b = links.pair a' b' ↔ a = a' ∧ b = b' := by
  refine ⟨fun h => ?_, fun h => by rw [h.1, h.2]⟩
  have hkey := congrArg (keyOf t) h
  rw [links.key, links.key] at hkey
  simpa using hkey

/-- The links of the owner in `V` are those to `xs`, and the others are as they were. -/
structure Relinked (links : Association t) (owner : Uuid) (V V' : Database Row)
    (linked : Uuid → Prop) : Prop where
  own : ∀ x, links.pair owner x ∈ V' t ↔ linked x
  others : ∀ a x, a ≠ owner → (links.pair a x ∈ V' t ↔ links.pair a x ∈ V t)
  tables : ∀ t', t' ≠ t → V' t' = V t'

theorem deleteRow_at (h : At g D V ps st) (k : List Uuid) :
    Ends env (deleteRow t k) st (fun _ s' => At g D (Write.apply schema V (.delete t k)) ps s')
      fun _ _ => True := by
  obtain ⟨w, tx, rfl, rfl, rfl, rfl, rfl⟩ := h
  have hsql : runM env (sql (.delete t k)) (w, [tx]) =
      (.ok (execTx schema w.db tx (.delete t k)).1,
        (w, [(execTx schema w.db tx (.delete t k)).2])) := rfl
  refine .bind_ok hsql ?_
  simp only [execTx]
  cases target schema w.db tx t k fun _ => true with
  | none => exact .raise trivial
  | some old => exact .ret ⟨w, tx.push (.delete t k), rfl, rfl, rfl, rfl, view_push _ _ _ _⟩

/-- Links are removed one after the other. -/
theorem unlink_at (xs : List Uuid) (h : At g D V ps st) :
    Ends env (Prog.forEach xs fun x => deleteRow t [owner, x]) st
      (fun _ s' => ∃ V', At g D V' ps s' ∧ (Constrained V → Constrained V') ∧
        Relinked links owner V V' fun x => links.pair owner x ∈ V t ∧ x ∉ xs)
      fun _ _ => xs ≠ [] := by
  induction xs generalizing st V with
  | nil => exact .ret ⟨V, h, id, by simp, fun _ _ _ => Iff.rfl, fun _ _ => rfl⟩
  | cons x xs ih =>
    have hdeleted : ∀ a y, links.pair a y ∈ Write.apply schema V (.delete t [owner, x]) t ↔
        links.pair a y ∈ V t ∧ ¬ (a = owner ∧ y = x) := by
      intro a y
      rw [Write.apply_delete, List.mem_filter, decide_eq_true_iff]
      show _ ∧ keyOf t (links.pair a y) ≠ [owner, x] ↔ _
      rw [links.key]
      simp
    refine .bind ((deleteRow_at h [owner, x]).mono (fun _ s₁ h₁ => ?_)
      fun _ _ _ => List.cons_ne_nil x xs)
    refine (ih h₁).mono (fun _ s' => ?_) fun _ _ _ => List.cons_ne_nil x xs
    rintro ⟨V', hat, hkeeps, hlinks⟩
    refine ⟨V', hat, fun hV => hkeeps (hV.delete links.table _), fun y => ?_, fun a y ha => ?_,
      fun t' ht' => ?_⟩
    · rw [hlinks.own, hdeleted, List.mem_cons, not_or]
      simp [and_assoc]
    · rw [hlinks.others a y ha, hdeleted]
      exact and_iff_left fun hown => ha hown.1
    · rw [hlinks.tables t' ht', Write.apply_other (Ne.symm ht')]

/-- Links are added one after the other. -/
theorem link_at (xs : List Uuid) (h : At g D V ps st) :
    Ends env (Prog.forEach xs fun x => insertRow ⟨t, links.pair owner x⟩) st
      (fun _ s' => ∃ V', At g D V' ps s' ∧ (Constrained V → Constrained V') ∧
        Relinked links owner V V' fun x => links.pair owner x ∈ V t ∨ x ∈ xs)
      fun _ _ => xs ≠ [] := by
  induction xs generalizing st V with
  | nil => exact .ret ⟨V, h, id, by simp, fun _ _ _ => Iff.rfl, fun _ _ => rfl⟩
  | cons x xs ih =>
    obtain ⟨w, tx, rfl, rfl, rfl, rfl, rfl⟩ := h
    have hrun := @runM_insertRow env w tx [] ⟨t, links.pair owner x⟩
    rw [links.stored] at hrun
    cases hinsert : insertError schema w.db tx t (links.pair owner x) with
    | some e =>
      rw [hinsert] at hrun
      exact .bind (.of_error hrun (List.cons_ne_nil x xs))
    | none =>
      rw [hinsert] at hrun
      obtain ⟨-, hunique, hrefers⟩ := insertError_checks hinsert
      have hpush : inserting ⟨t, links.pair owner x⟩ = .insert t (links.pair owner x) :=
        congrArg (Mvcc.Write.insert t) (links.stored _)
      rw [hpush] at hrun
      have hinserted : ∀ a y, links.pair a y ∈
          Write.apply schema (view schema w.db tx) (.insert t (links.pair owner x)) t ↔
            links.pair a y ∈ view schema w.db tx t ∨ a = owner ∧ y = x := by
        intro a y
        rw [Write.apply_insert, List.mem_append, List.mem_singleton, links.pair_inj]
      refine .bind_ok hrun ?_
      refine (ih ⟨w, tx.push (.insert t (links.pair owner x)), rfl, rfl, rfl, rfl,
        view_push _ _ _ _⟩).mono (fun _ s' => ?_)
        fun _ _ _ => List.cons_ne_nil x xs
      rintro ⟨V', hat, hkeeps, hlinks⟩
      refine ⟨V', hat, fun hV => hkeeps (hV.insert hunique hrefers), fun y => ?_, fun a y ha => ?_,
        fun t' ht' => ?_⟩
      · rw [hlinks.own, hinserted, List.mem_cons]
        simp [or_assoc]
      · rw [hlinks.others a y ha, hinserted]
        exact or_iff_left fun hown => ha hown.1
      · rw [hlinks.tables t' ht', Write.apply_other (Ne.symm ht')]

/-- A collection is replaced: the owner's links are those to the new members. Where they were
before, nothing is written. -/
theorem relink_at {old new : List Uuid} (h : At g D V ps st)
    (hold : ∀ x, x ∈ old ↔ links.pair owner x ∈ V t) :
    Ends env (relink links owner old new) st
      (fun _ s' => ∃ V', At g D V' ps s' ∧ (Constrained V → Constrained V') ∧
        Relinked links owner V V' (· ∈ new) ∧
        ((∀ x, links.pair owner x ∈ V t ↔ x ∈ new) → V' = V))
      fun _ _ => ¬ ∀ x, links.pair owner x ∈ V t ↔ x ∈ new := by
  have hgone : (∀ x, links.pair owner x ∈ V t ↔ x ∈ new) →
      (old.filter fun x => new.all fun y => y ≠ x) = [] := by
    refine fun hsame => List.filter_eq_nil_iff.mpr fun x hx hall => ?_
    have hnew := (hsame x).mp ((hold x).mp hx)
    exact of_decide_eq_true (List.all_eq_true.mp hall x hnew) rfl
  have hcame : (∀ x, links.pair owner x ∈ V t ↔ x ∈ new) →
      (new.filter fun x => old.all fun y => y ≠ x) = [] := by
    refine fun hsame => List.filter_eq_nil_iff.mpr fun x hx hall => ?_
    have hhad := (hold x).mpr ((hsame x).mpr hx)
    exact of_decide_eq_true (List.all_eq_true.mp hall x hhad) rfl
  by_cases hsame : ∀ x, links.pair owner x ∈ V t ↔ x ∈ new
  · -- no link goes and none comes
    unfold relink
    rw [hgone hsame, hcame hsame]
    exact .ret ⟨V, h, id, ⟨hsame, fun _ _ _ => Iff.rfl, fun _ _ => rfl⟩, fun _ => rfl⟩
  · refine .bind ((@unlink_at env g D V ps t st links owner _ h).mono (fun _ s₁ => ?_) fun _ _ _ => hsame)
    rintro ⟨V₁, h₁, hkeeps₁, hlinks₁⟩
    refine (@link_at env g D V₁ ps t s₁ links owner _ h₁).mono (fun _ s₂ => ?_)
      fun _ _ _ => hsame
    rintro ⟨V₂, h₂, hkeeps₂, hlinks₂⟩
    refine ⟨V₂, h₂, hkeeps₂ ∘ hkeeps₁, ⟨fun x => ?_, fun a x ha => ?_, fun t' ht' => ?_⟩,
      fun h' => absurd h' hsame⟩
    · rw [hlinks₂.own, hlinks₁.own]
      simp only [List.mem_filter, List.all_eq_true, decide_eq_true_iff, hold]
      constructor
      · rintro (⟨hlinked, hstays⟩ | ⟨hnew, -⟩)
        · by_contra hnot
          refine hstays ⟨hlinked, fun y hy hyx => hnot (hyx ▸ hy)⟩
        · exact hnew
      · intro hnew
        by_cases hlinked : links.pair owner x ∈ V t
        · exact .inl ⟨hlinked, fun hleaves => hleaves.2 x hnew rfl⟩
        · exact .inr ⟨hnew, fun y hy hyx => hlinked (hyx ▸ hy)⟩
    · rw [hlinks₂.others a x ha, hlinks₁.others a x ha]
    · rw [hlinks₂.tables t' ht', hlinks₁.tables t' ht']

end Relink

end LmsBackend
