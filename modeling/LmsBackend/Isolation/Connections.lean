import LmsBackend.Core.Platform
import LmsBackend.Effects.Runs

/-!
# Pooled connections

A physical connection outlives the sessions that use it, and so do its settings.
Here the settings are texts, as `current_setting(name, true)` reports them, and the
policy is the SQL text of the migration with its three truth values.

- `predicate`: `_PREDICATE`, both as `USING` and as `WITH CHECK`.
- `Connection`, `Connection.Step`: sessions of `get_db` and `tenant_session` one
  after the other. What `set_config(_, _, true)` sets is gone when the transaction
  ends; the setting is then unset or empty, which of the two is not fixed.
- `bound_admits`: in a session the policy admits the rows of the tenant that this
  session binds, and all rows if it bypasses.
- `admits_iff_policy`: the settings of `Core.Schema` are what the texts stand for.
-/

namespace LmsBackend

open Mvcc

/-! ## SQL expressions -/

/-- A truth value of SQL; `none` is null. -/
abbrev Truth := Option Bool

/-- `a OR b`. -/
def Truth.or : Truth → Truth → Truth
  | some true, _ => some true
  | _, some true => some true
  | some false, some false => some false
  | _, _ => none

/-- `a = b`, null if one of them is. -/
def sqlEq {α : Type} [DecidableEq α] : Option α → Option α → Truth
  | some a, some b => some (decide (a = b))
  | _, _ => none

/-- `NULLIF(a, b)`. -/
def nullIf (a : Option String) (b : String) : Option String := a.filter (· ≠ b)

/-- `a::uuid`, an error for a malformed text. -/
def castUuid : Option String → Except String (Option Uuid)
  | none => .ok none
  | some text =>
    match parseUuid text with
    | some u => .ok (some u)
    | none => .error "invalid input syntax for type uuid"

/-- A row passes a policy whose expression is true, not null. -/
def IsTrue (r : Except String Truth) : Prop := r = .ok (some true)

theorem Truth.or_eq_true {a b : Truth} : a.or b = some true ↔ a = some true ∨ b = some true := by
  rcases a with _ | _ | _ <;> rcases b with _ | _ | _ <;> simp [Truth.or]

theorem sqlEq_eq_true {α : Type} [DecidableEq α] {a b : Option α} :
    sqlEq a b = some true ↔ ∃ x, a = some x ∧ b = some x := by
  rcases a with _ | x <;> rcases b with _ | y <;> simp [sqlEq, eq_comm]

/-! ## Settings -/

/-- The settings `app.tenant_id` and `app.bypass_rls`. -/
inductive GucName | tenantId | bypassRls
  deriving DecidableEq

/-- What `current_setting(name, true)` answers: null, or a text. -/
abbrev Gucs := GucName → Option String

/-- `_PREDICATE` for a row of this tenant. -/
def predicate (g : Gucs) (tenantId : Uuid) : Except String Truth := do
  let bound ← castUuid (nullIf (g .tenantId) "")
  return (sqlEq (some tenantId) bound).or (sqlEq (g .bypassRls) (some "on"))

/-- The policy's `USING` clause lets the session see the row. -/
def Visible (g : Gucs) (t : Table) (r : Row t) : Prop :=
  ∀ tenantId, tenantOf t r = some tenantId → IsTrue (predicate g tenantId)

/-- The policy's `WITH CHECK` clause lets the session write the row. -/
def Writable (g : Gucs) (t : Table) (r : Row t) : Prop :=
  ∀ tenantId, tenantOf t r = some tenantId → IsTrue (predicate g tenantId)

/-- `_bind_rls`, as the `set_config` calls it makes. -/
def bindStatements (env : Env) (tenantId : Option Uuid) (bypass : Bool) :
    List (GucName × String) :=
  if env.settings.enableRowLevelSecurity then
    (.bypassRls, if bypass then "on" else "off") ::
      (match tenantId with
      | some tid => [(.tenantId, uuidStr tid)]
      | none => [])
  else []

/-! ## Sessions on one connection -/

/-- A session, by the way it is opened. -/
inductive Opening
  | getDb (rc : Option RequestContext)
  | tenantSession (tenantId : Option Uuid) (bypassRls : Bool)

/-- The tenant that the session binds. -/
def Opening.tenantId : Opening → Option Uuid
  | .getDb rc => rc.bind (·.tenantId)
  | .tenantSession tenantId _ => tenantId

/-- The session asks for bypass. -/
def Opening.bypass : Opening → Bool
  | .getDb rc => (rc.map (·.isSuperadmin)).getD false
  | .tenantSession _ bypassRls => bypassRls

/-- A connection of the pool: its settings and, if a session uses it, that session
with the settings it has made so far and those it has yet to make. -/
structure Connection where
  gucs : Gucs
  session : Option (Opening × List (GucName × String) × List (GucName × String))

/-- A connection that was just made: nothing is set. -/
def Connection.fresh : Connection := ⟨fun _ => none, none⟩

/-- What a transaction-local setting is after its transaction. -/
def Reverted (value : Option String) : Prop := value = none ∨ value = some ""

/-- What can happen to a connection. The session's own statements leave its settings
alone; it may end after any of them, by commit or by rollback. -/
inductive Connection.Step (env : Env) : Connection → Connection → Prop
  | open_ {g : Gucs} (o : Opening) (uuid : ∀ tid, o.tenantId = some tid → IsUuid tid) :
    Step env ⟨g, none⟩ ⟨g, some (o, [], bindStatements env o.tenantId o.bypass)⟩
  | setConfig {g : Gucs} {o : Opening} {made rest : List (GucName × String)} (name : GucName)
    (value : String) :
    Step env ⟨g, some (o, made, (name, value) :: rest)⟩
      ⟨Function.update g name (some value), some (o, made ++ [(name, value)], rest)⟩
  | statement {c : Connection} : Step env c c
  | close {g g' : Gucs} {o : Opening} {made rest : List (GucName × String)}
    (reverted : ∀ name, name ∈ made.map (·.1) → Reverted (g' name))
    (kept : ∀ name, name ∉ made.map (·.1) → g' name = g name) :
    Step env ⟨g, some (o, made, rest)⟩ ⟨g', none⟩

/-- A connection after any sequence of sessions. -/
def Connection.Reachable (env : Env) (c : Connection) : Prop :=
  Relation.ReflTransGen (Connection.Step env) Connection.fresh c

/-- The settings after some `set_config` calls. -/
def Gucs.after (g : Gucs) (made : List (GucName × String)) : Gucs :=
  made.foldl (fun g x => Function.update g x.1 (some x.2)) g

theorem Gucs.after_not_mem {g : Gucs} {made : List (GucName × String)} {name : GucName}
    (h : name ∉ made.map (·.1)) : g.after made name = g name := by
  induction made generalizing g with
  | nil => rfl
  | cons x made ih =>
    rw [List.map_cons, List.mem_cons, not_or] at h
    rw [after, List.foldl_cons, ← after, ih h.2, Function.update_of_ne h.1]

/-- Between sessions every setting is unset or empty; in a session, the settings are
those it has made, on top of such. -/
def Connection.Clean (env : Env) (c : Connection) : Prop :=
  match c.session with
  | none => ∀ name, Reverted (c.gucs name)
  | some (o, made, rest) =>
    (∀ tid, o.tenantId = some tid → IsUuid tid) ∧
    made ++ rest = bindStatements env o.tenantId o.bypass ∧
    ∃ g : Gucs, (∀ name, Reverted (g name)) ∧ c.gucs = g.after made

theorem Connection.clean_step {env : Env} {c c' : Connection} (h : c.Clean env)
    (hstep : Connection.Step env c c') : c'.Clean env := by
  cases hstep with
  | open_ o uuid => exact ⟨uuid, rfl, _, h, rfl⟩
  | setConfig name value =>
    obtain ⟨huuid, hmade, g, hg, hgucs⟩ := h
    refine ⟨huuid, by rw [List.append_assoc]; exact hmade, g, hg, ?_⟩
    rw [Gucs.after, List.foldl_append, ← Gucs.after]
    exact congrArg (Function.update · name (some value)) hgucs
  | statement => exact h
  | @close g g' o made rest reverted kept =>
    obtain ⟨-, -, g₀, hg₀, hgucs⟩ := h
    intro name
    by_cases hmem : name ∈ made.map (·.1)
    · exact reverted name hmem
    · have hsame : g name = g₀ name := (congrFun hgucs name).trans (Gucs.after_not_mem hmem)
      show Reverted (g' name)
      rw [kept name hmem, hsame]
      exact hg₀ name

theorem Connection.Reachable.clean {env : Env} {c : Connection} (h : Connection.Reachable env c) :
    c.Clean env := by
  induction h with
  | refl => exact fun _ => .inl rfl
  | tail _ hstep ih => exact Connection.clean_step ih hstep

/-! ## What a session sees -/

/-- The settings once `_bind_rls` is done, on a connection without leftovers. -/
theorem bound_settings {env : Env} (henabled : env.settings.enableRowLevelSecurity = true)
    {g : Gucs} (hg : ∀ name, Reverted (g name)) {tenantId : Option Uuid} {bypass : Bool} :
    (g.after (bindStatements env tenantId bypass)) .bypassRls =
      some (if bypass then "on" else "off") ∧
    nullIf ((g.after (bindStatements env tenantId bypass)) .tenantId) "" =
      nullIf (tenantId.map uuidStr) "" := by
  unfold bindStatements
  rw [if_pos henabled]
  cases tenantId with
  | none =>
    refine ⟨rfl, ?_⟩
    show nullIf (g .tenantId) "" = none
    rcases hg .tenantId with h | h <;> rw [h] <;> rfl
  | some tid => exact ⟨rfl, rfl⟩

theorem uuidStr_ne_empty (u : Uuid) : uuidStr u ≠ "" := by
  intro h
  have hlength := Text.length_hexText 32 u
  rw [← filter_uuidStr, h] at hlength
  cases hlength

/-- The predicate under the settings that a session has made. -/
theorem predicate_bound {env : Env} (henabled : env.settings.enableRowLevelSecurity = true)
    {g : Gucs} (hg : ∀ name, Reverted (g name)) {tenantId : Option Uuid} {bypass : Bool}
    (huuid : ∀ tid, tenantId = some tid → IsUuid tid) (owner : Uuid) :
    IsTrue (predicate (g.after (bindStatements env tenantId bypass)) owner) ↔
      bypass = true ∨ tenantId = some owner := by
  obtain ⟨hbypass, htenant⟩ := @bound_settings env henabled g hg tenantId bypass
  have hcast : castUuid (nullIf (tenantId.map uuidStr) "") = .ok tenantId := by
    cases tenantId with
    | none => rfl
    | some tid =>
      have hkeep : nullIf (some (uuidStr tid)) "" = some (uuidStr tid) := by
        simp [nullIf, uuidStr_ne_empty]
      rw [Option.map_some, hkeep, castUuid, parseUuid_uuidStr (huuid tid rfl)]
  have hon : sqlEq (some (if bypass then "on" else "off")) (some "on") = some true ↔
      bypass = true := by
    cases bypass <;> decide
  have hbound : sqlEq (some owner) tenantId = some true ↔ tenantId = some owner := by
    rw [sqlEq_eq_true]
    exact ⟨fun ⟨x, hx, h⟩ => h.trans hx.symm, fun h => ⟨owner, rfl, h⟩⟩
  rw [IsTrue, predicate, hbypass, htenant, hcast]
  show Except.ok _ = Except.ok _ ↔ _
  rw [Except.ok.injEq, Truth.or_eq_true, hon, hbound, or_comm]

/-- **No tenant leaks through a pooled connection**: after any sessions on the
connection, in a session that has made its settings, a row under row-level security is
visible and writable iff the session bypasses or the row is of the tenant it binds. -/
theorem bound_admits {env : Env} (henabled : env.settings.enableRowLevelSecurity = true)
    {c : Connection} (hreach : Connection.Reachable env c) {o : Opening}
    {made : List (GucName × String)} (hsession : c.session = some (o, made, [])) {t : Table}
    (ht : t ∈ rlsTables) (r : Row t) :
    (Visible c.gucs t r ↔
      o.bypass = true ∨ ∃ tid, o.tenantId = some tid ∧ tenantOf t r = some tid) ∧
    (Writable c.gucs t r ↔
      o.bypass = true ∨ ∃ tid, o.tenantId = some tid ∧ tenantOf t r = some tid) := by
  have hclean := hreach.clean
  rw [Connection.Clean, hsession] at hclean
  obtain ⟨huuid, hmade, g, hg, hgucs⟩ := hclean
  rw [List.append_nil] at hmade
  obtain ⟨owner, howner⟩ := Option.isSome_iff_exists.mp ((tenantOf_isSome_iff t r).mpr ht)
  have hpredicate := @predicate_bound env henabled g hg o.tenantId o.bypass huuid owner
  rw [← hmade, ← hgucs] at hpredicate
  have hrow : (∀ tid, tenantOf t r = some tid → IsTrue (predicate c.gucs tid)) ↔
      o.bypass = true ∨ ∃ tid, o.tenantId = some tid ∧ tenantOf t r = some tid := by
    constructor
    · intro h
      refine (hpredicate.mp (h owner howner)).imp_right fun htid => ⟨owner, htid, howner⟩
    · rintro h tid htid
      cases htid.symm.trans howner
      refine hpredicate.mpr (h.imp_right ?_)
      rintro ⟨tid', htid', howner'⟩
      cases howner.symm.trans howner'
      exact htid'
  exact ⟨hrow, hrow⟩

/-- A connection that served tenant 7 and is used again by a session without tenant. -/
def reusedConnection : Connection :=
  ⟨Function.update (fun _ => some "") .bypassRls (some "off"),
    some (.tenantSession none false, [(.bypassRls, "off")], [])⟩

theorem reusedConnection_reachable : reusedConnection.Reachable (Env.reference {}) := by
  let before : Opening := .tenantSession (some 7) true
  have hopen := @Connection.Step.open_ (Env.reference {}) (fun _ => none) before
    fun tid h => by cases h; exact (by decide : 7 < 2 ^ 128)
  have hbypass := @Connection.Step.setConfig (Env.reference {}) (fun _ => none) before []
    [(.tenantId, uuidStr 7)] .bypassRls "on"
  have htenant := @Connection.Step.setConfig (Env.reference {})
    (Function.update (fun _ => none) .bypassRls (some "on")) before [(.bypassRls, "on")] []
    .tenantId (uuidStr 7)
  have hclose := @Connection.Step.close (Env.reference {})
    (Function.update (Function.update (fun _ => none) .bypassRls (some "on")) .tenantId
      (some (uuidStr 7))) (fun _ => some "") before [(.bypassRls, "on"), (.tenantId, uuidStr 7)] []
    (fun _ _ => .inr rfl) fun name h => by cases name <;> simp at h
  have hagain := @Connection.Step.open_ (Env.reference {}) (fun _ => some "")
    (.tenantSession none false) fun tid h => (by cases h)
  have hoff := @Connection.Step.setConfig (Env.reference {}) (fun _ => some "")
    (.tenantSession none false) [] [] .bypassRls "off"
  exact (((((Relation.ReflTransGen.single hopen).tail hbypass).tail htenant).tail hclose).tail
    hagain).tail hoff

/-- A role of tenant 7. -/
def reusedRole : Role := ⟨1, 7, "student", "Student"⟩

theorem bound_admits_reused :
    (Visible reusedConnection.gucs .roles reusedRole ↔ false = true ∨
      ∃ tid, (none : Option Uuid) = some tid ∧ tenantOf .roles reusedRole = some tid) ∧
    (Writable reusedConnection.gucs .roles reusedRole ↔ false = true ∨
      ∃ tid, (none : Option Uuid) = some tid ∧ tenantOf .roles reusedRole = some tid) :=
  @bound_admits (Env.reference {}) rfl _ reusedConnection_reachable _ _ rfl .roles (by decide)
    reusedRole

/-- The policy of the database under the settings of a session's transaction, as the
units of work bind them, is the policy of the migration under the session's texts. -/
theorem admits_iff_policy {env : Env} (henabled : env.settings.enableRowLevelSecurity = true)
    {c : Connection} (hreach : Connection.Reachable env c) {o : Opening}
    {made : List (GucName × String)} (hsession : c.session = some (o, made, [])) {t : Table}
    (r : Row t) :
    Visible c.gucs t r ↔ policy (boundTx env o.tenantId o.bypass).guc t r = true := by
  by_cases ht : t ∈ rlsTables
  · rw [(bound_admits henabled hreach hsession ht r).1, policy, if_pos ht]
    have hguc : (boundTx env o.tenantId o.bypass).guc = ⟨o.tenantId, o.bypass⟩ := by
      simp [boundTx, henabled]
    rw [hguc]
    obtain ⟨owner, howner⟩ := Option.isSome_iff_exists.mp ((tenantOf_isSome_iff t r).mpr ht)
    rw [howner]
    cases htid : o.tenantId with
    | none => simp
    | some tid => simp [or_comm, @eq_comm _ owner tid]
  · have hnone : tenantOf t r = none := by
      rw [← Option.not_isSome_iff_eq_none, tenantOf_isSome_iff]
      exact ht
    rw [policy, if_neg ht]
    exact ⟨fun _ => rfl, fun _ tid htid => by rw [hnone] at htid; cases htid⟩

end LmsBackend
