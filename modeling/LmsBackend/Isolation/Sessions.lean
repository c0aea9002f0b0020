import LmsBackend.Isolation.Footprint

/-!
# Footprints of sessions, repositories and the core services

Compositional facts `Covers F Q p`, one for each function below the modules'
services, for any footprint that has the tables the function writes.

- `Footprint.tenant t W`: row-level security bound to the tenant `t` or to none,
  never bypassed.
- `Footprint.platformWide W`: any settings.
-/

namespace LmsBackend

open Mvcc

namespace Footprint

/-- The footprint of a request in the context of tenant `t`, or of none. -/
def tenant (t : Option Uuid) (W : Table → Prop) (C : Option Caller → Prop) : Footprint where
  guc g := g.bypassRls = false ∧ (g.tenantId = none ∨ g.tenantId = t)
  writes := W
  platform u := t = some u
  callers := C
  resets _ := True
  guc_fresh := ⟨rfl, .inl rfl⟩

/-- The footprint of platform-level work. -/
def platformWide (W : Table → Prop) (C : Option Caller → Prop) : Footprint where
  guc _ := True
  writes := W
  platform _ := True
  callers := C
  resets _ := True
  guc_fresh := trivial

variable {t : Option Uuid} {W : Table → Prop} {C : Option Caller → Prop}

/-- What a tenant's footprint sees of the tables under row-level security are
that tenant's rows. -/
theorem sees_tenant {tb : Table} {r : Row tb} (h : (tenant t W C).sees tb r)
    (hrls : tb ∈ rlsTables) : ∃ tid, t = some tid ∧ tenantOf tb r = some tid := by
  obtain ⟨g, ⟨hb, hg⟩, hp⟩ := h
  obtain ⟨tid, htid, hr⟩ := policy_tenant hrls hb hp
  rcases hg with hg | hg
  · rw [hg] at htid; cases htid
  · exact ⟨tid, hg.symm.trans htid, hr⟩

/-- Sessions with these parameters stay within the footprint. -/
structure Binds (F : Footprint) (tenantId : Option Uuid) (bypass : Bool) : Prop where
  bypass : ∀ g, F.guc g → F.guc { g with bypassRls := bypass }
  tenant : ∀ tid, tenantId = some tid → ∀ g, F.guc g → F.guc { g with tenantId := some tid }

theorem binds_tenant : (tenant t W C).Binds t false :=
  ⟨fun _ h => ⟨rfl, h.2⟩, fun _ ht _ h => ⟨h.1, .inr ht.symm⟩⟩

theorem binds_platformWide {t : Option Uuid} {b : Bool} : (platformWide W C).Binds t b :=
  ⟨fun _ _ => trivial, fun _ _ _ _ => trivial⟩

end Footprint

namespace Covers

variable {α : Type} {F : Footprint} {Q : α → Prop} {env : Env}

/-! ## Sessions -/

theorem bindRls {tenantId : Option Uuid} {bypass : Bool} (h : F.Binds tenantId bypass) :
    Covers F (fun _ => True) (bindRls env tenantId bypass) := by
  unfold LmsBackend.bindRls
  split
  · refine seq (sqlSet h.bypass) fun _ => ?_
    cases tenantId with
    | none => exact pure trivial
    | some tid => exact sqlSet (h.tenant tid rfl)
  · exact pure trivial

theorem insertRow {x : AnyRow Row} (h : F.writes x.1) :
    Covers F (fun _ => True) (insertRow x) := by
  refine seq (sqlInsert h) fun r => ?_
  cases r with
  | ok _ => exact pure trivial
  | error e => exact raise _

theorem flush : Covers F (fun _ => True) flush :=
  bind (perform' (.db .takePending) trivial fun _ h => h) fun _ hrows => forEach fun x hx => insertRow (hrows x hx)

theorem commitSession : Covers F (fun _ => True) commitSession := by
  refine seq flush.attempt.weaken fun r => ?_
  cases r with
  | ok _ => exact seq sqlCommit fun _ => pure trivial
  | error _ => exact seq sqlRollback fun _ => pure trivial

theorem beginSession : Covers F (fun _ => True) beginSession :=
  seq sqlBegin fun _ => seq now fun _ => pure trivial

theorem getDb {rc : Option RequestContext} {body : Session → M α}
    (h : F.Binds (rc.bind (·.tenantId)) ((rc.map (·.isSuperadmin)).getD false))
    (hbody : ∀ s, Covers F Q (body s)) : Covers F Q (getDb env rc body) := by
  refine seq beginSession fun s => ?_
  refine bind (attempt (seq (bindRls h) fun _ => hbody s)) fun r hr => ?_
  cases r with
  | ok a => exact seq commitSession fun _ => pure (hr a rfl)
  | error e => exact seq sqlRollback fun _ => raise _

theorem tenantSession {tenantId : Option Uuid} {bypass : Bool} {body : Session → M α}
    (h : F.Binds tenantId bypass) (hbody : ∀ s, Covers F Q (body s)) :
    Covers F Q (tenantSession env tenantId bypass body) := by
  refine seq beginSession fun s => ?_
  refine bind (attempt (seq (bindRls h) fun _ => hbody s)) fun r hr => ?_
  cases r with
  | ok a =>
    refine seq commitSession fun r => ?_
    cases r with
    | ok _ => exact pure (hr a rfl)
    | error _ => exact raise _
  | error e => exact seq sqlRollback fun _ => raise _

/-! ## Statements -/

/-- A query returns rows that satisfy its condition and that the footprint sees. -/
theorem query {t : Table} {p : Row t → Bool} (h : ∀ r, p r = true → F.reads t r) :
    Covers F (fun rows => ∀ r ∈ rows, p r = true ∧ F.sees t r) (query t p) := by
  refine perform' (.db (.select t fun _ => p)) (fun _ r hr => h r hr) fun rows hrows r hr => ?_
  obtain ⟨⟨_, hp⟩, hsees⟩ := hrows r hr
  exact ⟨hp, hsees⟩

theorem reads_of_none {t : Table} (h : ∀ r : Row t, platformOwner t r = none) (r : Row t) :
    F.reads t r := fun _ heq => by rw [h r] at heq; cases heq

theorem arrange {rows : List α} :
    Covers F (fun rows' => ∀ r ∈ rows', r ∈ rows) (arrange env rows) := by
  refine seq (perform .draw trivial) fun seed => pure fun r hr => ?_
  obtain ⟨i, _, hi⟩ := List.mem_filterMap.mp hr
  exact List.mem_of_getElem? hi

theorem queryAll {t : Table} {p : Row t → Bool} (h : ∀ r, p r = true → F.reads t r) :
    Covers F (fun _ => True) (queryAll env t p) :=
  seq (query h).weaken fun _ => arrange.weaken

theorem scalarOneOrNone {rows : List α} :
    Covers F (fun r => ∀ a, r = some a → a ∈ rows) (scalarOneOrNone rows) := by
  match rows with
  | [] => exact pure fun a h => (by cases h)
  | [a] => exact pure fun b h => by cases h; exact List.mem_singleton_self a
  | _ :: _ :: _ => exact raise _

theorem count {t : Table} {p : Row t → Bool} (h : ∀ r, p r = true → F.reads t r) :
    Covers F (fun _ => True) (count t p) :=
  seq (query h).weaken fun _ => pure trivial

theorem updateRow {s : Session} {t : Table} {id : Uuid} {f : Row t → Row t} (h : F.writes t) :
    Covers F (fun _ => True) (updateRow s t id f) := by
  refine seq (sqlUpdate h) fun r => ?_
  match r with
  | .ok 0 => exact raise _
  | .ok (_ + 1) => exact pure trivial
  | .error _ => exact raise _

theorem repoAdd {t : Table} {r : Row t} (h : F.writes t) :
    Covers F (fun _ => True) (repoAdd t r) :=
  seq (add h) fun _ => flush

/-! ## Repositories -/

theorem repoSelect {rc : RequestContext} {t : Table} {p : Row t → Bool}
    (h : ∀ r : Row t, platformOwner t r = none) :
    Covers F (fun rows => ∀ r ∈ rows, (inScope rc t r = true ∧ p r = true) ∧ F.sees t r)
      (repoSelect rc t p) := by
  refine (query fun r _ => reads_of_none h r).mono fun rows hrows r hr => ?_
  obtain ⟨hp, hsees⟩ := hrows r hr
  exact ⟨by simpa using hp, hsees⟩

theorem repoFind {rc : RequestContext} {t : Table} {p : Row t → Bool}
    (h : ∀ r : Row t, platformOwner t r = none) :
    Covers F (fun _ => True) (repoFind rc t p) :=
  seq (repoSelect h).weaken fun _ => scalarOneOrNone.weaken

theorem repoGetOr404 {rc : RequestContext} {t : Table} {id : Uuid}
    (h : ∀ r : Row t, platformOwner t r = none) :
    Covers F (fun _ => True) (repoGetOr404 rc t id) := by
  refine seq (repoFind h) fun r => ?_
  cases r with
  | some r => exact pure trivial
  | none => exact raise _

theorem applySort {getattr : String → Attribute α} {sort : Option String} {rows : List α} :
    Covers F (fun _ => True) (applySort env getattr sort rows) := by
  have hfield : ∀ field desc, Covers F (fun _ => True)
      (sortByField env getattr field desc rows) := by
    intro field desc
    unfold sortByField
    split
    · exact pure trivial
    · exact pure trivial
    · exact raise _
  unfold LmsBackend.applySort
  split
  · exact pure trivial
  · exact pure trivial
  · exact hfield _ _
  · exact hfield _ _

theorem sendPage {params : PageParams} : Covers F (fun _ => True) (sendPage params) := by
  unfold LmsBackend.sendPage
  split
  · exact pure trivial
  · exact raise _

theorem requireTenantId {rc : RequestContext} :
    Covers F (fun tid => rc.tenantId = some tid) (requireTenantId rc) := by
  unfold LmsBackend.requireTenantId
  split
  · rename_i tid h; exact pure h
  · exact raise _

/-! ## Tokens and passwords -/

theorem decodeToken {token type : String} :
    Covers F (fun r => ∀ p, r = .ok p → signed env token = some p ∧ p.type = type)
      (decodeToken env token type) := by
  unfold LmsBackend.decodeToken
  split
  · exact pure fun p h => (by cases h)
  · rename_i p hp
    refine seq now fun n => pure fun q hq => ?_
    obtain ⟨rfl, -, -, htype⟩ := checkClaims_ok hq
    exact ⟨hp, htype⟩

theorem hashPassword {plain : String} : Covers F (fun _ => True) (hashPassword env plain) :=
  seq (perform .draw trivial) fun _ => pure trivial

theorem createAccessToken {userId tenantId : Uuid} :
    Covers F (fun _ => True) (createAccessToken env userId tenantId) :=
  seq uuid4 fun _ => seq now fun _ => pure trivial

theorem createRefreshToken {userId tenantId : Uuid} :
    Covers F (fun _ => True) (createRefreshToken env userId tenantId) :=
  seq uuid4 fun _ => seq (seq now fun _ => pure trivial) fun _ => pure trivial

end Covers

end LmsBackend
