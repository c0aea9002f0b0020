import LmsBackend.Authority.Students
import LmsBackend.Effects.Updates

/-!
# The User-Agent of a login

A login stores the `User-Agent` header in its session row, in a column of 400 characters.

- `LoginsAgree env w r₁ r₂`: the same requests succeed, and the session rows are the same
  apart from the header.
- `AgentsAlike ua₁ ua₂`: logins with the two headers agree, everywhere.
- `agentsAlike_iff`: that is so exactly if the column takes both headers or neither.
-/

namespace LmsBackend

open Mvcc

variable {env : Env} {rc : RequestContext} {s : Session} {w w₁ : World} {tx : Tx} {txs : List Tx}
  {r₁ r₂ : Request} {data : LoginRequest}

/-- The header that a login stores. -/
def Request.userAgent (req : Request) : Option String := req.headers.find "user-agent"

/-- The column takes the header. -/
def AgentFits (userAgent : Option String) : Prop := ∀ text ∈ userAgent, text.length ≤ 400

/-- The requests differ in their User-Agent header only. -/
structure DifferInAgent (r₁ r₂ : Request) : Prop where
  endpoint : r₁.endpoint = r₂.endpoint
  client : r₁.client = r₂.client
  valid : r₁.valid = r₂.valid
  headers : r₁.headers.filter (fun x => x.1 ≠ "user-agent") =
    r₂.headers.filter fun x => x.1 ≠ "user-agent"

/-- The session rows, apart from the header in them. -/
def plainSessions (db : Database Row) : List UserSession :=
  (db .userSessions).map fun r => { r with userAgent := none }

/-- One of the requests succeeds iff the other does, and then the session rows differ at most
in the header. -/
structure LoginsAgree (env : Env) (w : World) (r₁ r₂ : Request) : Prop where
  succeed : (∃ body, (serve env w r₁).1 = .ok body) ↔ ∃ body, (serve env w r₂).1 = .ok body
  sessions : plainSessions (serve env w r₁).2.db = plainSessions (serve env w r₂).2.db

/-- Any two logins with these headers, and without another difference, agree. The tenant is
told by another header. -/
def AgentsAlike (ua₁ ua₂ : Option String) : Prop :=
  ∀ env : Env, env.lower env.settings.tenantHeader ≠ "user-agent" → ∀ w data r₁ r₂,
    r₁.endpoint = .login data → DifferInAgent r₁ r₂ → r₁.userAgent = ua₁ → r₂.userAgent = ua₂ →
    LoginsAgree env w r₁ r₂

/-! ## The way to the login -/

namespace DifferInAgent

theorem symm (h : DifferInAgent r₁ r₂) : DifferInAgent r₂ r₁ :=
  ⟨h.endpoint.symm, h.client.symm, h.valid.symm, h.headers.symm⟩

/-- Every other header is the same. -/
theorem find (h : DifferInAgent r₁ r₂) {name : String} (hname : name ≠ "user-agent") :
    r₁.headers.find name = r₂.headers.find name := by
  have hother : ∀ headers : Headers, headers.find name =
      Headers.find (headers.filter fun x => x.1 ≠ "user-agent") name := by
    intro headers
    rw [Headers.find, Headers.find, List.find?_filter]
    refine congrArg _ (congrArg (fun p => headers.find? p) (funext fun x => ?_))
    by_cases hx : x.1 = name
    · simp [hx, hname]
    · simp [hx]
  rw [hother r₁.headers, h.headers, ← hother]

/-- The middleware sets the same context. -/
theorem context (h : DifferInAgent r₁ r₂)
    (hheader : env.lower env.settings.tenantHeader ≠ "user-agent") :
    requestContext env r₂.headers r₂.client = requestContext env r₁.headers r₁.client := by
  simp only [requestContext, requestId, resolveIdentity, resolveFromHeader, clientIp,
    Headers.nonempty, h.client, h.find hheader,
    h.find (show "x-request-id" ≠ "user-agent" by decide),
    h.find (show "authorization" ≠ "user-agent" by decide),
    h.find (show "x-forwarded-for" ≠ "user-agent" by decide)]

end DifferInAgent

/-! ## The login -/

theorem columnError_userSessions {r : UserSession} : columnError .userSessions r = none ↔
    AgentFits r.userAgent ∧ varchar? 64 "ip_address" r.ipAddress = none := by
  simp [columnError, firstError_eq_none, varchar?_eq_none, AgentFits]

/-- A waiting row has no part in an update. -/
theorem updateRow_waiting {t : Table} {id : Uuid} {f : Row t → Row t} {x : AnyRow Row}
    {s' : State} (h : runM env (updateRow s t id f) (w, withPending tx x :: txs) = (.ok (), s')) :
    ∃ v, s' = (w, withPending (tx.push (.update t [id] v)) x :: txs) ∧
      ∀ y, runM env (updateRow s t id f) (w, withPending tx y :: txs) =
        (.ok (), (w, withPending (tx.push (.update t [id] v)) y :: txs)) := by
  obtain ⟨old, htarget, rfl⟩ := runM_updateRow_ok h
  refine ⟨_, rfl, fun y => ?_⟩
  rw [runM_updateRow] at h ⊢
  have htarget' : target schema w.db (withPending tx y) t [id] (fun _ => true) = some old := htarget
  have herror : ∀ z, updateError schema w.db (withPending tx z) t old
      (schema.coerce t (touch s.startedAt t (f old))) = updateError schema w.db tx t old
      (schema.coerce t (touch s.startedAt t (f old))) := fun _ => rfl
  rw [htarget] at h
  rw [htarget']
  dsimp only at h ⊢
  rw [herror] at h ⊢
  cases hupdate : updateError schema w.db tx t old
      (schema.coerce t (touch s.startedAt t (f old))) with
  | some e =>
    rw [hupdate] at h
    cases congrArg Prod.fst h
  | none => rfl

/-- A session row goes in whatever its header is, as long as the column takes it. -/
theorem insertError_agent {db : Database Row} {r : UserSession} {ua : Option String}
    (h : insertError schema db tx .userSessions r = none) (hfits : AgentFits ua) :
    insertError schema db tx .userSessions { r with userAgent := ua } = none := by
  obtain ⟨hpolicy, hcheck⟩ := insertError_none h
  obtain ⟨hcolumns, hunique, hreference⟩ := checkInsert_eq_none.mp hcheck
  have hcolumns' : columnError .userSessions { r with userAgent := ua } = none :=
    columnError_userSessions.mpr ⟨hfits, (columnError_userSessions.mp hcolumns).2⟩
  exact (if_pos hpolicy).trans (checkInsert_eq_none.mpr ⟨hcolumns', hunique, hreference⟩)

/-- A login that returns would return with any header that the column takes, and differ in
the header of its session row only. -/
theorem login_agent {ua ua' ip : Option String} {tokens : TokenResponse} {s' : State}
    (hp : tx.pending = [])
    (h : runM env (login env rc s data ua ip) (w, tx :: txs) = (.ok tokens, s')) :
    AgentFits ua ∧ (AgentFits ua' → ∃ (r : UserSession) (id : Uuid) (v : User) (w₁ w₂ : World),
      w.Logged w₁ ∧ w.Logged w₂ ∧
      s' = (w₁, (tx.push (.update .users [id] v)).push
        (inserting ⟨.userSessions, { r with userAgent := ua }⟩) :: txs) ∧
      runM env (login env rc s data ua' ip) (w, tx :: txs) =
        (.ok tokens, (w₂, (tx.push (.update .users [id] v)).push
          (inserting ⟨.userSessions, { r with userAgent := ua' }⟩) :: txs))) := by
  obtain ⟨tid, s₁, htid, h⟩ := Prog.run_bind_eq_ok h
  obtain ⟨-, rfl⟩ := requireTenantId_ok htid
  obtain ⟨u, s₂, hauth, h⟩ := Prog.run_bind_eq_ok h
  obtain ⟨-, -, -, rfl⟩ := authenticate_ok hauth
  obtain ⟨issued, s₃, hissue, h⟩ := Prog.run_bind_eq_ok h
  cases (runM_issueTokens _ _ _ _).symm.trans hissue
  obtain ⟨t, s₄, hnow, h⟩ := Prog.run_bind_eq_ok h
  cases (runM_now _ _).symm.trans hnow
  obtain ⟨_, s₅, hupdate, h⟩ := Prog.run_bind_eq_ok h
  obtain ⟨v, rfl, hupdate'⟩ := updateRow_waiting hupdate
  obtain ⟨_, s₆, hflush, h⟩ := Prog.run_bind_eq_ok h
  -- the row that is inserted, with one header and with the other
  have hinsert : insertError schema w.db (tx.push (.update .users [u.user.id] v)) .userSessions
      (issuedSession env w u.user.id tid ua ip) = none := by
    have hfirst := @runM_flush_first env _ _ _
      ⟨.userSessions, issuedSession env w u.user.id tid ua ip⟩ [] _
      (by simp [withPending, Tx.push, hp]) hflush
    simp only [withPending, Tx.push, hp] at hfirst ⊢
    exact hfirst
  obtain rfl := runM_flush_ok hflush
  obtain ⟨_, s₇, hpublish, h⟩ := Prog.run_bind_eq_ok h
  obtain ⟨w₁, rfl, hlog, -⟩ := publish_ok hpublish
  cases h
  refine ⟨(columnError_userSessions.mp (insertError_checks hinsert).1).1, fun hfits => ?_⟩
  have hends : Prog.Ends (exec env) (login env rc s data ua' ip) (w, tx :: txs)
      (fun tokens' s' => tokens' = issuedTokens env w u.user.id tid ∧ ∃ w₂, w.Logged w₂ ∧
        s' = (w₂, (tx.push (.update .users [u.user.id] v)).push
          (inserting ⟨.userSessions, issuedSession env w u.user.id tid ua' ip⟩) :: txs))
      fun _ _ => False := by
    refine .bind_ok htid (.bind_ok hauth (.bind_ok (runM_issueTokens _ _ _ _)
      (.bind_ok (runM_now _ _) (.bind_ok (hupdate' _) ?_))))
    refine .bind (flush_one_ends (by simpa [Tx.push] using hp) (fun _ => ?_) fun e herror => ?_)
    · exact .bind (publish_ends fun w₂ hlog₂ _ => .ret ⟨rfl, w₂, hlog₂, rfl⟩)
    · cases (insertError_agent hinsert hfits).symm.trans herror
  rcases hrun : runM env (login env rc s data ua' ip) (w, tx :: txs) with ⟨r, s'⟩
  cases r with
  | error e => exact (hends.error hrun).elim
  | ok tokens' =>
    obtain ⟨rfl, w₂, hlog₂, rfl⟩ := hends.ok hrun
    refine ⟨issuedSession env w u.user.id tid none ip, u.user.id, v, w₁, w₂, hlog, hlog₂, ?_, rfl⟩
    simp [withPending, Tx.push, hp, issuedSession]

/-! ## Two requests -/

/-- What the commit of a login makes of the session rows. -/
theorem plainSessions_commit {r : UserSession} {ua : Option String} {id : Uuid} {v : User}
    (hlog : w.Logged w₁) :
    plainSessions (runM env commitSession (w₁, [((requestTx env rc).push
      (.update .users [id] v)).push
        (inserting ⟨.userSessions, { r with userAgent := ua }⟩)])).2.1.db =
      plainSessions w.db ++ [{ r with userAgent := none }] := by
  rw [plainSessions, commit_table hlog rfl (by simp), view_push, view_push, inserting,
    Write.apply_insert, Write.apply_other (by simp [Write.table]), view_requestTx, List.map_append]
  rfl

/-- A login that is answered has a header that the column takes, and is answered in the same
way with any other such header. -/
theorem serve_login_agent {body : Body} (hdiff : DifferInAgent r₁ r₂)
    (he : r₁.endpoint = .login data)
    (hheader : env.lower env.settings.tenantHeader ≠ "user-agent")
    (h : serve env w r₁ = (.ok body, w₁)) :
    AgentFits r₁.userAgent ∧ (AgentFits r₂.userAgent →
      ∃ w₂, serve env w r₂ = (.ok body, w₂) ∧ plainSessions w₁.db = plainSessions w₂.db) := by
  have he₂ : r₂.endpoint = .login data := hdiff.endpoint ▸ he
  have hguards : ∀ rc, guards env rc r₂ = guards env rc r₁ := by
    intro rc
    rw [guards, guards, userGuard, userGuard, he, he₂]
    rfl
  obtain ⟨e, w', herror, -⟩ | ⟨rc, caller, s, w', hadm, hrun₁, hrun₂⟩ :=
    @serve_together env w r₁ r₂ (by rw [he]; trivial) hdiff.endpoint.symm hdiff.valid.symm
      (hdiff.context hheader) hguards
  · cases congrArg Prod.fst (h.symm.trans herror)
  · cases hadm.no_caller (by rw [he]; rfl)
    have hhandler : ∀ {r : Request}, r.endpoint = .login data → handler env rc s r none =
        (login env rc s data r.userAgent r.client >>= fun t => pure (.tokens t)) := by
      intro r hr
      obtain ⟨headers, client, e, valid⟩ := r
      cases hr
      rfl
    rw [hhandler he] at hrun₁
    rw [hhandler he₂, ← hdiff.client] at hrun₂
    rcases hlogin : runM env (login env rc s data r₁.userAgent r₁.client)
      (w', [requestTx env rc]) with ⟨r, s'⟩
    cases r with
    | error e =>
      rw [runM_bind_error hlogin] at hrun₁
      cases congrArg Prod.fst (h.symm.trans hrun₁)
    | ok tokens =>
      obtain ⟨hfits, hother⟩ := @login_agent env rc s w' (requestTx env rc) [] data
        r₁.userAgent r₂.userAgent r₁.client tokens s' rfl hlogin
      refine ⟨hfits, fun hfits₂ => ?_⟩
      obtain ⟨r, id, v, w₂, w₃, hlog₂, hlog₃, rfl, hlogin₂⟩ := hother hfits₂
      rw [runM_bind_ok hlogin, h] at hrun₁
      rw [runM_bind_ok hlogin₂] at hrun₂
      cases hrun₁
      refine ⟨_, hrun₂, ?_⟩
      exact (plainSessions_commit hlog₂).trans (plainSessions_commit hlog₃).symm

/-- A login that fails leaves the session rows alone. -/
theorem plainSessions_error {e : Err} (he : r₁.endpoint = .login data)
    (h : serve env w r₁ = (.error e, w₁)) : plainSessions w₁.db = plainSessions w.db := by
  have hlogged := serve_sessions_error (by rw [he]; simp [Endpoint.writes]) h
  rw [plainSessions, hlogged .userSessions (by decide), plainSessions]

/-- **Two logins** agree where the column takes both headers or neither. -/
theorem loginsAgree (hdiff : DifferInAgent r₁ r₂) (he : r₁.endpoint = .login data)
    (hheader : env.lower env.settings.tenantHeader ≠ "user-agent")
    (hfits : AgentFits r₁.userAgent ↔ AgentFits r₂.userAgent) : LoginsAgree env w r₁ r₂ := by
  have he₂ : r₂.endpoint = .login data := hdiff.endpoint ▸ he
  rcases h₁ : serve env w r₁ with ⟨a₁, w₁⟩
  rcases h₂ : serve env w r₂ with ⟨a₂, w₂⟩
  cases a₁ with
  | ok body =>
    obtain ⟨hfits₁, hother⟩ := serve_login_agent hdiff he hheader h₁
    obtain ⟨w₂', h₂', hrows⟩ := hother (hfits.mp hfits₁)
    cases h₂.symm.trans h₂'
    constructor
    · rw [h₁, h₂]
    · rw [h₁, h₂]
      exact hrows
  | error e₁ =>
    cases a₂ with
    | ok body =>
      obtain ⟨hfits₂, hother⟩ := serve_login_agent hdiff.symm he₂ hheader h₂
      obtain ⟨w₁', h₁', -⟩ := hother (hfits.mpr hfits₂)
      cases congrArg Prod.fst (h₁.symm.trans h₁')
    | error e₂ =>
      constructor
      · rw [h₁, h₂]
        constructor
        · rintro ⟨body, ⟨⟩⟩
        · rintro ⟨body, ⟨⟩⟩
      · rw [h₁, h₂]
        exact (plainSessions_error he h₁).trans (plainSessions_error he₂ h₂).symm

namespace Students

/-- The administrator's login with a User-Agent header, or without one. -/
def loginAs (userAgent : Option String) : Request :=
  { login with headers := login.headers ++ userAgent.toList.map fun text => ("user-agent", text) }

theorem loginAs_userAgent (ua : Option String) : (loginAs ua).userAgent = ua := by
  cases ua <;> rfl

theorem loginAs_differ (ua₁ ua₂ : Option String) : DifferInAgent (loginAs ua₁) (loginAs ua₂) := by
  refine ⟨rfl, rfl, rfl, ?_⟩
  cases ua₁ <;> cases ua₂ <;> rfl

theorem tenant_header : platform.lower platform.settings.tenantHeader ≠ "user-agent" := by
  decide +kernel

/-- The administrator can log in exactly with a header that the column takes. -/
theorem loginAs_ok (ua : Option String) :
    (∃ body, (serve platform world (loginAs ua)).1 = .ok body) ↔ AgentFits ua := by
  have hplain : (serve platform world (loginAs none)).1.isOk = true := by decide +kernel
  rcases h₀ : serve platform world (loginAs none) with ⟨a, w₀⟩
  rw [h₀] at hplain
  cases a with
  | error e => cases hplain
  | ok body =>
    constructor
    · rintro ⟨body', hok⟩
      have h : serve platform world (loginAs ua) =
          (.ok body', (serve platform world (loginAs ua)).2) := Prod.ext hok rfl
      have hfits := (serve_login_agent (loginAs_differ ua none) rfl tenant_header h).1
      rwa [loginAs_userAgent] at hfits
    · intro hfits
      rw [← loginAs_userAgent ua] at hfits
      obtain ⟨w₁, h, -⟩ :=
        (serve_login_agent (loginAs_differ none ua) rfl tenant_header h₀).2 hfits
      exact ⟨body, congrArg Prod.fst h⟩

end Students

/-- **User-Agent**: two headers are alike to every login iff the column takes both of them or
neither. -/
theorem agentsAlike_iff (ua₁ ua₂ : Option String) :
    AgentsAlike ua₁ ua₂ ↔ (AgentFits ua₁ ↔ AgentFits ua₂) := by
  constructor
  · intro halike
    have hagree := halike Students.platform Students.tenant_header Students.world _
      (Students.loginAs ua₁) (Students.loginAs ua₂) rfl (Students.loginAs_differ ua₁ ua₂)
      (Students.loginAs_userAgent ua₁) (Students.loginAs_userAgent ua₂)
    rw [← Students.loginAs_ok, ← Students.loginAs_ok]
    exact hagree.succeed
  · rintro hfits env hheader w data r₁ r₂ he hdiff rfl rfl
    exact loginsAgree hdiff he hheader hfits

/-- The administrator logs in with a short header, and not with one of 401 characters. -/
theorem long_agent_refused : ¬ LoginsAgree Students.platform Students.world
    (Students.loginAs (some "Mozilla/5.0"))
    (Students.loginAs (some (String.ofList (List.replicate 401 'a')))) := by
  intro hagree
  have hsucceed := hagree.succeed
  rw [Students.loginAs_ok, Students.loginAs_ok] at hsucceed
  have hshort : AgentFits (some "Mozilla/5.0") := by
    rintro text ⟨⟩
    decide
  have hlong := hsucceed.mp hshort _ rfl
  rw [String.length_ofList, List.length_replicate] at hlong
  omega

end LmsBackend
