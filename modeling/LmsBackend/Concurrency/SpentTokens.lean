import LmsBackend.Concurrency.AuthSteps
import LmsBackend.Concurrency.RaceSteps
import LmsBackend.History.Lifecycle

/-!
# Refresh tokens under concurrency

Any number of `refresh` and `logout` requests that carry one refresh token, interleaved. A
request looks the session row up, and revokes it in a later statement that does not ask
whether it is revoked by then.

- `Unspent`: the world in which they start.
- `SpendRecord`: how far a request has come.
- `SpendStep`: what one operation does to the session rows and to the record of its request.
- `refreshes_accounted`: the token is revoked precisely if a request has committed, and each
  refresh that has committed stored one session, that of the tokens it answers with.
- `spent_token_refused`: whoever looks the row up after a commit gets no tokens.
- `token_spent_twice`: two refreshes that look it up before the first commit both get some.
-/

namespace LmsBackend

open Mvcc Interleave

variable {env : Env} {ι : Type} [DecidableEq ι] {w₀ : World} {p : TokenPayload} {row : UserSession}
  {token : String}

/-! ## Requests with one token -/

/-- A request that carries the refresh token. -/
inductive SpendCall
  | refresh (context : RequestContext)
  | logout (context : RequestContext)

/-- The request in its unit of work. -/
def SpendCall.request (env : Env) (token : String) : SpendCall → M (Option TokenResponse)
  | .refresh rc =>
    getDb env (some rc) fun s => LmsBackend.refresh env rc s token >>= fun t => pure (some t)
  | .logout rc =>
    getDb env (some rc) fun s => LmsBackend.logout env s (some token) >>= fun _ => pure none

/-- How far a request has come: it has found the session row unrevoked, or not; its
transaction revokes the row, or revokes it and stores a new one; it has committed the one or
the other, or has ended otherwise. -/
inductive SpendRecord
  | start
  | live
  | late
  | revoking (drawn : List Uuid)
  | storing (v : UserSession)
  | revoked
  | renewed (v : UserSession)
  | ended
  deriving DecidableEq

namespace SpendRecord

/-- The request has committed the revocation. -/
def spent : SpendRecord → Prop
  | .revoked => True
  | .renewed _ => True
  | _ => False

/-- The identifiers that the request has drawn for a row that is not committed. -/
def drawn : SpendRecord → List Uuid
  | .revoking drawn => drawn
  | .storing v => [v.id, v.jti]
  | _ => []

end SpendRecord

/-- What the lookup of the session row means. -/
def sessionFound : List UserSession → SpendRecord
  | [r] => if r.revokedAt = none then .live else .late
  | _ => .late

/-- The lookup finds one row that is not revoked, or the request is late. -/
theorem sessionFound_cases (rows : List UserSession) :
    sessionFound rows = .late ∨
      ∃ r, rows = [r] ∧ r.revokedAt = none ∧ sessionFound rows = .live := by
  cases rows with
  | nil => exact .inl rfl
  | cons r rest =>
    cases rest with
    | nil =>
      by_cases hlive : r.revokedAt = none
      · exact .inr ⟨r, rfl, hlive, if_pos hlive⟩
      · exact .inl (if_neg hlive)
    | cons r' rest => exact .inl rfl

/-- What an operation changes in a request's record. -/
def spendNote : Note SpendRecord
  | .start, _, .db (.select .userSessions _), rows => sessionFound rows
  | .live, _, .db (.update .userSessions _ _ _), .ok 1 => .revoking []
  | .revoking drawn, _, .uuid4, id => .revoking (id :: drawn)
  | .revoking _, _, .db (.insert .userSessions v), .ok _ => .storing v
  | .revoking _, _, .db .commit, _ => .revoked
  | .storing v, _, .db .commit, _ => .renewed v
  | _, _, .db .commit, _ => .ended
  | _, _, .db .rollback, _ => .ended
  | q, _, _, _ => q

/-- The token with the claims `p` is not used up: `row` is the row of its session. -/
structure Unspent (w₀ : World) (p : TokenPayload) (row : UserSession) : Prop where
  store : TokenStore w₀
  mem : row ∈ w₀.db .userSessions
  jti : row.jti = p.jti
  tenant : row.tenantId = p.tid
  live : row.revokedAt = none
  fits : columnError .userSessions row = none
  registered : ∃ t ∈ w₀.db .tenants, t.id = p.tid

/-- The claims of an issued refresh token, as long as its session row is not revoked. -/
theorem OnRecord.unspent (hp : OnRecord env w₀ p) (hst : TokenStore w₀) (htype : p.type = "refresh")
    (hlive : ∀ r ∈ w₀.db .userSessions, r.jti = p.jti → r.revokedAt = none) :
    ∃ row, Unspent w₀ p row := by
  obtain ⟨r, hr, hjti, htenant, -, -, hfits⟩ := hp.row htype
  exact ⟨r, hst, hr, hjti, htenant, hlive r hr hjti, hfits, hp.tenant⟩

/-! ## What a request does -/

/-- The tokens of an answer are those of the session. -/
def NamesSession (env : Env) (t : TokenResponse) (v : UserSession) : Prop :=
  ∃ c, signed env t.refreshToken = some c ∧ c.type = "refresh" ∧ c.jti = v.jti ∧
    c.sub = v.userId ∧ c.tid = v.tenantId

/-- What a request relies on: nobody changes more than the session rows, that of the token
stays but for its revocation, and what the request has drawn is new. -/
structure SpendRely (w₀ : World) (row : UserSession) (q : SpendRecord) (w : World) : Prop where
  others : ∀ t, t ≠ .userSessions → w.db t = w₀.db t
  session : ∃ r ∈ w.db .userSessions, SameSession row r
  kept : ∀ r ∈ w.db .userSessions, r.id = row.id ∨ r.jti = row.jti → SameSession row r
  fresh : ∀ x ∈ q.drawn, ∀ r ∈ w.db .userSessions, r.id ≠ x ∧ r.jti ≠ x

/-- What a request commits: nothing, the revocation, or the revocation and the new session. -/
inductive Committing (row : UserSession) : SpendRecord → Tx → Prop
  | nothing {q : SpendRecord} {tx : Tx} (before : q = .start ∨ q = .late)
      (writes : tx.writes = []) : Committing row q tx
  | out {drawn : List Uuid} {tx : Tx} {now : Time}
      (writes : tx.writes = [.update .userSessions [row.id] { row with revokedAt := some now }]) :
      Committing row (.revoking drawn) tx
  | renewal {v : UserSession} {tx : Tx} {now : Time}
      (writes : tx.writes = [.update .userSessions [row.id] { row with revokedAt := some now },
        .insert .userSessions v]) :
      Committing row (.storing v) tx

/-- The operations of a request, by what it has done before. -/
def SpendAllowed (p : TokenPayload) (row : UserSession) (q : SpendRecord) (l : List Tx) : Op → Prop
  | .db .commit => ∃ tx, l = [tx] ∧ Committing row q tx
  | .db .rollback => ¬ q.spent
  | .db (.select .userSessions f) => q = .start → ∃ tx, l = [tx] ∧ tx.writes = [] ∧
    ∀ db r, f db r = true → r.jti = p.jti
  | .db (.insert .userSessions v) => ∃ access, q = .revoking [access, v.id, v.jti]
  | .db _ => True
  | .now => True
  | .uuid4 => ∃ drawn, q = .revoking drawn
  | _ => False

/-- What a request has done when its unit of work ends. -/
inductive Spending (env : Env) (w₀ : World) (row : UserSession) :
    SpendRecord → List Tx → Option TokenResponse → Prop
  | nothing {q : SpendRecord} {tx : Tx} (before : q = .start ∨ q = .late) (writes : tx.writes = [])
      (pending : tx.pending = []) : Spending env w₀ row q [tx] none
  | out {tx : Tx} {now : Time}
      (writes : tx.writes = [.update .userSessions [row.id] { row with revokedAt := some now }])
      (pending : tx.pending = []) : Spending env w₀ row (.revoking []) [tx] none
  | renewal {tx : Tx} {now : Time} {v : UserSession} {access : Uuid} {t : TokenResponse}
      (writes : tx.writes = [.update .userSessions [row.id] { row with revokedAt := some now }])
      (pending : tx.pending = [⟨.userSessions, v⟩])
      (stored : ∀ w, SpendRely w₀ row (.revoking [access, v.id, v.jti]) w →
        insertError schema w.db { tx with pending := [] } .userSessions v = none)
      (names : NamesSession env t v) :
      Spending env w₀ row (.revoking [access, v.id, v.jti]) [tx] (some t)

/-- A request that has answered with tokens has stored their session. -/
def Answered (env : Env) (q : SpendRecord) (_ : List Tx) (a : Option TokenResponse) : Prop :=
  ∀ t, a = some t → ∃ v, q = .renewed v ∧ NamesSession env t v

section Requests

/-- What a request with the token does in the company of others. -/
abbrev Spends {α : Type} (env : Env) (w₀ : World) (p : TokenPayload) (row : UserSession)
    (Q : SpendRecord → List Tx → α → Prop) (q : SpendRecord) (l : List Tx) (m : M α) : Prop :=
  Does env spendNote (SpendRely w₀ row) (SpendAllowed p row) Q
    (fun q l _ => ¬ q.spent ∧ ∃ tx, l = [tx]) q l m

variable {α : Type} {Q : SpendRecord → List Tx → α → Prop} {tx : Tx}

theorem spend_starts : Does.Starts spendNote (SpendAllowed p row) .start where
  begin _ := ⟨trivial, fun _ => rfl⟩
  now _ := ⟨trivial, fun _ => rfl⟩
  set _ _ := ⟨trivial, fun _ => rfl⟩

theorem spend_reads : Does.Reads spendNote (SpendAllowed p row) .live where
  select l t f := ⟨by cases t <;> first | trivial | exact fun h => (by cases h), fun _ => rfl⟩
  join l t₁ t₂ f := ⟨trivial, fun _ => rfl⟩

theorem writes_push_nil {x : Write Row (List Uuid)} (hw : tx.writes = []) :
    (tx.push x).writes = [x] := by
  rw [Tx.push_writes, hw]
  rfl

theorem spend_raise {q : SpendRecord} {e : Err} (hq : ¬ q.spent) :
    Spends env w₀ p row Q q [tx] (.raise e : M α) := ⟨hq, tx, rfl⟩

/-- The lookup finds the session of the token unrevoked, or the request is late. -/
theorem getByJti_spends {f : Option UserSession → M α} (hjti : row.jti = p.jti)
    (hw : tx.writes = [])
    (hlive : ∀ r, SameSession row r → r.revokedAt = none →
      schema.policy tx.guc .userSessions r = true → Spends env w₀ p row Q .live [tx] (f (some r)))
    (hlate : ∀ r : Option UserSession, (∀ x, r = some x → x.revokedAt ≠ none) →
      Spends env w₀ p row Q .late [tx] (f r)) :
    Spends env w₀ p row Q .start [tx] (getByJti p.jti >>= f) := by
  unfold getByJti
  rw [bind_assoc]
  refine Does.select (fun _ => ⟨tx, rfl, hw, fun _ r hr => of_decide_eq_true hr⟩)
    fun w hrely => ?_
  show Spends env w₀ p row Q (sessionFound ((visible schema w.db tx .userSessions).filter
    fun r => decide (r.jti = p.jti))) [tx] _
  cases hrows : (visible schema w.db tx .userSessions).filter fun r => decide (r.jti = p.jti) with
  | nil => exact hlate none (by rintro x ⟨⟩)
  | cons r rest =>
    cases rest with
    | nil =>
      have hr := List.mem_filter.mp (hrows ▸ List.mem_singleton_self r)
      have hvisible := mem_visible.mp hr.1
      rw [view_nil schema w.db hw] at hvisible
      have hsame := hrely.kept r hvisible.1 (.inr ((of_decide_eq_true hr.2).trans hjti.symm))
      show Spends env w₀ p row Q (if r.revokedAt = none then .live else .late) [tx] _
      by_cases hrevoked : r.revokedAt = none
      · rw [if_pos hrevoked]
        exact hlive r hsame hrevoked hvisible.2
      · rw [if_neg hrevoked]
        exact hlate (some r) fun x hx => (by cases hx; exact hrevoked)
    | cons r' rest => exact spend_raise id

/-- The revocation is written on the row as it is by then, or the request fails. -/
theorem revokeSession_spends {s : Session} {r : UserSession} {f : Unit → M α} (hid : r.id = row.id)
    (hw : tx.writes = [])
    (h : ∀ now, Spends env w₀ p row Q (.revoking [])
      [tx.push (.update .userSessions [row.id] { row with revokedAt := some now })] (f ())) :
    Spends env w₀ p row Q .live [tx] (revokeSession s r >>= f) := by
  unfold revokeSession
  rw [bind_assoc]
  refine Does.op trivial fun w now w' l' _ hexec => ?_
  cases hexec
  rw [hid]
  refine Does.updateRow trivial (fun w₁ old hrely htarget _ => ?_) fun w₁ a e _ _ => ⟨?_, tx, rfl⟩
  · obtain ⟨hmem, -, hkey, -⟩ := target_some htarget
    rw [view_nil schema w₁.db hw] at hmem
    have hold : old.id = row.id := List.singleton_injective hkey
    have hsame := hrely.kept old hmem (.inl hold)
    have hrow : ({ old with revokedAt := some (env.clock w.ticks) } : UserSession) =
        { row with revokedAt := some (env.clock w.ticks) } := by
      rcases hsame with rfl | ⟨t, rfl⟩ <;> rfl
    have hnext := h (env.clock w.ticks)
    rw [← hrow] at hnext
    exact hnext
  · show ¬ (spendNote .live [tx] (.db (.update .userSessions [row.id] _ _)) a).spent
    rcases a with e | _ | _ | n <;> exact id

/-- The new session of a refresh waits for the commit. -/
theorem issueTokens_spends (henv : env.Lawful) {userId : Uuid} {ua ip : Option String}
    {f : TokenResponse → M α} (hp : tx.pending = [])
    (h : ∀ access v t, v.tenantId = p.tid → v.userId = userId → v.userAgent = ua →
      v.ipAddress = ip → NamesSession env t v →
      Spends env w₀ p row Q (.revoking [access, v.id, v.jti])
        [{ tx with pending := [⟨.userSessions, v⟩] }] (f t)) :
    Spends env w₀ p row Q (.revoking []) [tx] (issueTokens env userId p.tid ua ip >>= f) := by
  obtain ⟨guc, writes, pending⟩ := tx
  cases hp
  unfold issueTokens createRefreshToken createAccessToken encode
  simp only [bind_assoc, pure_bind]
  refine Does.op ⟨_, rfl⟩ fun w jti w' l' _ hexec => ?_
  cases hexec
  refine Does.op trivial fun w₁ now w' l' _ hexec => ?_
  cases hexec
  refine Does.op trivial fun w₂ now w' l' _ hexec => ?_
  cases hexec
  refine Does.op ⟨_, rfl⟩ fun w₃ id w' l' _ hexec => ?_
  cases hexec
  refine Does.op trivial fun w₄ a w' l' _ hexec => ?_
  cases hexec
  refine Does.op ⟨_, rfl⟩ fun w₅ access w' l' _ hexec => ?_
  cases hexec
  refine Does.op trivial fun w₆ now w' l' _ hexec => ?_
  cases hexec
  refine h w₅.nextUuid ⟨w₃.nextUuid, p.tid, userId, w.nextUuid, ua, ip,
    env.clock w₂.ticks + env.settings.refreshTokenTtlSeconds, none⟩ _ rfl rfl rfl rfl ?_
  exact ⟨_, henv.verify_encode _ _ _, rfl, rfl, rfl, rfl⟩

/-- The new row satisfies the constraints. -/
theorem session_stored (hopen : Unspent w₀ p row) {w : World} {access : Uuid} {v : UserSession}
    {now : Time} (hrely : SpendRely w₀ row (.revoking [access, v.id, v.jti]) w)
    (hpolicy : schema.policy tx.guc .userSessions v = true)
    (hwrites : tx.writes = [.update .userSessions [row.id] { row with revokedAt := some now }])
    (hcolumns : columnError .userSessions v = none) (htenant : v.tenantId = p.tid)
    (huser : ∃ u ∈ w₀.db .users, u.id = v.userId) :
    insertError schema w.db tx .userSessions v = none := by
  have hview : view schema w.db tx = Write.apply schema w.db
      (.update .userSessions [row.id] { row with revokedAt := some now }) := by
    rw [view, hwrites]
    rfl
  have hnew : ∀ r ∈ w.db .userSessions, r.id ≠ v.id ∧ r.jti ≠ v.jti := fun r hr =>
    ⟨(hrely.fresh v.id (by simp [SpendRecord.drawn]) r hr).1,
      (hrely.fresh v.jti (by simp [SpendRecord.drawn]) r hr).2⟩
  obtain ⟨r₀, hr₀, hsame⟩ := hrely.session
  have hrow := hnew r₀ hr₀
  rw [hsame.id, hsame.jti] at hrow
  refine insertError_eq_none hpolicy hcolumns ?_ ?_
  · rw [uniqueError_userSessions, hview, apply_update_sessions]
    exact replaceSession_forall hnew hrow
  · rw [referenceError_userSessions, hview, Write.apply_other (by simp [Write.table]),
      Write.apply_other (by simp [Write.table]), hrely.others _ (by decide),
      hrely.others _ (by decide), htenant]
    exact ⟨hopen.registered, huser⟩

theorem policy_congr {g : Guc} {t : Table} {r r' : Row t} (h : tenantOf t r = tenantOf t r') :
    policy g t r = policy g t r' := by
  unfold policy
  rw [h]

theorem inactive_of_revoked {r : UserSession} (h : r.revokedAt ≠ none) : (!r.isActive) = true := by
  obtain ⟨t, ht⟩ := Option.ne_none_iff_exists'.mp h
  rw [UserSession.isActive, ht]
  rfl

/-- A refresh. -/
theorem refresh_spends (henv : env.Lawful) (hopen : Unspent w₀ p row)
    (hsigned : signed env token = some p) {rc : RequestContext} {s : Session} (hw : tx.writes = [])
    (hp : tx.pending = []) :
    Spends env w₀ p row (Spending env w₀ row) .start [tx]
      (refresh env rc s token >>= fun t => pure (some t)) := by
  unfold refresh decodeToken
  rw [hsigned]
  simp only [bind_assoc, pure_bind]
  refine Does.op trivial fun w now w' l' _ hexec => ?_
  cases hexec
  cases hclaims : checkClaims "refresh" p (env.clock w.ticks) with
  | error message => exact spend_raise id
  | ok q =>
    obtain ⟨rfl, -⟩ := checkClaims_ok hclaims
    dsimp only
    rw [bind_assoc]
    refine getByJti_spends hopen.jti hw (fun r hsame hlive hpolicy => ?_) fun r hlate => ?_
    · dsimp only
      rw [if_neg (by simp [UserSession.isActive, hlive])]
      rw [bind_assoc]
      refine Does.op trivial fun w₁ now w' l' _ hexec => ?_
      cases hexec
      by_cases hexp : r.expiresAt < env.clock w₁.ticks
      · rw [if_pos hexp]
        exact spend_raise id
      · rw [if_neg hexp]
        simp only [bind_assoc]
        refine Does.getUserOr404 spend_reads (fun _ => ⟨id, tx, rfl⟩) fun w₂ u hrely hu => ?_
        refine revokeSession_spends hsame.id hw fun now => ?_
        refine issueTokens_spends henv hp fun access v t htenant huser hua hip hnames => ?_
        have hwrites := @writes_push_nil tx
          (.update .userSessions [row.id] { row with revokedAt := some now }) hw
        refine Spending.renewal hwrites rfl (fun w hrely' => ?_) hnames
        have htenants : v.tenantId = r.tenantId :=
          htenant.trans (hopen.tenant.symm.trans hsame.tenantId.symm)
        have hpolicy' : policy tx.guc .userSessions v = true :=
          (@policy_congr tx.guc .userSessions v r (congrArg some htenants)).trans hpolicy
        have hcolumns : columnError .userSessions v = none := by
          show firstError [varchar? 400 "user_agent" v.userAgent,
            varchar? 64 "ip_address" v.ipAddress] = none
          rw [hua, hip]
          exact hsame.columns.trans hopen.fits
        have hmem := (mem_visible.mp hu).1
        rw [view_nil schema w₂.db hw, hrely.others _ (by decide)] at hmem
        exact session_stored hopen hrely' hpolicy' hwrites hcolumns htenant
          ⟨u.user, hmem, huser.symm⟩
    · cases r with
      | none => exact spend_raise id
      | some x =>
        dsimp only
        rw [if_pos (inactive_of_revoked (hlate x rfl))]
        exact spend_raise id

/-- A logout. -/
theorem logout_spends (hopen : Unspent w₀ p row) (hsigned : signed env token = some p)
    {s : Session} (hw : tx.writes = []) (hp : tx.pending = []) :
    Spends env w₀ p row (Spending env w₀ row) .start [tx]
      (logout env s (some token) >>= fun _ => pure none) := by
  unfold logout
  cases htruthy : truthy (some token) with
  | none => exact Spending.nothing (.inl rfl) hw hp
  | some sent =>
    cases truthy_eq_some htruthy
    dsimp only
    unfold decodeToken
    rw [hsigned]
    simp only [bind_assoc, pure_bind]
    refine Does.op trivial fun w now w' l' _ hexec => ?_
    cases hexec
    cases hclaims : checkClaims "refresh" p (env.clock w.ticks) with
    | error message => exact Spending.nothing (.inl rfl) hw hp
    | ok q =>
      obtain ⟨rfl, -⟩ := checkClaims_ok hclaims
      dsimp only
      rw [bind_assoc]
      refine getByJti_spends hopen.jti hw (fun r hsame hlive _ => ?_) fun r hlate => ?_
      · dsimp only
        rw [if_pos (by simp [UserSession.isActive, hlive])]
        refine revokeSession_spends hsame.id hw fun now => ?_
        have hwrites := @writes_push_nil tx
          (.update .userSessions [row.id] { row with revokedAt := some now }) hw
        exact Spending.out hwrites hp
      · cases r with
        | none => exact Spending.nothing (.inr rfl) hw hp
        | some x =>
          dsimp only
          rw [if_neg (by simpa using inactive_of_revoked (hlate x rfl))]
          exact Spending.nothing (.inr rfl) hw hp

/-- A unit of work commits what its body has prepared. -/
theorem unit_spends {rc : RequestContext} {body : Session → M (Option TokenResponse)}
    (hbody : ∀ (s : Session) (tx : Tx), tx.writes = [] → tx.pending = [] →
      Spends env w₀ p row (Spending env w₀ row) .start [tx] (body s)) :
    Does env spendNote (SpendRely w₀ row) (SpendAllowed p row) (Answered env) (fun _ _ _ => True)
      .start [] (getDb env (some rc) body) := by
  rw [← bind_pure (getDb env (some rc) body)]
  refine Does.getDb spend_starts (fun s => hbody s _ rfl rfl) ?_ ?_
  · intro q l a h
    cases h with
    | nothing before writes pending =>
      refine Does.commitSession_nil pending ⟨trivial, fun _ => ?_⟩
        ⟨_, rfl, .nothing before writes⟩ ?_
      · rcases before with rfl | rfl <;> rfl
      · rintro t ⟨⟩
    | out writes pending =>
      refine Does.commitSession_nil pending ⟨trivial, fun _ => rfl⟩ ⟨_, rfl, .out writes⟩ ?_
      rintro t ⟨⟩
    | @renewal tx now v access t writes pending stored names =>
      -- the insert is accepted in every world that the others may leave
      refine Does.commitSession_row pending ⟨trivial, fun _ => rfl⟩ ⟨access, rfl⟩
        (fun w _ _ => ?_) fun w a e hrely hrefused => ?_
      · refine ⟨⟨_, rfl, @Committing.renewal row v _ now ?_⟩, fun _ _ => ?_⟩
        · show tx.writes ++ [_] = _
          rw [writes]
          rfl
        · rintro t' ⟨⟩
          exact ⟨v, rfl, names⟩
      · cases (stored w hrely).symm.trans hrefused
  · rintro q l e ⟨hq, tx, rfl⟩
    exact Does.rollback hq trivial

/-- What a request does, from its start to its end. -/
theorem spendCall_does (henv : env.Lawful) (hopen : Unspent w₀ p row)
    (hsigned : signed env token = some p) (call : SpendCall) :
    Does env spendNote (SpendRely w₀ row) (SpendAllowed p row) (Answered env) (fun _ _ _ => True)
      .start [] (call.request env token) := by
  cases call with
  | refresh rc => exact unit_spends fun s tx hw hp => refresh_spends henv hopen hsigned hw hp
  | logout rc => exact unit_spends fun s tx hw hp => logout_spends hopen hsigned hw hp

end Requests

/-! ## What a step does to the sessions -/

/-- What one operation does to the session rows and to the record of its request. -/
inductive SpendStep (p : TokenPayload) (row : UserSession) (w w' : World) :
    SpendRecord → SpendRecord → Prop
  | quiet {q : SpendRecord} (rows : w'.db .userSessions = w.db .userSessions) :
      SpendStep p row w w' q q
  | found {r : UserSession} (mem : r ∈ w.db .userSessions) (jti : r.jti = p.jti)
      (live : r.revokedAt = none) (rows : w'.db .userSessions = w.db .userSessions) :
      SpendStep p row w w' .start .live
  | missed (rows : w'.db .userSessions = w.db .userSessions) : SpendStep p row w w' .start .late
  | revoke (rows : w'.db .userSessions = w.db .userSessions) :
      SpendStep p row w w' .live (.revoking [])
  | draw {drawn : List Uuid} (next : w.nextUuid < w'.nextUuid)
      (rows : w'.db .userSessions = w.db .userSessions) :
      SpendStep p row w w' (.revoking drawn) (.revoking (w.nextUuid :: drawn))
  | store {access : Uuid} {v : UserSession} (rows : w'.db .userSessions = w.db .userSessions) :
      SpendStep p row w w' (.revoking [access, v.id, v.jti]) (.storing v)
  | out {drawn : List Uuid} {now : Time}
      (rows : w'.db .userSessions =
        replaceSession row.id { row with revokedAt := some now } (w.db .userSessions)) :
      SpendStep p row w w' (.revoking drawn) .revoked
  | renew {v : UserSession} {now : Time}
      (rows : w'.db .userSessions =
        replaceSession row.id { row with revokedAt := some now } (w.db .userSessions) ++ [v]) :
      SpendStep p row w w' (.storing v) (.renewed v)
  | leave {q : SpendRecord} (unspent : ¬ q.spent)
      (rows : w'.db .userSessions = w.db .userSessions) : SpendStep p row w w' q .ended

/-- The lookup of the session row. -/
theorem spend_lookup {w : World} {tx : Tx} {f : Database Row → UserSession → Bool}
    (hw : tx.writes = []) (hf : ∀ db r, f db r = true → r.jti = p.jti) :
    SpendStep p row w w .start (sessionFound ((visible schema w.db tx .userSessions).filter
      (f (visible schema w.db tx)))) := by
  obtain hlate | ⟨r, hrows, hlive, hfound⟩ := sessionFound_cases
    ((visible schema w.db tx .userSessions).filter (f (visible schema w.db tx)))
  · rw [hlate]
    exact .missed rfl
  · have hr := List.mem_filter.mp (hrows ▸ List.mem_singleton_self r)
    have hmem := (mem_visible.mp hr.1).1
    rw [view_nil schema w.db hw] at hmem
    rw [hfound]
    exact .found hmem (hf _ r hr.2) hlive rfl

/-- The commit writes what the transaction has prepared. -/
theorem spend_commit {q : SpendRecord} {tx : Tx} {w w' : World} (h : Committing row q tx)
    (hdb : w'.db = view schema w.db tx) :
    (∀ t, t ≠ .userSessions → w'.db t = w.db t) ∧
      SpendStep p row w w' q (spendNote q [tx] (.db .commit) ()) := by
  cases h with
  | nothing before writes =>
    have hsame := hdb.trans (view_nil schema w.db writes)
    refine ⟨fun t _ => congrFun hsame t, ?_⟩
    rcases before with rfl | rfl
    · exact .leave id (congrFun hsame _)
    · exact .leave id (congrFun hsame _)
  | @out drawn tx now writes =>
    have happly : w'.db = Write.apply schema w.db
        (.update .userSessions [row.id] { row with revokedAt := some now }) := by
      rw [hdb, view, writes]
      rfl
    refine ⟨fun t ht => ?_, @SpendStep.out _ _ _ _ drawn now ?_⟩
    · rw [happly, Write.apply_other (Ne.symm ht)]
    · rw [happly, apply_update_sessions]
  | @renewal v tx now writes =>
    have happly : w'.db = Write.apply schema (Write.apply schema w.db
        (.update .userSessions [row.id] { row with revokedAt := some now }))
        (.insert .userSessions v) := by
      rw [hdb, view, writes]
      rfl
    refine ⟨fun t ht => ?_, @SpendStep.renew _ _ _ _ v now ?_⟩
    · rw [happly, Write.apply_other (Ne.symm ht), Write.apply_other (Ne.symm ht)]
    · rw [happly, Write.apply_insert, apply_update_sessions]

/-- **One step** of a request. -/
theorem spend_step {q : SpendRecord} {l : List Tx} {o : Op} {w : World}
    (hallow : SpendAllowed p row q l o) :
    (∀ t, t ≠ .userSessions → (exec env o (w, l)).2.1.db t = w.db t) ∧
      w.nextUuid ≤ (exec env o (w, l)).2.1.nextUuid ∧
      SpendStep p row w (exec env o (w, l)).2.1 q (spendNote q l o (exec env o (w, l)).1) := by
  cases o with
  | db o =>
    by_cases hcommit : o = .commit
    · subst hcommit
      obtain ⟨tx, rfl, hcommitting⟩ := hallow
      obtain ⟨hothers, hstep⟩ := @spend_commit p row q tx w
        (exec env (.db .commit) (w, [tx])).2.1 hcommitting rfl
      exact ⟨hothers, le_refl _, hstep⟩
    · -- only a commit changes the rows
      rw [exec_db_world hcommit]
      refine ⟨fun _ _ => rfl, le_refl _, ?_⟩
      cases o with
      | commit => exact absurd rfl hcommit
      | rollback => cases q <;> exact .leave hallow rfl
      | select t f =>
        cases t with
        | userSessions =>
          cases q with
          | start =>
            obtain ⟨tx, rfl, hw, hf⟩ := hallow rfl
            exact spend_lookup hw hf
          | _ => exact .quiet rfl
        | _ => cases q <;> exact .quiet rfl
      | insert t v =>
        cases t with
        | userSessions =>
          obtain ⟨access, rfl⟩ := hallow
          generalize (exec env (.db (.insert .userSessions v)) (w, l)).1 = a
          cases a with
          | ok n => exact .store rfl
          | error e => exact .quiet rfl
        | _ => cases q <;> exact .quiet rfl
      | update t k f g =>
        generalize (exec env (.db (.update t k f g)) (w, l)).1 = a
        cases t with
        | userSessions =>
          cases q with
          | live =>
            -- the update marks the record only when it has found the row
            rcases a with e | _ | _ | n
            · exact .quiet rfl
            · exact .quiet rfl
            · exact .revoke rfl
            · exact .quiet rfl
          | _ => exact .quiet rfl
        | _ => cases q <;> exact .quiet rfl
      | _ => cases q <;> exact .quiet rfl
  | now => cases q <;> exact ⟨fun _ _ => rfl, le_refl _, .quiet rfl⟩
  | uuid4 =>
    obtain ⟨drawn, rfl⟩ := hallow
    exact ⟨fun _ _ => rfl, Nat.le_succ _, .draw (Nat.lt_succ_self _) rfl⟩
  | _ => exact hallow.elim

/-! ## Every state of a run -/

/-- What is true of the session rows and of the records in every state: the token's row is
revoked precisely if a request has committed, the others are those of the start and those that
committed refreshes have stored, and what was drawn for the rest is unused. -/
structure SpendInv (w₀ : World) (row : UserSession) (w : World) (seen : ι → SpendRecord) :
    Prop where
  others : ∀ t, t ≠ .userSessions → w.db t = w₀.db t
  present : ∃ r ∈ w.db .userSessions, r.id = row.id
  kept : ∀ r ∈ w.db .userSessions, r.id = row.id ∨ r.jti = row.jti →
    SameSession row r ∧ (r.revokedAt = none ↔ ∀ i, ¬ (seen i).spent)
  sessions : ∀ r, r ∈ w.db .userSessions ∧ r.id ≠ row.id ↔
    (r ∈ w₀.db .userSessions ∧ r.id ≠ row.id) ∨ ∃ i, seen i = .renewed r
  past : ∀ r ∈ w.db .userSessions, r.id < w.nextUuid ∧ r.jti < w.nextUuid
  drawn : ∀ i, ∀ x ∈ (seen i).drawn, x < w.nextUuid ∧
    ∀ r ∈ w.db .userSessions, r.id ≠ x ∧ r.jti ≠ x
  apart : ∀ i j x, x ∈ (seen i).drawn → x ∈ (seen j).drawn → i = j
  once : ∀ i j v v', seen i = .renewed v → seen j = .renewed v' → v.id = v'.id → i = j

section Steps

variable {w w' : World} {seen : ι → SpendRecord} {i : ι} {q : SpendRecord}

omit [DecidableEq ι] in
theorem SpendInv.rely (h : SpendInv w₀ row w seen) (i : ι) : SpendRely w₀ row (seen i) w := by
  obtain ⟨r, hr, hid⟩ := h.present
  exact ⟨h.others, ⟨r, hr, (h.kept r hr (.inl hid)).1⟩, fun r hr hor => (h.kept r hr hor).1,
    fun x hx => (h.drawn i x hx).2⟩

omit [DecidableEq ι] in
theorem SpendInv.start (hopen : Unspent w₀ p row) : SpendInv w₀ row w₀ fun _ : ι => .start := by
  have hids := hopen.store.registry.sessionIds
  refine ⟨fun _ _ => rfl, ⟨row, hopen.mem, rfl⟩, fun r hr hor => ?_, fun r => ?_,
    hopen.store.registry.sessions, by rintro i x ⟨⟩, by rintro i j x ⟨⟩, by rintro i j v v' ⟨⟩⟩
  · have hrow : r = row := by
      rcases hor with hid | hjti
      · exact List.inj_on_of_nodup_map hids hr hopen.mem hid
      · exact hopen.store.same hr hopen.mem hjti
    subst hrow
    exact ⟨.inl rfl, iff_of_true hopen.live fun _ => id⟩
  · refine (or_iff_left ?_).symm
    rintro ⟨i, ⟨⟩⟩

/-- What the record of the request keeps in its step, all the records keep. -/
theorem kept_update {C : SpendRecord → Prop} {j : ι} (h : C (seen i) → C q) (hj : C (seen j)) :
    C (Function.update seen i q j) := by
  by_cases hji : j = i
  · subst hji
    rw [Function.update_self]
    exact h hj
  · rw [Function.update_of_ne hji]
    exact hj

/-- A step that leaves the rows as they are, of a request that has not committed, or that
leaves its record. -/
theorem SpendInv.mark (h : SpendInv w₀ row w seen)
    (hothers : ∀ t, t ≠ .userSessions → w'.db t = w.db t) (hnext : w.nextUuid ≤ w'.nextUuid)
    (hrows : w'.db .userSessions = w.db .userSessions)
    (hrecord : q = seen i ∨ ¬ (seen i).spent ∧ ¬ q.spent)
    (hdrawn : ∀ x ∈ q.drawn, x ∈ (seen i).drawn ∨ w.nextUuid ≤ x ∧ x < w'.nextUuid) :
    SpendInv w₀ row w' (Function.update seen i q) := by
  have hspent : ∀ j, (Function.update seen i q j).spent ↔ (seen j).spent := by
    refine (Function.forall_update_iff seen fun j x => x.spent ↔ (seen j).spent).mpr
      ⟨?_, fun _ _ => Iff.rfl⟩
    rcases hrecord with rfl | ⟨hbefore, hafter⟩
    · exact Iff.rfl
    · exact iff_of_false hafter hbefore
  have hrenewed : ∀ j v, Function.update seen i q j = .renewed v ↔ seen j = .renewed v := by
    refine (Function.forall_update_iff seen
      fun j x => ∀ v, x = .renewed v ↔ seen j = .renewed v).mpr ⟨fun v => ?_, fun _ _ _ => Iff.rfl⟩
    rcases hrecord with rfl | ⟨hbefore, hafter⟩
    · exact Iff.rfl
    · exact iff_of_false (fun hq => hafter (hq ▸ trivial)) fun hq => hbefore (hq ▸ trivial)
  have hwas : ∀ j, ∀ x ∈ (Function.update seen i q j).drawn,
      x ∈ (seen j).drawn ∨ j = i ∧ w.nextUuid ≤ x ∧ x < w'.nextUuid :=
    (Function.forall_update_iff seen fun j y => ∀ x ∈ y.drawn,
      x ∈ (seen j).drawn ∨ j = i ∧ w.nextUuid ≤ x ∧ x < w'.nextUuid).mpr
      ⟨fun x hx => (hdrawn x hx).imp_right fun hnew => ⟨rfl, hnew⟩, fun _ _ _ hx => .inl hx⟩
  refine ⟨fun t ht => (hothers t ht).trans (h.others t ht), hrows ▸ h.present, ?_, fun r => ?_, ?_,
    fun j x hx => ?_, fun a b x ha hb => ?_, fun a b v v' ha hb => ?_⟩
  · rw [hrows]
    simp only [hspent]
    exact h.kept
  · rw [hrows]
    simp only [hrenewed]
    exact h.sessions r
  · rw [hrows]
    exact fun r hr => ⟨(h.past r hr).1.trans_le hnext, (h.past r hr).2.trans_le hnext⟩
  · rw [hrows]
    rcases hwas j x hx with hold | ⟨-, hnew, hlt⟩
    · exact ⟨(h.drawn j x hold).1.trans_le hnext, (h.drawn j x hold).2⟩
    · exact ⟨hlt, fun r hr => ⟨Nat.ne_of_lt ((h.past r hr).1.trans_le hnew),
        Nat.ne_of_lt ((h.past r hr).2.trans_le hnew)⟩⟩
  · -- what one request draws now, the other one has not drawn before
    rcases hwas a x ha with ha' | ⟨hai, hnew, -⟩
    · rcases hwas b x hb with hb' | ⟨hbi, hnew, -⟩
      · exact h.apart a b x ha' hb'
      · exact absurd (h.drawn a x ha').1 (Nat.not_lt.mpr hnew)
    · rcases hwas b x hb with hb' | ⟨hbi, -⟩
      · exact absurd (h.drawn b x hb').1 (Nat.not_lt.mpr hnew)
      · exact hai.trans hbi.symm
  · exact h.once a b v v' ((hrenewed a v).mp ha) ((hrenewed b v').mp hb)

/-- A commit: the token's row is revoked, and the new session is one that its request has
drawn identifiers for. -/
theorem SpendInv.commit (h : SpendInv w₀ row w seen) {new : Option UserSession} {now : Time}
    (hothers : ∀ t, t ≠ .userSessions → w'.db t = w.db t) (hnext : w.nextUuid ≤ w'.nextUuid)
    (hrows : w'.db .userSessions =
      replaceSession row.id { row with revokedAt := some now } (w.db .userSessions) ++ new.toList)
    (hbefore : ¬ (seen i).spent) (hafter : q.spent) (hnew : ∀ v, new = some v ↔ q = .renewed v)
    (hdrawn : ∀ v, new = some v → v.id ∈ (seen i).drawn ∧ v.jti ∈ (seen i).drawn) :
    SpendInv w₀ row w' (Function.update seen i q) := by
  obtain ⟨r₀, hr₀, hid₀⟩ := h.present
  have hjti₀ : r₀.jti = row.jti := (h.kept r₀ hr₀ (.inl hid₀)).1.jti
  have hmem : ∀ r, r ∈ w'.db .userSessions ↔ r = { row with revokedAt := some now } ∨
      (r ∈ w.db .userSessions ∧ r.id ≠ row.id) ∨ new = some r := by
    intro r
    rw [hrows, List.mem_append, Option.mem_toList, mem_replaceSession_iff h.present, or_assoc]
  -- the new row is neither that of the token nor one of another request
  have hapart : ∀ v, new = some v → v.id ≠ row.id ∧ v.jti ≠ row.jti := by
    intro v hv
    obtain ⟨hid, hjti⟩ := hdrawn v hv
    exact ⟨fun heq => ((h.drawn i v.id hid).2 r₀ hr₀).1 (hid₀.trans heq.symm),
      fun heq => ((h.drawn i v.jti hjti).2 r₀ hr₀).2 (hjti₀.trans heq.symm)⟩
  have hnone : q.drawn = [] := by
    cases q with
    | revoked => rfl
    | renewed v => rfl
    | _ => exact hafter.elim
  have hwas : ∀ j, ∀ x ∈ (Function.update seen i q j).drawn, j ≠ i ∧ x ∈ (seen j).drawn := by
    refine (Function.forall_update_iff seen
      fun j y => ∀ x ∈ y.drawn, j ≠ i ∧ x ∈ (seen j).drawn).mpr
      ⟨?_, fun _ hji _ hx => ⟨hji, hx⟩⟩
    rw [hnone]
    rintro x ⟨⟩
  have hrenewed : ∀ r, (∃ j, Function.update seen i q j = .renewed r) ↔
      (∃ j, seen j = .renewed r) ∨ new = some r := by
    intro r
    rw [Function.exists_update_iff seen fun _ x => x = .renewed r, hnew]
    constructor
    · rintro (hq | ⟨j, -, hj⟩)
      · exact .inr hq
      · exact .inl ⟨j, hj⟩
    · rintro (⟨j, hj⟩ | hq)
      · refine .inr ⟨j, ?_, hj⟩
        rintro rfl
        exact hbefore (hj ▸ trivial)
      · exact .inl hq
  refine ⟨fun t ht => (hothers t ht).trans (h.others t ht), ⟨_, (hmem _).mpr (.inl rfl), rfl⟩,
    fun r hr hor => ?_, fun r => ?_, fun r hr => ?_, fun j x hx => ?_, fun a b x ha hb => ?_,
    fun a b v v' ha hb hid => ?_⟩
  · rcases (hmem r).mp hr with rfl | ⟨hr, hid⟩ | hr
    · refine ⟨.inr ⟨now, rfl⟩, iff_of_false (by rintro ⟨⟩) fun hall => hall i ?_⟩
      rw [Function.update_self]
      exact hafter
    · rcases hor with hsame | hsame
      · exact absurd hsame hid
      · exact absurd (h.kept r hr (.inr hsame)).1.id hid
    · rcases hor with hsame | hsame
      · exact absurd hsame (hapart r hr).1
      · exact absurd hsame (hapart r hr).2
  · have hold := h.sessions r
    rw [hmem, hrenewed]
    constructor
    · rintro ⟨rfl | hr | hr, hid⟩
      · exact absurd rfl hid
      · exact (hold.mp hr).imp_right .inl
      · exact .inr (.inr hr)
    · rintro (hr | hr | hr)
      · exact ⟨.inr (.inl (hold.mpr (.inl hr))), hr.2⟩
      · exact ⟨.inr (.inl (hold.mpr (.inr hr))), (hold.mpr (.inr hr)).2⟩
      · exact ⟨.inr (.inr hr), (hapart r hr).1⟩
  · rcases (hmem r).mp hr with rfl | ⟨hr, -⟩ | hr
    · have hpast := h.past r₀ hr₀
      rw [hid₀, hjti₀] at hpast
      exact ⟨hpast.1.trans_le hnext, hpast.2.trans_le hnext⟩
    · exact ⟨(h.past r hr).1.trans_le hnext, (h.past r hr).2.trans_le hnext⟩
    · obtain ⟨hid, hjti⟩ := hdrawn r hr
      exact ⟨(h.drawn i _ hid).1.trans_le hnext, (h.drawn i _ hjti).1.trans_le hnext⟩
  · obtain ⟨hji, hx⟩ := hwas j x hx
    refine ⟨(h.drawn j x hx).1.trans_le hnext, fun r hr => ?_⟩
    rcases (hmem r).mp hr with rfl | ⟨hr, -⟩ | hr
    · have hrow := (h.drawn j x hx).2 r₀ hr₀
      rw [hid₀, hjti₀] at hrow
      exact hrow
    · exact (h.drawn j x hx).2 r hr
    · obtain ⟨hid, hjti⟩ := hdrawn r hr
      exact ⟨fun heq => hji (h.apart j i x hx (heq ▸ hid)),
        fun heq => hji (h.apart j i x hx (heq ▸ hjti))⟩
  · exact h.apart a b x (hwas a x ha).2 (hwas b x hb).2
  · have hfirst : ∀ c u u', c ≠ i → q = .renewed u → seen c = .renewed u' → u.id ≠ u'.id := by
      intro c u u' hci hq hc heq
      have hold := ((h.sessions u').mpr (.inr ⟨c, hc⟩)).1
      exact ((h.drawn i u.id (hdrawn u ((hnew u).mpr hq)).1).2 u' hold).1 heq.symm
    by_cases hai : a = i
    · by_cases hbi : b = i
      · exact hai.trans hbi.symm
      · rw [hai, Function.update_self] at ha
        rw [Function.update_of_ne hbi] at hb
        exact absurd hid (hfirst b v v' hbi ha hb)
    · rw [Function.update_of_ne hai] at ha
      by_cases hbi : b = i
      · rw [hbi, Function.update_self] at hb
        exact absurd hid.symm (hfirst a v' v hai hb ha)
      · rw [Function.update_of_ne hbi] at hb
        exact h.once a b v v' ha hb hid

/-- **One step** of a request keeps the invariant. -/
theorem SpendInv.step (h : SpendInv w₀ row w seen)
    (hothers : ∀ t, t ≠ .userSessions → w'.db t = w.db t) (hnext : w.nextUuid ≤ w'.nextUuid)
    (hstep : SpendStep p row w w' (seen i) q) : SpendInv w₀ row w' (Function.update seen i q) := by
  generalize hq : seen i = q₀ at hstep
  have hmark := fun q => @SpendInv.mark ι _ w₀ row w w' seen i q h hothers hnext
  rw [hq] at hmark
  cases hstep with
  | quiet rows => exact hmark _ rows (.inl rfl) fun x hx => .inl hx
  | found mem jti live rows => exact hmark _ rows (.inr ⟨id, id⟩) (by rintro x ⟨⟩)
  | missed rows => exact hmark _ rows (.inr ⟨id, id⟩) (by rintro x ⟨⟩)
  | revoke rows => exact hmark _ rows (.inr ⟨id, id⟩) (by rintro x ⟨⟩)
  | draw next rows =>
    refine hmark _ rows (.inr ⟨id, id⟩) fun x hx => ?_
    rcases List.mem_cons.mp hx with rfl | hx
    · exact .inr ⟨le_refl _, next⟩
    · exact .inl hx
  | store rows => exact hmark _ rows (.inr ⟨id, id⟩) fun x hx => .inl (List.mem_cons_of_mem _ hx)
  | leave unspent rows => exact hmark _ rows (.inr ⟨unspent, id⟩) (by rintro x ⟨⟩)
  | @out drawn now rows =>
    refine @SpendInv.commit ι _ w₀ row w w' seen i _ h none now hothers hnext ?_ (hq ▸ id) trivial
      (fun v => iff_of_false (by rintro ⟨⟩) (by rintro ⟨⟩)) (by rintro v ⟨⟩)
    rw [Option.toList_none, List.append_nil]
    exact rows
  | @renew v now rows =>
    refine @SpendInv.commit ι _ w₀ row w w' seen i _ h (some v) now hothers hnext rows (hq ▸ id)
      trivial (fun v' => ?_) ?_
    · rw [Option.some.injEq, SpendRecord.renewed.injEq]
    · rintro v' ⟨⟩
      rw [hq]
      exact ⟨List.mem_cons_self, List.mem_cons_of_mem _ (List.mem_singleton_self _)⟩

end Steps

section Runs

variable {P P' : Crowd (Option TokenResponse) SpendRecord ι} {i : ι}

/-- How far the requests have come. -/
def spendRecords (P : Crowd (Option TokenResponse) SpendRecord ι) : ι → SpendRecord :=
  fun i => (P.thread i).seen

theorem spendRecords_act {o : Op} {k : o.Ans → M (Option TokenResponse)} :
    spendRecords (P.act (machine env spendNote) i o k) = Function.update (spendRecords P) i
      (spendNote (spendRecords P i) (P.thread i).loc o
        (exec env o (P.world, (P.thread i).loc)).1) := by
  funext j
  by_cases hji : j = i
  · subst hji
    rw [Function.update_self]
    exact congrArg Thread.seen Pool.act_self
  · rw [Function.update_of_ne hji]
    exact congrArg Thread.seen (Pool.act_other hji)

theorem spendRecords_cut : spendRecords (P.cut (machine env spendNote) i) = spendRecords P := by
  funext j
  by_cases hji : j = i
  · subst hji
    show ((P.cut (machine env spendNote) j).thread j).seen = (P.thread j).seen
    rw [Pool.cut_self]
  · exact congrArg Thread.seen (Pool.cut_other hji)

/-- The requests do what they may, and what they rely on holds. -/
theorem spend_invariant (henv : env.Lawful) (hopen : Unspent w₀ p row)
    (hsigned : signed env token = some p) (calls : ι → SpendCall)
    (hrun : Reach (machine env spendNote) (fun _ _ _ => True)
      (crowd w₀ .start fun i => (calls i).request env token) P) :
    SpendInv w₀ row P.world (spendRecords P) ∧
      Orderly (machine env spendNote) (SpendRely w₀ row) (fun _ => SpendAllowed p row)
        (fun _ => Answered env) (fun _ _ _ _ => True) P := by
  have horderly : Orderly (machine env spendNote) (SpendRely w₀ row) (fun _ => SpendAllowed p row)
      (fun _ => Answered env) (fun _ _ _ _ => True)
      (crowd w₀ .start fun i => (calls i).request env token) := by
    intro i m hm
    cases hm
    exact spendCall_does henv hopen hsigned (calls i)
  refine hrun.invariant (I := fun P => SpendInv w₀ row P.world (spendRecords P))
    (fun P h i => h.rely i) (SpendInv.start hopen) horderly ?_ ?_
  · intro P i o k h _ _ _ hallow _
    obtain ⟨hothers, hnext, hstep⟩ := @spend_step env p row _ _ _ P.world hallow
    rw [spendRecords_act]
    exact h.step hothers hnext hstep
  · intro P i h _ _ _
    rw [spendRecords_cut]
    exact h

omit [DecidableEq ι] in
/-- A refresh that has answered with tokens has committed their session. -/
theorem Answered.of_result (h : Orderly (machine env spendNote) (SpendRely w₀ row)
    (fun _ => SpendAllowed p row) (fun _ => Answered env) (fun _ _ _ _ => True) P)
    {t : TokenResponse} (hresult : (P.thread i).result = some (some t)) :
    ∃ v, (P.thread i).seen = .renewed v ∧ NamesSession env t v :=
  h i _ (Thread.result_eq_some.mp hresult) t rfl

end Runs

namespace Logins

/-- Two refreshes with the token of the login. -/
def twice : Fin 2 → SpendCall := fun _ => .refresh { requestId := "r", tenantId := some 1 }

/-- The session that the login has stored is not used up. -/
theorem unspent_claims : ∃ row, Unspent answered.post claims row := by
  have hst := run.tokenStore tokenStore
  refine (run.onRecord platform_lawful tokenStore (fun _ _ _ h => h) _
    (List.mem_singleton_self _) claims issues_claims).unspent hst rfl ?_
  decide +kernel

end Logins

/-- The request has not found the session of the token unrevoked. -/
def SpendRecord.shut : SpendRecord → Prop
  | .start => True
  | .late => True
  | .ended => True
  | _ => False

theorem SpendStep.stays_spent {w w' : World} {q q' : SpendRecord} (h : SpendStep p row w w' q q')
    (hspent : q.spent) : q'.spent := by
  cases h with
  | quiet rows => exact hspent
  | leave unspent rows => exact absurd hspent unspent
  | _ => exact hspent.elim

/-- Once the session is revoked, whoever has not found it does not find it any more. -/
theorem SpendStep.stays_shut {w w' : World} {q q' : SpendRecord} (h : SpendStep p row w w' q q')
    (hshut : q.shut) (hrevoked : ∀ r ∈ w.db .userSessions, r.jti = p.jti → r.revokedAt ≠ none) :
    q'.shut := by
  cases h with
  | quiet rows => exact hshut
  | found mem jti live rows => exact absurd live (hrevoked _ mem jti)
  | missed rows => trivial
  | leave unspent rows => trivial
  | _ => exact hshut.elim

/-- **A token that was spent is refused**: from a state in which some request has committed, a
request that has not looked the session up yet neither commits nor gets tokens, whatever the
interleaving from there on. -/
theorem spent_token_refused (henv : env.Lawful) (hopen : Unspent w₀ p row)
    (hsigned : signed env token = some p) (calls : ι → SpendCall)
    {P P' : Crowd (Option TokenResponse) SpendRecord ι}
    (hrun : Reach (machine env spendNote) (fun _ _ _ => True)
      (crowd w₀ .start fun i => (calls i).request env token) P)
    (hlater : Reach (machine env spendNote) (fun _ _ _ => True) P P') {i j : ι}
    (hspent : (P.thread i).seen.spent) (hstart : (P.thread j).seen = .start) :
    ¬ (P'.thread j).seen.spent ∧ ∀ t, (P'.thread j).result ≠ some (some t) := by
  obtain ⟨hinv, horderly⟩ := spend_invariant henv hopen hsigned calls hrun
  have hshut : (P.thread j).seen.shut := by
    rw [hstart]
    trivial
  obtain ⟨⟨-, -, hshut⟩, horderly'⟩ := by
    refine hlater.invariant (G := SpendRely w₀ row)
      (I := fun P => SpendInv w₀ row P.world (spendRecords P) ∧ (spendRecords P i).spent ∧
        (spendRecords P j).shut)
      (fun P h i => h.1.rely i) ⟨hinv, hspent, hshut⟩ horderly ?_ ?_
    · intro P k o c h _ _ _ hallow _
      obtain ⟨hinv, hspent, hshut⟩ := h
      obtain ⟨hothers, hnext, hstep⟩ := @spend_step env p row _ _ _ P.world hallow
      have hrevoked : ∀ r ∈ P.world.db .userSessions, r.jti = p.jti → r.revokedAt ≠ none :=
        fun r hr hjti hlive =>
          ((hinv.kept r hr (.inr (hjti.trans hopen.jti.symm))).2.mp hlive) i hspent
      rw [spendRecords_act]
      refine ⟨hinv.step hothers hnext hstep, ?_, ?_⟩
      · exact kept_update hstep.stays_spent hspent
      · exact kept_update (fun hk => hstep.stays_shut hk hrevoked) hshut
    · intro P k h _ _ _
      rw [spendRecords_cut]
      exact h
  have hrecord : (P'.thread j).seen.shut := hshut
  refine ⟨fun hspent => ?_, fun t hresult => ?_⟩
  · cases hq : (P'.thread j).seen with
    | revoked => exact (hq ▸ hrecord).elim
    | renewed v => exact (hq ▸ hrecord).elim
    | _ => exact (hq ▸ hspent).elim
  · obtain ⟨v, hq, -⟩ := Answered.of_result horderly' hresult
    exact (hq ▸ hrecord).elim

open Logins in
/-- The second refresh comes after the first has committed. -/
theorem token_refused_after_refresh : ∃ P' : Crowd (Option TokenResponse) SpendRecord (Fin 2),
    (P'.thread 1).seen = .ended ∧ ¬ (P'.thread 1).seen.spent ∧
      ∀ t, (P'.thread 1).result ≠ some (some t) := by
  obtain ⟨P, hrun, hzero, hone, hplay⟩ : ∃ P, Reach (machine platform spendNote)
      (fun _ _ _ => True)
      (crowd answered.post .start fun i => (twice i).request platform tokens.refreshToken) P ∧
      ((P.thread 0).result.bind id).isSome = true ∧ (P.thread 1).seen = .start ∧
      (P.play (machine platform spendNote) (fun _ _ _ => True) (List.replicate 7 1)).any
        (fun P' => decide ((P'.thread 1).seen = .ended)) = true :=
    Reach.of_play (List.replicate 22 0) (by decide +kernel)
  obtain ⟨P', hplayed, hended⟩ := (Option.any_eq_true _ _).mp hplay
  obtain ⟨row, hopen⟩ := unspent_claims
  obtain ⟨t, ht⟩ := Option.isSome_iff_exists.mp hzero
  obtain ⟨_, ht, rfl⟩ := Option.bind_eq_some_iff.mp ht
  obtain ⟨v, hv, -⟩ := Answered.of_result
    (spend_invariant platform_lawful hopen signed_refreshToken twice hrun).2 ht
  have hspent : (P.thread 0).seen.spent := by
    rw [hv]
    trivial
  exact ⟨P', of_decide_eq_true hended, spent_token_refused platform_lawful hopen
    signed_refreshToken twice hrun (Reach.start.play _ hplayed) hspent hone⟩

end LmsBackend
