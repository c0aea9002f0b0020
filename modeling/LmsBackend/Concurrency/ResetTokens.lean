import LmsBackend.Concurrency.AuthSteps
import LmsBackend.Core.Platform

/-!
# Password-reset tokens under concurrency

Any number of `reset_password` requests that carry one token, interleaved. The token is
looked up before the password is written and deleted after it, and its store, Redis or the
process's dictionary, is not part of the transaction.

- `resetSlot`: what the store keeps for the token, whichever store it is.
- `ResetRecord`: how far a request has come.
- `ResetStep`: what one operation of a request does to the slot and to its record.
- `OneHolder`: a request commits only while no other one holds the token's value, and none
  is cut off between the deletion of the token and its commit.
- `reset_consumed_once`: then at most one request changes the password, and until one does
  the token stays usable.
- `reset_token_reused`: without it, two requests do; and a token can be lost.
-/

namespace LmsBackend

open Mvcc Interleave

variable {env : Env} {ι : Type} [DecidableEq ι] {token : String}

/-! ## The token's slot -/

/-- What the store keeps for a token: the value, and the expiry that the code itself
compares (Redis compares its own). -/
def resetSlot (env : Env) (w : World) (token : String) : Option (String × Option Time) :=
  if env.settings.hasRedis then
    match w.redis (.reset token) with
    | some ⟨.text value, _⟩ => some (value, none)
    | _ => none
  else (w.resetStore token).map fun x => (x.1, some x.2)

/-- How far a request has come: it has read the token's entry but not yet compared its
expiry, has found it expired, holds its value, has deleted it, has committed the new
password, or has ended otherwise. -/
inductive ResetRecord
  | start
  | peeked (value : String) (expires : Time)
  | expired (value : String) (expires now : Time)
  | found (value : String)
  | deleted
  | changed
  | ended
  deriving DecidableEq

/-- The transaction writes the row of a user. -/
def writesUser (tx : Tx) : Prop := ∃ x ∈ tx.writes, x.table = .users

instance (tx : Tx) : Decidable (writesUser tx) :=
  inferInstanceAs (Decidable (∃ x ∈ tx.writes, x.table = .users))

/-- What an operation changes in a request's record. A request changes the password when it
commits a transaction that writes the row of a user. -/
def resetNote : Note ResetRecord
  | .start, _, .redisGet _, some (.text value) => .found value
  | .start, _, .resetGet _, some (value, expires) => .peeked value expires
  | .peeked value expires, _, .now, now =>
    if expires < now then .expired value expires now else .found value
  | .found _, _, .redisDelete _, _ => .deleted
  | .found _, _, .resetDelete _, _ => .deleted
  | _, tx :: _, .db .commit, _ => if writesUser tx then .changed else .ended
  | _, _, .db .rollback, _ => .ended
  | q, _, _, _ => q

/-- The request has deleted the token, or committed after it. -/
def ResetRecord.spent : ResetRecord → Prop
  | .deleted => True
  | .changed => True
  | _ => False

theorem ResetRecord.spent_iff {q : ResetRecord} : q.spent ↔ q = .deleted ∨ q = .changed := by
  constructor
  · intro h
    cases q with
    | deleted => exact .inl rfl
    | changed => exact .inr rfl
    | _ => exact h.elim
  · rintro (rfl | rfl) <;> trivial

/-- The request holds what may still be a valid value of the token. -/
def ResetRecord.holds : ResetRecord → Prop
  | .peeked _ _ => True
  | .found _ => True
  | .deleted => True
  | _ => False

instance (q : ResetRecord) : Decidable q.holds := by
  unfold ResetRecord.holds
  split <;> infer_instance

/-- A request commits only while no other one holds the token's value, and no request is
cut off between its deletion of the token and its commit. -/
def OneHolder (P : Crowd Unit ResetRecord ι) (i : ι) : Option Op → Prop
  | some (.db .commit) => ∀ j, j ≠ i → (P.thread j).prog ≠ none → ¬ (P.thread j).seen.holds
  | none => (P.thread i).seen ≠ .deleted
  | _ => True

omit [DecidableEq ι] in
theorem oneHolder_iff {P : Crowd Unit ResetRecord ι} {i : ι} {o : Option Op} :
    ((o.isNone = true → (P.thread i).seen ≠ .deleted) ∧
      (commits o = true → ∀ j, j ≠ i → (P.thread j).prog ≠ none → ¬ (P.thread j).seen.holds)) ↔
      OneHolder P i o := by
  rcases o with _ | _ | _ <;> simp [commits, OneHolder]
  rename_i o
  cases o <;> simp [commits, OneHolder]

instance [Fintype ι] (P : Crowd Unit ResetRecord ι) (i : ι) (o : Option Op) :
    Decidable (OneHolder P i o) :=
  decidable_of_iff _ oneHolder_iff

/-- One `reset_password` request behind the middleware. -/
def resetRequest (env : Env) (token : String) (r : RequestContext × String) : M Unit :=
  getDb env (some r.1) fun s => resetPassword env r.1 s token r.2

/-! ## What a request does -/

/-- The operations of a request, by what it has done before. -/
def ResetAllowed (env : Env) (token : String) (q : ResetRecord) (l : List Tx) : Op → Prop
  | .db .commit => q = .deleted ∧ ∃ tx, l = [tx] ∧ writesUser tx
  | .db .rollback => ¬ q.spent
  | .db _ => True
  | .now => True
  | .draw => True
  | .redisGet k => env.settings.hasRedis = true ∧ k = .reset token ∧ q = .start
  | .resetGet t => env.settings.hasRedis = false ∧ t = token ∧ q = .start
  | .redisDelete k => env.settings.hasRedis = true ∧ k = .reset token ∧ ∃ value, q = .found value
  | .resetDelete t => env.settings.hasRedis = false ∧ t = token ∧
    ((∃ value, q = .found value) ∨ ∃ value expires now, q = .expired value expires now)
  | _ => False

section Requests

/-- What a `reset_password` request does in any company. -/
abbrev Resets (env : Env) (token : String) {α : Type} (Q : ResetRecord → List Tx → α → Prop)
    (q : ResetRecord) (l : List Tx) (p : M α) : Prop :=
  Does env resetNote (fun _ _ => True) (ResetAllowed env token) Q
    (fun q l _ => ¬ q.spent ∧ ∃ tx, l = [tx]) q l p

variable {α : Type} {Q : ResetRecord → List Tx → α → Prop} {q : ResetRecord} {l : List Tx}

theorem reset_starts : Does.Starts resetNote (ResetAllowed env token) .start where
  begin l := ⟨trivial, fun _ => by cases l <;> rfl⟩
  now l := ⟨trivial, fun _ => by cases l <;> rfl⟩
  set l f := ⟨trivial, fun _ => by cases l <;> rfl⟩

theorem reset_reads : Does.Reads resetNote (ResetAllowed env token) q where
  select l t p := ⟨trivial, fun _ => by cases q <;> cases l <;> rfl⟩
  join l t₁ t₂ p := ⟨trivial, fun _ => by cases q <;> cases l <;> rfl⟩

/-- The lookup finds the value of the token, finds it expired, or finds nothing. -/
theorem lookupReset_does {tx : Tx} {f : Option String → M α}
    (hfound : ∀ value, Resets env token Q (.found value) [tx] (f (some value)))
    (hnone : ∀ q, ¬ q.spent → Resets env token Q q [tx] (f none)) :
    Resets env token Q .start [tx] (lookupReset env token >>= f) := by
  unfold lookupReset
  by_cases hredis : env.settings.hasRedis = true
  · rw [if_pos hredis, bind_assoc]
    refine Does.op ⟨hredis, rfl, rfl⟩ fun w answer w' l' _ hexec => ?_
    obtain rfl : [tx] = l' := congrArg (fun x => x.2.2) hexec
    cases answer with
    | none => exact hnone .start id
    | some v =>
      cases v with
      | text value => exact hfound value
      | uuid u => exact hnone .start id
      | codes cs => exact hnone .start id
      | count n => exact hnone .start id
  · have hmemory : env.settings.hasRedis = false := Bool.eq_false_iff.mpr hredis
    rw [if_neg hredis]
    unfold getReset
    rw [bind_assoc]
    refine Does.op ⟨hmemory, rfl, rfl⟩ fun w answer w' l' _ hexec => ?_
    obtain rfl : [tx] = l' := congrArg (fun x => x.2.2) hexec
    cases answer with
    | none => exact hnone .start id
    | some entry =>
      obtain ⟨value, expires⟩ := entry
      refine Does.op trivial fun w₁ now w' l' _ hexec => ?_
      obtain rfl : [tx] = l' := congrArg (fun x => x.2.2) hexec
      show Resets env token Q
        (if expires < now then .expired value expires now else .found value) [tx]
        ((if expires < now then perform (.resetDelete token) >>= fun _ => pure none
          else pure (some value)) >>= f)
      by_cases hlate : expires < now
      · rw [if_pos hlate, if_pos hlate]
        exact ⟨⟨hmemory, rfl, .inr ⟨_, _, _, rfl⟩⟩, fun _ _ => hnone _ id⟩
      · rw [if_neg hlate, if_neg hlate]
        exact hfound value

/-- The bulk revocation goes row by row. -/
theorem revokeAll_does {tx : Tx} {s : Session} {userId : Uuid} {value : String} {f : Unit → M α}
    (hp : tx.pending = []) (hw : writesUser tx)
    (h : ∀ tx : Tx, tx.pending = [] → writesUser tx →
      Resets env token Q (.found value) [tx] (f ())) :
    Resets env token Q (.found value) [tx] (revokeAllForUser s userId >>= f) := by
  unfold revokeAllForUser
  rw [bind_assoc]
  refine Does.query reset_reads fun rows => ?_
  have hloop : Does env resetNote (fun _ _ => True) (ResetAllowed env token)
      (fun q l _ => q = .found value ∧ ∃ tx, l = [tx] ∧ tx.pending = [] ∧ writesUser tx)
      (fun q l _ => ¬ q.spent ∧ ∃ tx, l = [tx]) (.found value) [tx]
      (Prog.forEach rows (revokeRow s userId)) := by
    refine Follows.forEach ⟨rfl, tx, rfl, hp, hw⟩ ?_
    rintro row - q l ⟨rfl, tx, rfl, hp, hw⟩
    rw [← bind_pure (revokeRow s userId row)]
    refine Does.revokeRow (fun _ _ => ⟨trivial, fun _ => rfl⟩) (fun tx' hp' hws => ?_)
      fun _ => ⟨id, _, rfl⟩
    obtain ⟨ws, hws, -⟩ := hws
    obtain ⟨x, hx, hxt⟩ := hw
    exact ⟨rfl, tx', rfl, hp'.trans hp, x, hws ▸ List.mem_append_left ws hx, hxt⟩
  refine hloop.bind ?_
  rintro q l - ⟨rfl, tx, rfl, hp, hw⟩
  exact h tx hp hw

/-- The request has deleted the token and will commit the new password. -/
def Consumed (q : ResetRecord) (l : List Tx) (_ : Unit) : Prop :=
  q = .deleted ∧ ∃ tx, l = [tx] ∧ tx.pending = [] ∧ writesUser tx

theorem reset_raise {tx : Tx} {e : Err} (hq : ¬ q.spent) :
    Resets env token Q q [tx] (.raise e : M α) := ⟨hq, tx, rfl⟩

theorem uuidOf_does {tx : Tx} {text : String} {f : Uuid → M α} (hq : ¬ q.spent)
    (h : ∀ u, Resets env token Q q [tx] (f u)) :
    Resets env token Q q [tx] (uuidOf text >>= f) := by
  unfold uuidOf
  cases parseUuid text with
  | none => exact reset_raise hq
  | some u => exact h u

theorem requireTenantId_does {tx : Tx} {rc : RequestContext} {f : Uuid → M α} (hq : ¬ q.spent)
    (h : ∀ tid, Resets env token Q q [tx] (f tid)) :
    Resets env token Q q [tx] (requireTenantId rc >>= f) := by
  unfold requireTenantId
  cases rc.tenantId with
  | none => exact reset_raise hq
  | some tid => exact h tid

theorem deleteReset_does {tx : Tx} {value : String} (hp : tx.pending = []) (hw : writesUser tx) :
    Resets env token Consumed (.found value) [tx] (deleteReset env token) := by
  unfold deleteReset
  by_cases hredis : env.settings.hasRedis = true
  · rw [if_pos hredis]
    exact ⟨⟨hredis, rfl, value, rfl⟩, fun _ _ => ⟨rfl, tx, rfl, hp, hw⟩⟩
  · rw [if_neg hredis]
    exact ⟨⟨Bool.eq_false_iff.mpr hredis, rfl, .inl ⟨value, rfl⟩⟩,
      fun _ _ => ⟨rfl, tx, rfl, hp, hw⟩⟩

/-- A request that holds the token's value writes the password of the user it finds, revokes
the sessions and deletes the token, or raises before the deletion. -/
theorem resetPassword_does {rc : RequestContext} {s : Session} {newPassword : String} {tx : Tx}
    (hp : tx.pending = []) :
    Resets env token Consumed .start [tx] (resetPassword env rc s token newPassword) := by
  unfold resetPassword
  refine lookupReset_does (fun value => ?_) fun q hq => ?_
  · have hq : ¬ (ResetRecord.found value).spent := id
    cases truthy (some value) with
    | none => exact reset_raise hq
    | some raw =>
      dsimp only
      refine uuidOf_does hq fun tid => ?_
      refine requireTenantId_does hq fun tid' => ?_
      by_cases hne : tid ≠ tid'
      · rw [if_pos hne]
        exact reset_raise hq
      · rw [if_neg hne]
        refine uuidOf_does hq fun id => ?_
        refine Does.getUser reset_reads ⟨hq, tx, rfl⟩ fun u => ?_
        cases u with
        | none => exact reset_raise hq
        | some user =>
          unfold hashPassword
          dsimp only
          rw [bind_assoc]
          refine Does.op trivial fun w draw w' l' _ hexec => ?_
          cases hexec
          refine Does.updateRow trivial (fun w old _ _ _ => ?_) fun _ _ _ _ _ => ⟨hq, tx, rfl⟩
          refine revokeAll_does hp ⟨_, List.mem_append_right _ (List.mem_singleton_self _), rfl⟩
            fun tx' hp' hw' => ?_
          exact deleteReset_does hp' hw'
  · have hempty : truthy none = none := by
      unfold truthy
      rfl
    rw [hempty]
    exact reset_raise hq

/-- What a request does, from its start to its end. -/
theorem resetRequest_does (r : RequestContext × String) :
    Does env resetNote (fun _ _ => True) (ResetAllowed env token) (fun _ _ _ => True)
      (fun _ _ _ => True) .start [] (resetRequest env token r) := by
  rw [resetRequest, ← bind_pure (getDb env (some r.1) fun s => resetPassword env r.1 s token r.2)]
  refine Does.getDb reset_starts (fun s => resetPassword_does rfl) ?_ ?_
  · rintro q l _ ⟨rfl, tx, rfl, hp, hw⟩
    exact Does.commitSession_nil hp ⟨trivial, fun _ => rfl⟩ ⟨rfl, tx, rfl, hw⟩ trivial
  · rintro q l e ⟨hq, tx, rfl⟩
    exact Does.rollback hq trivial

end Requests

/-! ## What a step does to the token -/

/-- What one operation `o` of a request does to the token's slot and to the request's
record, which was `q` and is `q'`. -/
inductive ResetStep (env : Env) (token : String) (w w' : World) :
    Op → ResetRecord → ResetRecord → Prop
  | quiet {o : Op} {q : ResetRecord} (kept : resetSlot env w' token = resetSlot env w token) :
      ResetStep env token w w' o q q
  | lookup {o : Op} {value : String} {expires : Option Time}
      (hit : resetSlot env w token = some (value, expires))
      (kept : resetSlot env w' token = resetSlot env w token) :
      ResetStep env token w w' o .start (.found value)
  | peek {o : Op} {value : String} {expires : Time}
      (hit : resetSlot env w token = some (value, some expires))
      (kept : resetSlot env w' token = resetSlot env w token) :
      ResetStep env token w w' o .start (.peeked value expires)
  | fresh {o : Op} {value : String} {expires : Time}
      (kept : resetSlot env w' token = resetSlot env w token) :
      ResetStep env token w w' o (.peeked value expires) (.found value)
  | late {o : Op} {value : String} {expires now : Time} (late : expires < now)
      (reached : now ≤ env.clock w'.ticks)
      (kept : resetSlot env w' token = resetSlot env w token) :
      ResetStep env token w w' o (.peeked value expires) (.expired value expires now)
  | delete {o : Op} {value : String} (gone : resetSlot env w' token = none) :
      ResetStep env token w w' o (.found value) .deleted
  | purge {o : Op} {value : String} {expires now : Time} (gone : resetSlot env w' token = none) :
      ResetStep env token w w' o (.expired value expires now) (.expired value expires now)
  | commit (kept : resetSlot env w' token = resetSlot env w token) :
      ResetStep env token w w' (.db .commit) .deleted .changed
  | rollback {o : Op} {q : ResetRecord} (before : ¬ q.spent)
      (kept : resetSlot env w' token = resetSlot env w token) :
      ResetStep env token w w' o q .ended

theorem ResetStep.unnoted {w w' : World} {o : Op} {q q' : ResetRecord} (hq : q' = q)
    (kept : resetSlot env w' token = resetSlot env w token) :
    ResetStep env token w w' o q q' := by
  rw [hq]
  exact .quiet kept

/-- The slot depends on the two stores. -/
theorem resetSlot_congr {w w' : World} (hredis : w'.redis = w.redis)
    (hmemory : w'.resetStore = w.resetStore) :
    resetSlot env w' token = resetSlot env w token := by
  unfold resetSlot
  rw [hredis, hmemory]

/-- Statements other than the last one leave the record. -/
theorem resetNote_kept {q : ResetRecord} {l : List Tx} {o : Mvcc.Op Row (List Uuid) Guc}
    {a : (Op.db o).Ans} (hc : o ≠ .commit) (hr : o ≠ .rollback) :
    resetNote q l (.db o) a = q := by
  cases o with
  | commit => exact absurd rfl hc
  | rollback => exact absurd rfl hr
  | _ => cases q <;> cases l <;> rfl

/-- **One step**: what an allowed operation does. -/
theorem reset_step (henv : env.Lawful) {q : ResetRecord} {l : List Tx} {o : Op} {w : World}
    (hallow : ResetAllowed env token q l o) :
    w.ticks ≤ (exec env o (w, l)).2.1.ticks ∧
      ResetStep env token w (exec env o (w, l)).2.1 o q
        (resetNote q l o (exec env o (w, l)).1) := by
  cases o with
  | db o =>
    cases o with
    | commit =>
      obtain ⟨rfl, tx, rfl, hw⟩ := hallow
      have hnote : resetNote .deleted [tx] (.db .commit) () = .changed := if_pos hw
      exact ⟨le_refl _, hnote ▸ .commit (resetSlot_congr rfl rfl)⟩
    | rollback =>
      have hworld : (exec env (.db .rollback) (w, l)).2.1 = w := exec_db_world (by rintro ⟨⟩) w l
      have hnote : ∀ a, resetNote q l (.db .rollback) a = .ended := by
        intro a
        cases q <;> cases l <;> rfl
      rw [hworld, hnote]
      exact ⟨le_refl _, .rollback hallow rfl⟩
    | _ =>
      rw [exec_db_world (by rintro ⟨⟩)]
      rw [resetNote_kept (by rintro ⟨⟩) (by rintro ⟨⟩)]
      exact ⟨le_refl _, .quiet rfl⟩
  | now =>
    refine ⟨Nat.le_succ _, ?_⟩
    have hkept : resetSlot env (exec env .now (w, l)).2.1 token = resetSlot env w token :=
      resetSlot_congr rfl rfl
    by_cases hpeeked : ∃ value expires, q = .peeked value expires
    · obtain ⟨value, expires, rfl⟩ := hpeeked
      show ResetStep env token w _ .now _ (if expires < env.clock w.ticks then
        .expired value expires (env.clock w.ticks) else .found value)
      by_cases hlate : expires < env.clock w.ticks
      · rw [if_pos hlate]
        exact .late hlate (henv.clock_mono _ _ (Nat.le_succ _)) hkept
      · rw [if_neg hlate]
        exact .fresh hkept
    · have hnote : resetNote q l .now (env.clock w.ticks) = q := by
        cases q with
        | peeked value expires => exact absurd ⟨value, expires, rfl⟩ hpeeked
        | _ => cases l <;> rfl
      exact .unnoted hnote hkept
  | draw =>
    have hnote : resetNote q l .draw w.draws = q := by cases q <;> cases l <;> rfl
    exact ⟨le_refl _, .unnoted hnote (resetSlot_congr rfl rfl)⟩
  | redisGet k =>
    obtain ⟨hredis, rfl, rfl⟩ := hallow
    refine ⟨le_refl _, ?_⟩
    show ResetStep env token w w _ .start (resetNote .start l (.redisGet (.reset token))
      ((w.redisAt (env.clock w.ticks) (.reset token)).map (·.value)))
    cases hentry : w.redisAt (env.clock w.ticks) (.reset token) with
    | none => exact .quiet rfl
    | some entry =>
      have hstored := (Option.filter_eq_some_iff.mp hentry).1
      obtain ⟨v, expires⟩ := entry
      cases v with
      | text value =>
        refine @ResetStep.lookup env token w w _ value none ?_ rfl
        unfold resetSlot
        rw [if_pos hredis, hstored]
      | uuid u => exact .quiet rfl
      | codes cs => exact .quiet rfl
      | count n => exact .quiet rfl
  | resetGet t =>
    obtain ⟨hmemory, rfl, rfl⟩ := hallow
    refine ⟨le_refl _, ?_⟩
    show ResetStep env t w w _ .start (resetNote .start l (.resetGet t) (w.resetStore t))
    cases hentry : w.resetStore t with
    | none => exact .quiet rfl
    | some entry =>
      refine .peek ?_ rfl
      unfold resetSlot
      rw [if_neg (Bool.eq_false_iff.mp hmemory), hentry]
      rfl
  | redisDelete k =>
    obtain ⟨hredis, rfl, value, rfl⟩ := hallow
    refine ⟨le_refl _, .delete ?_⟩
    unfold resetSlot
    rw [if_pos hredis]
    have hnone : (exec env (.redisDelete (.reset token)) (w, l)).2.1.redis (.reset token) = none :=
      Function.update_self _ _ _
    rw [hnone]
  | resetDelete t =>
    obtain ⟨hmemory, rfl, hread⟩ := hallow
    have hgone : resetSlot env (exec env (.resetDelete t) (w, l)).2.1 t = none := by
      have hnone : (exec env (.resetDelete t) (w, l)).2.1.resetStore t = none :=
        Function.update_self _ _ _
      unfold resetSlot
      rw [if_neg (Bool.eq_false_iff.mp hmemory), hnone]
      rfl
    refine ⟨le_refl _, ?_⟩
    rcases hread with ⟨value, rfl⟩ | ⟨value, expires, now, rfl⟩
    · exact .delete hgone
    · cases l with
      | nil => exact .purge hgone
      | cons tx l => exact .purge hgone
  | _ => exact hallow.elim

/-! ## Every state of a run -/

/-- The token's entry is what it was in `w₀`, or its time to live is over. -/
def StillUsable (env : Env) (token : String) (w₀ w : World) : Prop :=
  resetSlot env w token = resetSlot env w₀ token ∨
    ∃ value expires, resetSlot env w₀ token = some (value, some expires) ∧
      expires < env.clock w.ticks

/-- What a live request's record says about the slot at the start and now. -/
def ResetRecord.Agrees (env : Env) (token : String) (w₀ w : World) : ResetRecord → Prop
  | .peeked value expires => resetSlot env w₀ token = some (value, some expires)
  | .expired value expires now => resetSlot env w₀ token = some (value, some expires) ∧
    expires < now ∧ now ≤ env.clock w.ticks
  | .deleted => resetSlot env w token = none
  | _ => True

/-- The token is usable until a request has deleted it; once a request has committed, the
token is gone, no live request holds its value, and no other has committed. -/
structure ResetInv (env : Env) (token : String) (w₀ : World) (P : Crowd Unit ResetRecord ι) :
    Prop where
  slot : resetSlot env P.world token = resetSlot env w₀ token ∨ resetSlot env P.world token = none
  agrees : ∀ i, (P.thread i).prog ≠ none → (P.thread i).seen.Agrees env token w₀ P.world
  gone : ∀ i, (P.thread i).seen = .changed → resetSlot env P.world token = none
  closed : ∀ i, (P.thread i).seen = .changed →
    ∀ j, (P.thread j).prog ≠ none → ¬ (P.thread j).seen.holds
  once : ∀ i j, (P.thread i).seen = .changed → (P.thread j).seen = .changed → i = j
  kept : StillUsable env token w₀ P.world ∨
    ∃ i, (P.thread i).seen = .changed ∨ (P.thread i).prog ≠ none ∧ (P.thread i).seen.spent

section Runs

variable {w₀ : World} {P : Crowd Unit ResetRecord ι}

theorem StillUsable.later (henv : env.Lawful) {w w' : World} (hticks : w.ticks ≤ w'.ticks)
    (hslot : resetSlot env w' token = resetSlot env w token) (h : StillUsable env token w₀ w) :
    StillUsable env token w₀ w' := by
  rcases h with hsame | ⟨value, expires, hstart, hlate⟩
  · exact .inl (hslot.trans hsame)
  · exact .inr ⟨value, expires, hstart, hlate.trans_le (henv.clock_mono _ _ hticks)⟩

theorem ResetRecord.Agrees.later (henv : env.Lawful) {w w' : World} {q : ResetRecord}
    (hticks : w.ticks ≤ w'.ticks)
    (hslot : resetSlot env w' token = resetSlot env w token ∨ resetSlot env w' token = none)
    (h : q.Agrees env token w₀ w) : q.Agrees env token w₀ w' := by
  cases q with
  | expired value expires now =>
    exact ⟨h.1, h.2.1, h.2.2.trans (henv.clock_mono _ _ hticks)⟩
  | deleted => exact hslot.elim (fun hsame => hsame.trans h) id
  | peeked value expires => exact h
  | start => trivial
  | found value => trivial
  | changed => trivial
  | ended => trivial

/-- The invariant after a step, from what the step did to the slot and to the record. -/
theorem ResetInv.act_of (henv : env.Lawful) {i : ι} {o : Op} {k : o.Ans → M Unit} {w' : World}
    {q q' : ResetRecord} (h : ResetInv env token w₀ P)
    (hlive : (P.thread i).prog ≠ none) (hq : (P.thread i).seen = q)
    (hworld : (P.act (machine env resetNote) i o k).world = w')
    (hseen : ((P.act (machine env resetNote) i o k).thread i).seen = q')
    (hticks : P.world.ticks ≤ w'.ticks)
    (hslot : resetSlot env w' token = resetSlot env P.world token ∨ resetSlot env w' token = none)
    (hself : q'.Agrees env token w₀ w')
    (hholds : q'.holds → q.holds ∨ resetSlot env P.world token ≠ none)
    (hchanged : q' = .changed → q = .changed ∨ q = .deleted ∧
      ∀ j, j ≠ i → (P.thread j).prog ≠ none → ¬ (P.thread j).seen.holds)
    (hkept : q'.spent ∨ StillUsable env token w₀ w' ∨ ¬ q.spent ∧
      resetSlot env w' token = resetSlot env P.world token) :
    ResetInv env token w₀ (P.act (machine env resetNote) i o k) := by
  have hother : ∀ j, j ≠ i → (P.act (machine env resetNote) i o k).thread j = P.thread j :=
    fun j hj => Pool.act_other hj
  have hlive' : ((P.act (machine env resetNote) i o k).thread i).prog ≠ none := by
    rw [Pool.act_self]
    exact Option.some_ne_none _
  have hagrees := h.agrees i hlive
  rw [hq] at hagrees
  have hgone : resetSlot env P.world token = none → resetSlot env w' token = none := by
    intro hnone
    exact hslot.elim (fun hsame => hsame.trans hnone) id
  refine ⟨?_, fun j hj => ?_, fun j hj => ?_, fun a ha b hb hholds' => ?_, fun a b ha hb => ?_, ?_⟩
  · rw [hworld]
    rcases hslot with hsame | hnone
    · rw [hsame]
      exact h.slot
    · exact .inr hnone
  · rw [hworld]
    by_cases hij : j = i
    · rw [hij, hseen]
      exact hself
    · rw [hother j hij] at hj ⊢
      exact (h.agrees j hj).later henv hticks hslot
  · rw [hworld]
    by_cases hij : j = i
    · rw [hij, hseen] at hj
      rcases hchanged hj with hq' | ⟨hq', -⟩
      · exact hgone (h.gone i (hq.trans hq'))
      · rw [hq'] at hagrees
        exact hgone hagrees
    · rw [hother j hij] at hj
      exact hgone (h.gone j hj)
  · -- a request that now holds the value held it before or has just found it
    by_cases hai : a = i
    · rw [hai, hseen] at ha
      by_cases hbi : b = i
      · rw [hbi, hseen, ha] at hholds'
        exact hholds'
      · rw [hother b hbi] at hb hholds'
        rcases hchanged ha with hq' | ⟨-, halone⟩
        · exact h.closed i (hq.trans hq') b hb hholds'
        · exact halone b hbi hb hholds'
    · rw [hother a hai] at ha
      by_cases hbi : b = i
      · rw [hbi, hseen] at hholds'
        rcases hholds hholds' with hbefore | hhit
        · exact h.closed a ha i hlive (hq ▸ hbefore)
        · exact hhit (h.gone a ha)
      · rw [hother b hbi] at hb hholds'
        exact h.closed a ha b hb hholds'
  · have hone : ∀ c, c ≠ i → q' = .changed → (P.thread c).seen = .changed → i = c := by
      intro c hci hq' hc
      rcases hchanged hq' with hbefore | ⟨hbefore, -⟩
      · exact h.once i c (hq.trans hbefore) hc
      · exact absurd (hq.trans hbefore ▸ trivial) (h.closed c hc i hlive)
    by_cases hai : a = i
    · by_cases hbi : b = i
      · exact hai.trans hbi.symm
      · rw [hai, hseen] at ha
        rw [hother b hbi] at hb
        exact hai.trans (hone b hbi ha hb)
    · rw [hother a hai] at ha
      by_cases hbi : b = i
      · rw [hbi, hseen] at hb
        exact (hbi.trans (hone a hai hb ha)).symm
      · rw [hother b hbi] at hb
        exact h.once a b ha hb
  · rcases hkept with hspent | husable | ⟨hopen, hsame⟩
    · exact .inr ⟨i, .inr ⟨hlive', hseen ▸ hspent⟩⟩
    · exact .inl (hworld ▸ husable)
    · rcases h.kept with husable | ⟨j, hj⟩
      · exact .inl (hworld ▸ husable.later henv hticks hsame)
      · have hji : j ≠ i := by
          rintro rfl
          rcases hj with hj | ⟨-, hj⟩
          · rw [hj] at hq
            exact hopen (hq ▸ trivial)
          · exact hopen (hq ▸ hj)
        exact .inr ⟨j, (hother j hji).symm ▸ hj⟩

/-- **One step** of a request keeps the invariant. -/
theorem ResetInv.act (henv : env.Lawful) {i : ι} {o : Op} {k : o.Ans → M Unit}
    (h : ResetInv env token w₀ P) (hok : OneHolder P i (some o))
    (hprog : (P.thread i).prog = some (.call o k))
    (hallow : ResetAllowed env token (P.thread i).seen (P.thread i).loc o) :
    ResetInv env token w₀ (P.act (machine env resetNote) i o k) := by
  have hlive : (P.thread i).prog ≠ none := by
    rw [hprog]
    exact Option.some_ne_none _
  have hseen : ((P.act (machine env resetNote) i o k).thread i).seen =
      resetNote (P.thread i).seen (P.thread i).loc o
        (exec env o (P.world, (P.thread i).loc)).1 :=
    congrArg Thread.seen Pool.act_self
  have hagrees := h.agrees i hlive
  obtain ⟨hticks, hstep⟩ := reset_step henv (w := P.world) hallow
  have hwhole := fun q q' => @ResetInv.act_of env ι _ token w₀ P henv i o k
    (exec env o (P.world, (P.thread i).loc)).2.1 q q' h hlive
  generalize hq : (P.thread i).seen = q at hstep hseen hagrees
  generalize hq' : resetNote q (P.thread i).loc o
    (exec env o (P.world, (P.thread i).loc)).1 = q' at hstep hseen
  replace hwhole := hwhole q q' hq rfl hseen hticks
  -- what the slot had at the start, if it has anything now
  have hstart : ∀ {x}, resetSlot env P.world token = some x → resetSlot env w₀ token = some x := by
    intro x hx
    rcases h.slot with hsame | hnone
    · exact hsame.symm.trans hx
    · cases hnone.symm.trans hx
  have hpresent : ∀ {x}, resetSlot env P.world token = some x →
      resetSlot env P.world token ≠ none := by
    intro x hx hnone
    cases hx.symm.trans hnone
  cases hstep with
  | quiet kept =>
    refine hwhole (.inl kept) (hagrees.later henv hticks (.inl kept)) .inl .inl ?_
    by_cases hspent : q.spent
    · exact .inl hspent
    · exact .inr (.inr ⟨hspent, kept⟩)
  | lookup hit kept =>
    exact hwhole (.inl kept) trivial (fun _ => .inr (hpresent hit)) (by rintro ⟨⟩)
      (.inr (.inr ⟨id, kept⟩))
  | peek hit kept =>
    exact hwhole (.inl kept) (hstart hit) (fun _ => .inr (hpresent hit)) (by rintro ⟨⟩)
      (.inr (.inr ⟨id, kept⟩))
  | fresh kept =>
    exact hwhole (.inl kept) trivial (fun _ => .inl trivial) (by rintro ⟨⟩)
      (.inr (.inr ⟨id, kept⟩))
  | late late reached kept =>
    exact hwhole (.inl kept) ⟨hagrees, late, reached⟩ False.elim (by rintro ⟨⟩)
      (.inr (.inr ⟨id, kept⟩))
  | delete gone =>
    exact hwhole (.inr gone) gone (fun _ => .inl trivial) (by rintro ⟨⟩) (.inl trivial)
  | purge gone =>
    refine hwhole (.inr gone) (ResetRecord.Agrees.later henv hticks (.inr gone) hagrees) False.elim
      (by rintro ⟨⟩) (.inr (.inl (.inr ⟨_, _, hagrees.1, ?_⟩)))
    exact (hagrees.2.1.trans_le hagrees.2.2).trans_le (henv.clock_mono _ _ hticks)
  | commit kept =>
    exact hwhole (.inl kept) trivial False.elim (fun _ => .inr ⟨rfl, hok⟩) (.inl trivial)
  | rollback before kept =>
    exact hwhole (.inl kept) trivial False.elim (by rintro ⟨⟩) (.inr (.inr ⟨before, kept⟩))

theorem ResetInv.cut {i : ι} (h : ResetInv env token w₀ P) (hok : OneHolder P i none)
    (hrunning : (P.thread i).running) :
    ResetInv env token w₀ (P.cut (machine env resetNote) i) := by
  have hseen : ∀ j, ((P.cut (machine env resetNote) i).thread j).seen = (P.thread j).seen := by
    intro j
    by_cases hij : j = i
    · rw [hij, Pool.cut_self]
    · rw [Pool.cut_other hij]
  have hlive : ∀ j, ((P.cut (machine env resetNote) i).thread j).prog ≠ none →
      (P.thread j).prog ≠ none := by
    intro j hj
    by_cases hij : j = i
    · rw [hij, Pool.cut_self] at hj
      exact absurd rfl hj
    · rw [Pool.cut_other hij] at hj
      exact hj
  refine ⟨h.slot, fun j hj => ?_, fun j hj => ?_, fun a ha b hb => ?_, fun a b ha hb => ?_, ?_⟩
  · rw [hseen]
    exact h.agrees j (hlive j hj)
  · rw [hseen] at hj
    exact h.gone j hj
  · rw [hseen] at ha ⊢
    exact h.closed a ha b (hlive b hb)
  · rw [hseen] at ha hb
    exact h.once a b ha hb
  · rcases h.kept with husable | ⟨j, hj⟩
    · exact .inl husable
    · by_cases hij : j = i
      · -- the request that was cut off had not deleted the token, so it had committed
        subst hij
        rcases hj with hj | ⟨-, hj⟩
        · exact .inr ⟨j, .inl ((hseen j).trans hj)⟩
        · rcases ResetRecord.spent_iff.mp hj with hq | hq
          · exact absurd hq hok
          · exact .inr ⟨j, .inl ((hseen j).trans hq)⟩
      · refine .inr ⟨j, ?_⟩
        rw [Pool.cut_other hij]
        exact hj

end Runs

/-- **A reset token is consumed once**: whatever the interleaving of any number of
`reset_password` requests that carry it, if each commits only while no other holds the
token's value and none is cut off after it has deleted the token, then at most one of them
changes the password; and unless one has, or has deleted the token and is about to commit,
the token is as usable as it was. -/
theorem reset_consumed_once (henv : env.Lawful) {w₀ : World}
    (requests : ι → RequestContext × String) {P : Crowd Unit ResetRecord ι}
    (hrun : Reach (machine env resetNote) OneHolder
      (crowd w₀ .start fun i => resetRequest env token (requests i)) P) :
    (∀ i j, (P.thread i).seen = .changed → (P.thread j).seen = .changed → i = j) ∧
    ((∀ i, (P.thread i).seen ≠ .changed) →
      (∀ i, (P.thread i).prog ≠ none → (P.thread i).seen ≠ .deleted) →
      StillUsable env token w₀ P.world) := by
  have horderly : Orderly (machine env resetNote) (fun _ _ => True)
      (fun _ => ResetAllowed env token) (fun _ _ _ _ => True) (fun _ _ _ _ => True)
      (crowd w₀ .start fun i => resetRequest env token (requests i)) := by
    intro i p hp
    cases hp
    exact resetRequest_does (requests i)
  have hstart : ResetInv env token w₀
      (crowd w₀ .start fun i => resetRequest env token (requests i)) := by
    refine ⟨.inl rfl, fun _ _ => trivial, ?_, ?_, ?_, .inl (.inl rfl)⟩
    · rintro i ⟨⟩
    · rintro i ⟨⟩
    · rintro i j ⟨⟩
  have hinv := (hrun.invariant (fun _ _ _ => trivial) hstart horderly
    (fun P i o k h _ hok hprog hallow _ => h.act henv hok hprog hallow)
    fun P i h _ hok hrunning => h.cut hok hrunning).1
  refine ⟨hinv.once, fun hunchanged hnone => ?_⟩
  rcases hinv.kept with husable | ⟨i, hi⟩
  · exact husable
  · rcases hi with hi | ⟨hlive, hspent⟩
    · exact absurd hi (hunchanged i)
    · rcases ResetRecord.spent_iff.mp hspent with hi | hi
      · exact absurd hi (hnone i hlive)
      · exact absurd hi (hunchanged i)

/-- The rows of a tenant with one user. -/
def forgottenRows : Database Row
  | .tenants => [{ id := 1, name := "ABC Academy", slug := "abc-academy" }]
  | .users => [⟨2, 1, "student@abc.test", "#old", "", true, false, false, none, 0, 0, none⟩]
  | _ => []

/-- That user has asked for a reset: the token `tok` is in the process's store. -/
def forgottenWorld : World :=
  { World.fresh 100 forgottenRows with
    resetStore := Function.update (fun _ => none) "tok" (some (resetValue 1 2, 3700)) }

/-- Two requests with the token, for different passwords. -/
def resetRace : Fin 2 → RequestContext × String
  | 0 => ({ requestId := "r0", tenantId := some 1 }, "first password")
  | 1 => ({ requestId := "r1", tenantId := some 1 }, "second password")

/-- The second request begins before, and looks the token up after the first has committed. -/
theorem reset_consumed_once_raced : ∃ P : Crowd Unit ResetRecord (Fin 2),
    (P.thread 0).seen = .changed ∧ (P.thread 1).seen = .ended ∧
    ∀ i j, (P.thread i).seen = .changed → (P.thread j).seen = .changed → i = j := by
  obtain ⟨P, hrun, hfirst, hsecond⟩ : ∃ P, Reach (machine (Env.reference {}) resetNote) OneHolder
      (crowd forgottenWorld .start fun i => resetRequest (Env.reference {}) "tok" (resetRace i)) P ∧
      (P.thread 0).seen = .changed ∧ (P.thread 1).seen = .ended :=
    Reach.of_play (List.replicate 4 1 ++ List.replicate 15 0 ++ List.replicate 2 1)
      (by decide +kernel)
  exact ⟨P, hfirst, hsecond, (reset_consumed_once (reference_lawful _) resetRace hrun).1⟩

/-- Both requests look the token up, then both change the password. And a request that is
cut off between the deletion and its commit loses the token. -/
theorem reset_token_reused :
    (∃ P : Crowd Unit ResetRecord (Fin 2), Reach (machine (Env.reference {}) resetNote)
      (fun _ _ _ => True) (crowd forgottenWorld .start fun i =>
        resetRequest (Env.reference {}) "tok" (resetRace i)) P ∧
      (P.thread 0).seen = .changed ∧ (P.thread 1).seen = .changed) ∧
    ∃ P : Crowd Unit ResetRecord (Fin 2), Reach (machine (Env.reference {}) resetNote)
      (fun _ _ _ => True) (crowd forgottenWorld .start fun i =>
        resetRequest (Env.reference {}) "tok" (resetRace i)) P ∧
      (∀ i, (P.thread i).seen ≠ .changed) ∧
      (∀ i, (P.thread i).prog ≠ none → (P.thread i).seen ≠ .deleted) ∧
      ¬ StillUsable (Env.reference {}) "tok" forgottenWorld P.world := by
  refine ⟨Reach.of_play (List.replicate 6 0 ++ List.replicate 6 1 ++ List.replicate 9 0 ++
    List.replicate 9 1) (by decide +kernel), ?_⟩
  obtain ⟨P, hrun, hrunning, hzero, hone, hslot, hticks⟩ : ∃ P : Crowd Unit ResetRecord (Fin 2),
      Reach (machine (Env.reference {}) resetNote) (fun _ _ _ => True) (crowd forgottenWorld .start
        fun i => resetRequest (Env.reference {}) "tok" (resetRace i)) P ∧
      (P.thread 0).running ∧ (P.thread 0).seen = .deleted ∧ (P.thread 1).seen = .start ∧
      resetSlot (Env.reference {}) P.world "tok" = none ∧ P.world.ticks < 3700 :=
    Reach.of_play (List.replicate 13 0) (by decide +kernel)
  have hself : (P.cut (machine (Env.reference {}) resetNote) 0).thread 0 = ⟨none, [], .deleted⟩ :=
    Pool.cut_self.trans (by rw [hzero]; rfl)
  have hother : (P.cut (machine (Env.reference {}) resetNote) 0).thread 1 = P.thread 1 :=
    Pool.cut_other (by decide)
  have htwo : ∀ i : Fin 2, i = 0 ∨ i = 1 := by decide
  refine ⟨_, hrun.step trivial (.cut hrunning), fun i => ?_, fun i hlive => ?_, ?_⟩
  · rcases htwo i with rfl | rfl
    · rw [hself]
      rintro ⟨⟩
    · rw [hother, hone]
      rintro ⟨⟩
  · rcases htwo i with rfl | rfl
    · rw [hself] at hlive
      exact absurd rfl hlive
    · rw [hother, hone]
      rintro ⟨⟩
  · have hstart : resetSlot (Env.reference {}) forgottenWorld "tok" =
        some (resetValue 1 2, some 3700) := rfl
    rintro (hsame | ⟨value, expires, hentry, hlate⟩)
    · cases (hslot.symm.trans hsame).trans hstart
    · cases hstart.symm.trans hentry
      exact absurd hlate (Nat.not_lt.mpr hticks.le)

end LmsBackend
