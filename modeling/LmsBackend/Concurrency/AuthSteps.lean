import LmsBackend.Concurrency.Threads
import LmsBackend.Effects.Auth

/-!
# The steps of the authentication requests

Rules for the parts that `reset_password`, `refresh` and `login` share, in any company:
the lookup of a user, and the bulk revocation of its sessions row by row.
-/

namespace LmsBackend

open Mvcc Interleave

variable {env : Env} {σ α : Type}

namespace Does

variable {note : Note σ} {G : σ → World → Prop} {allow : σ → List Tx → Op → Prop}
  {Q : σ → List Tx → α → Prop} {E : σ → List Tx → Err → Prop} {q : σ} {l : List Tx}

/-- A lookup of a user, whoever it finds. -/
theorem getUser {rc : RequestContext} {id : Uuid} {f : Option LoadedUser → M α}
    (hr : Reads note allow q) (hmany : E q l (.unhandled .multipleResultsFound))
    (h : ∀ u, Does env note G allow Q E q l (f u)) :
    Does env note G allow Q E q l (getUser rc id >>= f) := by
  unfold LmsBackend.getUser findUser repoSelect loadUsers loadRoles
  simp only [bind_assoc]
  refine query hr fun rows => ?_
  refine join hr fun assigned => ?_
  refine join hr fun granted => ?_
  exact scalarOneOrNone hmany fun r _ => h r

/-- A lookup of an account that has to be there, with the row that it finds. -/
theorem getUserOr404 {tx : Tx} {rc : RequestContext} {id : Uuid} {f : LoadedUser → M α}
    (hr : Reads note allow q) (herr : ∀ e, E q (tx :: l) e)
    (h : ∀ w u, G q w → u.user ∈ visible schema w.db tx .users →
      Does env note G allow Q E q (tx :: l) (f u)) :
    Does env note G allow Q E q (tx :: l) (getUserOr404 rc id >>= f) := by
  unfold LmsBackend.getUserOr404 LmsBackend.getUser findUser repoSelect loadUsers loadRoles
  simp only [bind_assoc]
  refine op (hr.select _ _ _).1 fun w rows w' l' hw hexec => ?_
  rw [(hr.select _ _ _).2]
  obtain ⟨hrows, rfl⟩ : (visible schema w.db tx .users).filter _ = rows ∧ tx :: l = l' :=
    ⟨congrArg Prod.fst hexec, congrArg (fun x => x.2.2) hexec⟩
  refine join hr fun assigned => ?_
  refine join hr fun granted => ?_
  refine scalarOneOrNone (herr _) fun r hone => ?_
  rcases hone with rfl | ⟨u, rfl, hu⟩
  · exact herr _
  · refine h w u hw ?_
    have hmem : u.user ∈ rows := by
      have hmap := List.mem_singleton_self u
      rw [← hu] at hmap
      obtain ⟨v, hv, rfl⟩ := List.mem_map.mp hmap
      exact hv
    rw [← hrows] at hmem
    exact List.mem_of_mem_filter hmem

/-- One user's row in the bulk revocation, found or not. -/
theorem revokeRow {tx : Tx} {s : Session} {userId : Uuid} {row : UserSession} {f : Unit → M α}
    (ha : ∀ p g, allow q (tx :: l) (.db (.update .userSessions [row.id] p g)) ∧
      ∀ a, note q (tx :: l) (.db (.update .userSessions [row.id] p g)) a = q)
    (hok : ∀ tx' : Tx, tx'.pending = tx.pending →
      (∃ ws, tx'.writes = tx.writes ++ ws ∧ ∀ x ∈ ws, x.table = .userSessions) →
      Does env note G allow Q E q (tx' :: l) (f ()))
    (herr : ∀ e, E q (tx :: l) e) :
    Does env note G allow Q E q (tx :: l) (revokeRow s userId row >>= f) := by
  have hassoc : LmsBackend.revokeRow s userId row >>= f =
      perform (.db (.update .userSessions [row.id] (live userId) fun r =>
        { r with revokedAt := some s.startedAt })) >>= fun r =>
      match r with
      | .ok _ => f ()
      | .error e => .raise (.db e) := by
    unfold LmsBackend.revokeRow
    rw [bind_assoc]
    refine bind_congr fun r => ?_
    cases r with
    | ok n => rfl
    | error e => rfl
  rw [hassoc]
  refine op (ha _ _).1 fun w r w' l' hw hexec => ?_
  rw [(ha _ _).2]
  cases htarget : target schema w.db tx .userSessions [row.id] (live userId) with
  | none =>
    simp only [exec, Mvcc.exec, execTx, htarget] at hexec
    cases hexec
    exact hok tx rfl ⟨[], (List.append_nil _).symm, fun x hx => (by cases hx)⟩
  | some old =>
    cases herror : updateError schema w.db tx .userSessions old
        (schema.coerce .userSessions { old with revokedAt := some s.startedAt }) with
    | some e =>
      simp only [exec, Mvcc.exec, execTx, htarget, herror] at hexec
      cases hexec
      exact herr _
    | none =>
      simp only [exec, Mvcc.exec, execTx, htarget, herror] at hexec
      cases hexec
      refine hok _ rfl ⟨_, rfl, fun x hx => ?_⟩
      rw [List.mem_singleton.mp hx]
      rfl

end Does

end LmsBackend
