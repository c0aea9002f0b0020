import LmsBackend.Lib.Mvcc

/-!
# Rows that a policy hides

A statement finds no row that the policy hides from its transaction. If no other row has the key
of a hidden one, it does not write any of them either.

- `hidden hid db`: the rows that are to stay hidden, table by table.
- `KeysApart S hid db`: no other row has the key of one of them.
- `Write.Spares`: a write that leaves them alone, whatever is written before it.
- `Secluded S hid db tx`: the policy hides them from `tx`, and its writes spare them.
  `Secluded.insert`, `Secluded.update`, `Secluded.delete`: so do the next ones;
  `Secluded.commit`: the committed rows then have the same hidden rows.
-/

namespace Mvcc

variable {Table : Type} {Row : Table → Type} {Key Guc Err : Type}
  {S : Schema Row Key Guc Err} {hid : (t : Table) → Row t → Bool}
  {db db' : Database Row} {tx : Tx Row Key Guc} {t : Table}

/-- The hidden rows of a database. -/
def hidden (hid : (t : Table) → Row t → Bool) (db : Database Row) : Database Row :=
  fun t => (db t).filter (hid t)

/-- A row with the key of a hidden row is hidden. -/
def KeysApart (S : Schema Row Key Guc Err) (hid : (t : Table) → Row t → Bool)
    (db : Database Row) : Prop :=
  ∀ t, ∀ a ∈ hidden hid db t, ∀ b ∈ db t, S.key t b = S.key t a → hid t b = true

/-- The write changes no hidden row, and makes none. -/
def Write.Spares (S : Schema Row Key Guc Err) (hid : (t : Table) → Row t → Bool)
    (db : Database Row) : Write Row Key → Prop
  | .insert t r => hid t r = false ∧ ∀ a ∈ hidden hid db t, S.key t a ≠ S.key t r
  | .update t k r => hid t r = false ∧ S.key t r = k ∧ ∀ a ∈ hidden hid db t, S.key t a ≠ k
  | .delete t k => ∀ a ∈ hidden hid db t, S.key t a ≠ k

theorem mem_hidden {r : Row t} : r ∈ hidden hid db t ↔ r ∈ db t ∧ hid t r = true :=
  List.mem_filter

/-- Which writes spare the hidden rows depends on these rows only. -/
theorem Write.Spares.congr {x : Write Row Key} (h : x.Spares S hid db)
    (hsame : hidden hid db' = hidden hid db) : x.Spares S hid db' := by
  unfold Write.Spares at h ⊢
  rw [hsame]
  exact h

/-- The rows are hidden from the transaction, and so far it has spared them. -/
structure Secluded (S : Schema Row Key Guc Err) (hid : (t : Table) → Row t → Bool)
    (db : Database Row) (tx : Tx Row Key Guc) : Prop where
  hides : ∀ t r, S.policy tx.guc t r = true → hid t r = false
  apart : KeysApart S hid db
  spares : ∀ x ∈ tx.writes, x.Spares S hid db

/-- Other transactions have spared the hidden rows meanwhile. -/
theorem Secluded.of_same (h : Secluded S hid db tx) (hsame : hidden hid db' = hidden hid db)
    (hapart : KeysApart S hid db') : Secluded S hid db' tx :=
  ⟨h.hides, hapart, fun x hx => (h.spares x hx).congr hsame⟩

/-- One more write that spares the hidden rows. -/
theorem Secluded.push {x : Write Row Key} (h : Secluded S hid db tx) (hx : x.Spares S hid db) :
    Secluded S hid db (tx.push x) := by
  refine ⟨h.hides, h.apart, fun y hy => ?_⟩
  rcases List.mem_append.mp hy with hy | hy
  · exact h.spares y hy
  · rw [List.mem_singleton.mp hy]
    exact hx

/-! ## One write -/

variable [DecidableEq Key]

/-- Replacing rows that are not hidden leaves the hidden ones. -/
theorem filter_replace {rows : List (Row t)} {k : Key} {r : Row t} (hr : hid t r = false)
    (hk : ∀ a ∈ rows, hid t a = true → S.key t a ≠ k) :
    (rows.map fun r' => if S.key t r' = k then r else r').filter (hid t) = rows.filter (hid t) := by
  induction rows with
  | nil => rfl
  | cons a rows ih =>
    have ih := ih fun b hb => hk b (List.mem_cons_of_mem a hb)
    by_cases ha : hid t a = true
    · rw [List.map_cons, if_neg (hk a List.mem_cons_self ha), List.filter_cons_of_pos ha,
        List.filter_cons_of_pos ha, ih]
    · rw [List.map_cons, List.filter_cons_of_neg ha, List.filter_cons_of_neg, ih]
      split
      · simp [hr]
      · exact ha

variable [DecidableEq Table]

/-- A write that spares the hidden rows leaves them as they are. -/
theorem Write.Spares.hidden_apply {x : Write Row Key} (h : x.Spares S hid db) :
    hidden hid (x.apply S db) = hidden hid db := by
  funext t
  by_cases ht : x.table = t
  · subst ht
    cases x with
    | insert t r =>
      obtain ⟨hr, -⟩ := h
      show ((Write.insert t r).apply S db t).filter (hid t) = _
      rw [Write.apply_insert, List.filter_append, List.filter_cons_of_neg (by simp [hr])]
      exact List.append_nil _
    | update t k r =>
      obtain ⟨hr, -, hk⟩ := h
      show ((Write.update t k r).apply S db t).filter (hid t) = (db t).filter (hid t)
      rw [Write.apply_update]
      exact filter_replace hr fun a ha hhid => hk a (mem_hidden.mpr ⟨ha, hhid⟩)
    | delete t k =>
      show ((Write.delete t k).apply S db t).filter (hid t) = (db t).filter (hid t)
      rw [Write.apply_delete, List.filter_filter]
      refine List.filter_congr fun a ha => ?_
      by_cases hhid : hid t a = true
      · simp [hhid, h a (mem_hidden.mpr ⟨ha, hhid⟩)]
      · simp [hhid]
  · exact congrArg (List.filter (hid t)) (Write.apply_other ht)

/-- A write that spares the hidden rows leaves their keys to them. -/
theorem Write.Spares.keysApart {x : Write Row Key} (h : x.Spares S hid db)
    (hkeys : KeysApart S hid db) : KeysApart S hid (x.apply S db) := by
  intro t a ha b hb hkey
  rw [h.hidden_apply] at ha
  by_cases ht : x.table = t
  · subst ht
    cases x with
    | insert t r =>
      replace hb : b ∈ (Write.insert t r).apply S db t := hb
      rw [Write.apply_insert] at hb
      rcases List.mem_append.mp hb with hb | hb
      · exact hkeys t a ha b hb hkey
      · rw [List.mem_singleton.mp hb] at hkey
        exact absurd hkey.symm (h.2 a ha)
    | update t k r =>
      replace hb : b ∈ (Write.update t k r).apply S db t := hb
      rw [Write.apply_update] at hb
      obtain ⟨b', hb', rfl⟩ := List.mem_map.mp hb
      split at hkey
      · exact absurd (hkey.symm.trans h.2.1) (h.2.2 a ha)
      · rename_i hne
        rw [if_neg hne]
        exact hkeys t a ha b' hb' hkey
    | delete t k =>
      replace hb : b ∈ (Write.delete t k).apply S db t := hb
      rw [Write.apply_delete] at hb
      exact hkeys t a ha b ((List.mem_filter.mp hb).1) hkey
  · rw [Write.apply_other ht] at hb
    exact hkeys t a ha b hb hkey

/-! ## Transactions -/

/-- What the transaction sees: the same hidden rows, with keys of their own. -/
theorem Secluded.view (h : Secluded S hid db tx) :
    hidden hid (view S db tx) = hidden hid db ∧ KeysApart S hid (view S db tx) := by
  obtain ⟨guc, writes, pending⟩ := tx
  obtain ⟨-, hapart, hspares⟩ := h
  show hidden hid (writes.foldl (Write.apply S) db) = _ ∧
    KeysApart S hid (writes.foldl (Write.apply S) db)
  induction writes generalizing db with
  | nil => exact ⟨rfl, hapart⟩
  | cons x writes ih =>
    have hx := hspares x List.mem_cons_self
    obtain ⟨hsame, hkeys⟩ := ih (hx.keysApart hapart) fun y hy =>
      (hspares y (List.mem_cons_of_mem x hy)).congr hx.hidden_apply
    exact ⟨hsame.trans hx.hidden_apply, hkeys⟩

/-- A commit leaves the hidden rows as they are. -/
theorem Secluded.commit (h : Secluded S hid db tx) :
    hidden hid (Mvcc.view S db tx) = hidden hid db := h.view.1

/-- A row that is inserted has another key, where inserts are checked for that. -/
theorem Secluded.insert {r : Row t} (h : Secluded S hid db tx)
    (hfresh : ∀ db, S.checkInsert db t r = none → ∀ r' ∈ db t, S.key t r' ≠ S.key t r)
    (hinsert : insertError S db tx t r = none) : Secluded S hid db (tx.push (.insert t r)) := by
  obtain ⟨hpolicy, hcheck⟩ := insertError_none hinsert
  refine h.push ⟨h.hides t r hpolicy, fun a ha => hfresh _ hcheck a ?_⟩
  rw [← h.view.1] at ha
  exact (mem_hidden.mp ha).1

/-- The row that an update or a delete finds by its key is not hidden, so no row with this key
is. -/
theorem Secluded.target {k : Key} {p : Row t → Bool} {old : Row t} (h : Secluded S hid db tx)
    (htarget : target S db tx t k p = some old) : ∀ a ∈ hidden hid db t, S.key t a ≠ k := by
  obtain ⟨hview, hpolicy, hkey, -⟩ := target_some htarget
  intro a ha hak
  rw [← h.view.1] at ha
  have hhid := h.view.2 t a ha old hview (hkey.trans hak.symm)
  rw [h.hides t old hpolicy] at hhid
  cases hhid

theorem Secluded.update {k : Key} {p : Row t → Bool} {old new : Row t} (h : Secluded S hid db tx)
    (htarget : Mvcc.target S db tx t k p = some old) (hkey : S.key t new = S.key t old)
    (hupdate : updateError S db tx t old new = none) :
    Secluded S hid db (tx.push (.update t k new)) :=
  h.push ⟨h.hides t new (updateError_none hupdate).1, hkey.trans (target_some htarget).2.2.1,
    h.target htarget⟩

theorem Secluded.delete {k : Key} {p : Row t → Bool} {old : Row t} (h : Secluded S hid db tx)
    (htarget : Mvcc.target S db tx t k p = some old) :
    Secluded S hid db (tx.push (.delete t k)) :=
  h.push (h.target htarget)

end Mvcc
