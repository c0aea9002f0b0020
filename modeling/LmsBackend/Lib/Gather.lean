import Mathlib.Data.DFinsupp.WellFounded
import LmsBackend.Lib.Interleave

/-!
# Waiting for all of several programs

Programs that were started together and are waited for together (`asyncio.gather` with
`return_exceptions`): the wait is over once each of them has returned or raised, and its
result is the list of what they returned or raised.

- `Prog.rescue go p`: `p`, going on with `go e` where it raises `e`.
- `Pool.results`: the list that the wait ends with.
- `endless`: finitely many programs come to an end, in whatever order they take steps.
- `Reach.rescue`, `Reach.of_rescue`: a program that raises does to the others what it does
  if it goes on instead.
-/

namespace Prog

variable {Op Op' : Type} {Ans : Op → Type} {ε α : Type}

/-- `p`, going on with `go e` where it raises `e`. -/
def rescue (go : ε → Prog Op Ans ε α) : Prog Op Ans ε α → Prog Op Ans ε α
  | ret a => ret a
  | raise e => go e
  | call o k => call o fun a => (k a).rescue go

/-- What is left of a program after its next operation. -/
def Rest (p' p : Prog Op Ans ε α) : Prop := ∃ o k a, p = call o k ∧ p' = k a

/-- A program has only finitely many operations to go, whatever their answers. -/
theorem rest_wellFounded : WellFounded (Rest : Prog Op Ans ε α → Prog Op Ans ε α → Prop) := by
  refine ⟨fun p => ?_⟩
  induction p with
  | ret a =>
    refine ⟨_, ?_⟩
    rintro p' ⟨o, k, a, hp, -⟩
    cases hp
  | raise e =>
    refine ⟨_, ?_⟩
    rintro p' ⟨o, k, a, hp, -⟩
    cases hp
  | call o k ih =>
    refine ⟨_, ?_⟩
    rintro p' ⟨o, k, a, hp, rfl⟩
    cases hp
    exact ih a

end Prog

namespace Interleave

variable {Op : Type} {Ans : Op → Type} {ε α W L σ ι : Type} [DecidableEq ι]
  {m : Machine Op Ans W L σ} {P P' P₀ : Pool Op Ans ε α W L σ ι}

/-- No thread is cut off. -/
def Uncut (_ : Pool Op Ans ε α W L σ ι) (_ : ι) (o : Option Op) : Prop := o ≠ none

/-- One operation of one thread. -/
def Advance (m : Machine Op Ans W L σ) (P P' : Pool Op Ans ε α W L σ ι) : Prop :=
  ∃ i o, Step m P i (some o) P'

omit [DecidableEq ι] in
/-- Every thread has returned or raised. -/
def Pool.Ended (P : Pool Op Ans ε α W L σ ι) : Prop :=
  ∀ i, ∃ p, (P.thread i).prog = some p ∧ ∀ o k, p ≠ .call o k

/-- A thread returned or raised, and what. -/
def Thread.outcome (t : Thread Op Ans ε α L σ) : Option (Except ε α) :=
  match t.prog with
  | some (.ret a) => some (.ok a)
  | some (.raise e) => some (.error e)
  | _ => none

/-- What the threads returned or raised, in their order, once all of them have. -/
def Pool.results {n : Nat} (P : Pool Op Ans ε α W L σ (Fin n)) : Option (List (Except ε α)) :=
  (List.finRange n).mapM fun i => (P.thread i).outcome

/-! ## The wait comes to an end -/

theorem advance_wellFounded {n : Nat} :
    WellFounded fun P' P : Pool Op Ans ε α W L σ (Fin n) => Advance m P P' := by
  -- the programs of the threads, as a function of the thread
  let progs : Pool Op Ans ε α W L σ (Fin n) → Fin n → Option (Prog Op Ans ε α) :=
    fun P i => (P.thread i).prog
  have hrest : WellFounded fun p' p : Option (Prog Op Ans ε α) =>
      ∃ q' q, p' = some q' ∧ p = some q ∧ Prog.Rest q' q := by
    refine ⟨fun p => ?_⟩
    cases p with
    | none =>
      refine ⟨_, ?_⟩
      rintro p' ⟨q', q, -, hq, -⟩
      cases hq
    | some q =>
      induction q using Prog.rest_wellFounded.induction with
      | _ q ih =>
        refine ⟨_, ?_⟩
        rintro p' ⟨q', q₀, rfl, hq, hnext⟩
        cases hq
        exact ih q' hnext
  have hlex := Pi.Lex.wellFounded (· < · : Fin n → Fin n → Prop) fun _ => hrest
  refine Subrelation.wf ?_ (InvImage.wf progs hlex)
  rintro P' P ⟨i, o, hstep⟩
  cases hstep with
  | act prog free =>
    refine ⟨i, fun j hj => ?_, ?_⟩
    · exact congrArg Thread.prog (Pool.act_other (ne_of_lt hj))
    · exact ⟨_, _, congrArg Thread.prog Pool.act_self, prog, _, _, _, rfl, rfl⟩

/-- No run goes on for ever. -/
theorem endless {n : Nat} (run : Nat → Pool Op Ans ε α W L σ (Fin n)) :
    ¬ ∀ k, Advance m (run k) (run (k + 1)) := by
  intro hrun
  have hnever : ∀ P : Pool Op Ans ε α W L σ (Fin n), ∀ k, run k ≠ P := by
    intro P
    induction P using (advance_wellFounded (m := m)).induction with
    | _ P ih =>
      rintro k rfl
      exact ih (run (k + 1)) (hrun k) (k + 1) rfl
  exact hnever (run 0) 0 rfl

/-- Where no operation has to wait, a run that cannot be continued has ended. -/
theorem Reach.ended (hr : Reach m Uncut P₀ P) (hstart : ∀ i, (P₀.thread i).prog ≠ none)
    (hwaits : ∀ o s l, ¬ m.waits o s l) (hlast : ¬ ∃ P', Advance m P P') : P.Ended := by
  intro i
  have hprog := hr.uncut (fun _ _ h => h rfl) hstart i
  obtain ⟨p, hp⟩ := Option.ne_none_iff_exists'.mp hprog
  refine ⟨p, hp, ?_⟩
  rintro o k rfl
  exact hlast ⟨_, i, o, .act hp fun j _ => hwaits o _ _⟩

theorem outcome_eq_ok {t : Thread Op Ans ε α L σ} {a : α} (h : t.prog = some (.ret a)) :
    t.outcome = some (.ok a) := by
  unfold Thread.outcome
  rw [h]

theorem outcome_eq_error {t : Thread Op Ans ε α L σ} {e : ε} (h : t.prog = some (.raise e)) :
    t.outcome = some (.error e) := by
  unfold Thread.outcome
  rw [h]

/-- When every thread has ended, there is a result for each. -/
theorem Pool.Ended.results {n : Nat} {P : Pool Op Ans ε α W L σ (Fin n)} (h : P.Ended) :
    ∃ rs, P.results = some rs ∧ rs.length = n := by
  have houtcome : ∀ i, ∃ r, (P.thread i).outcome = some r := by
    intro i
    obtain ⟨p, hp, hcall⟩ := h i
    cases p with
    | ret a => exact ⟨_, outcome_eq_ok hp⟩
    | raise e => exact ⟨_, outcome_eq_error hp⟩
    | call o k => exact absurd rfl (hcall o k)
  choose r hr using houtcome
  refine ⟨(List.finRange n).map r, ?_, ?_⟩
  · unfold Pool.results
    rw [funext hr]
    exact List.mapM_pure
  · rw [List.length_map, List.length_finRange]

/-! ## Going on instead of raising -/

section Rescue

variable (go : ι → ε → Prog Op Ans ε α)

/-- The pool whose threads go on where they would have raised. -/
def Pool.rescue (P : Pool Op Ans ε α W L σ ι) : Pool Op Ans ε α W L σ ι where
  world := P.world
  thread i := { P.thread i with prog := (P.thread i).prog.map (Prog.rescue (go i)) }

theorem Pool.act_rescue {i : ι} {o : Op} {k : Ans o → Prog Op Ans ε α} :
    (P.act m i o k).rescue go = (P.rescue go).act m i o fun a => (k a).rescue (go i) := by
  refine congrArg (Pool.mk _) (funext fun j => ?_)
  by_cases hj : j = i
  · subst hj
    rw [Pool.act_self, Function.update_self]
    rfl
  · rw [Pool.act_other hj, Function.update_of_ne hj]
    rfl

/-- What the others do to the world, and the world to them, is the same if the threads go on. -/
theorem Reach.rescue (hr : Reach m Uncut P₀ P) :
    Reach m Uncut (P₀.rescue go) (P.rescue go) := by
  induction hr with
  | start => exact .start
  | @step P P' i o reach ok step ih =>
    cases step with
    | cut running => exact absurd rfl ok
    | act prog free =>
      rw [Pool.act_rescue]
      refine ih.step ok (.act ?_ free)
      show (P.thread i).prog.map _ = _
      rw [prog]
      rfl

/-- If they go on by returning at once, there are no other runs. -/
theorem Reach.of_rescue {Q : Pool Op Ans ε α W L σ ι} (hgo : ∀ i e, ∃ a, go i e = .ret a)
    (hr : Reach m Uncut (P₀.rescue go) Q) : ∃ P, Reach m Uncut P₀ P ∧ Q = P.rescue go := by
  induction hr with
  | start => exact ⟨P₀, .start, rfl⟩
  | @step Q Q' i o reach ok step ih =>
    obtain ⟨P, hreach, rfl⟩ := ih
    cases step with
    | cut running => exact absurd rfl ok
    | act prog free =>
      -- an operation of the thread that goes on is one of the thread that raises
      obtain ⟨p, hp, hrescued⟩ := Option.map_eq_some_iff.mp prog
      cases p with
      | ret a => cases hrescued
      | raise e =>
        obtain ⟨a, ha⟩ := hgo i e
        cases ha.symm.trans hrescued
      | call o' k' =>
        cases hrescued
        exact ⟨P.act m i _ k', hreach.step ok (.act hp free), (Pool.act_rescue go).symm⟩

end Rescue

/-! ## One program -/

/-- A program that is waited for alone does what it does when it is run. -/
theorem Reach.alone [Subsingleton ι] {i : ι} {p₀ p : Prog Op Ans ε α} (hr : Reach m Uncut P₀ P)
    (hstart : (P₀.thread i).prog = some p₀) (hp : (P.thread i).prog = some p) :
    Prog.run m.exec p (P.world, (P.thread i).loc) =
      Prog.run m.exec p₀ (P₀.world, (P₀.thread i).loc) := by
  induction hr generalizing p with
  | start =>
    cases hstart.symm.trans hp
    rfl
  | @step P P' j o reach ok step ih =>
    cases step with
    | cut running => exact absurd rfl ok
    | act prog free =>
      obtain rfl := Subsingleton.elim i j
      rw [← ih prog]
      rw [Pool.act_self] at hp ⊢
      cases hp
      rfl

end Interleave
