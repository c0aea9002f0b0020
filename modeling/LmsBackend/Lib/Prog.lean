import Mathlib.Logic.Function.Basic
import Mathlib.Logic.Relation

/-!
# Programs over a signature of effects

A `Prog Op Ans ε α` is a program that performs operations `op : Op`, continues
with the answer of type `Ans op`, and ends by returning an `α` or raising an
`ε`. Nothing here fixes what an operation does: an interpreter
`exec : (op : Op) → σ → Ans op × σ` is supplied where a program is run, so the
same program can be run to its end (`Prog.run`), observed operation by
operation (`Prog.trace`) or interleaved with others.

- `Prog.run_bind`, `Prog.trace_bind`: a run of a sequence is the run of its parts.
- `Prog.All φ ρ Q p`: as long as the answers satisfy `ρ`, every operation of `p`
  satisfies `φ` and every returned value satisfies `Q`. `Prog.all_bind` makes it
  compositional, and `Prog.All.run_inv` / `Prog.All.trace_inv` turn it into facts
  about runs.
-/

/-- A program over the operations `Op`. -/
inductive Prog (Op : Type) (Ans : Op → Type) (ε α : Type) : Type
  | ret (a : α)
  | raise (e : ε)
  | call (op : Op) (k : Ans op → Prog Op Ans ε α)

namespace Prog

variable {Op : Type} {Ans : Op → Type} {ε ε' α β γ σ : Type}

/-! ## Sequencing -/

/-- Run `p`, then `f` on its value; an exception of `p` is passed on. -/
def bind : Prog Op Ans ε α → (α → Prog Op Ans ε β) → Prog Op Ans ε β
  | ret a, f => f a
  | raise e, _ => raise e
  | call op k, f => call op fun a => (k a).bind f

instance : Monad (Prog Op Ans ε) where
  pure := ret
  bind := bind

/-- Perform one operation and return its answer. -/
def op (o : Op) : Prog Op Ans ε (Ans o) := call o ret

/-- Python's `try`: the exception becomes a value. -/
def attempt : Prog Op Ans ε α → Prog Op Ans ε' (Except ε α)
  | ret a => ret (.ok a)
  | raise e => ret (.error e)
  | call op k => call op fun a => (k a).attempt

/-- Raise the error of an answer that may be one. -/
def ofExcept : Except ε α → Prog Op Ans ε α
  | .ok a => ret a
  | .error e => raise e

/-- Run `f` on every element, in order. -/
def forEach : List α → (α → Prog Op Ans ε Unit) → Prog Op Ans ε Unit
  | [], _ => ret ()
  | a :: as, f => (f a).bind fun _ => forEach as f

@[simp] theorem pure_eq (a : α) : (pure a : Prog Op Ans ε α) = ret a := rfl

@[simp] theorem bind_eq (p : Prog Op Ans ε α) (f : α → Prog Op Ans ε β) :
    p >>= f = p.bind f := rfl

@[simp] theorem ret_bind (a : α) (f : α → Prog Op Ans ε β) : (ret a).bind f = f a := rfl

@[simp] theorem raise_bind (e : ε) (f : α → Prog Op Ans ε β) :
    (raise e : Prog Op Ans ε α).bind f = raise e := rfl

@[simp] theorem call_bind (o : Op) (k : Ans o → Prog Op Ans ε α) (f : α → Prog Op Ans ε β) :
    (call o k).bind f = call o fun a => (k a).bind f := rfl

/-- Sequencing is associative: regrouping a program's parts does not change it. -/
theorem bind_assoc (p : Prog Op Ans ε α) (f : α → Prog Op Ans ε β) (g : β → Prog Op Ans ε γ) :
    (p.bind f).bind g = p.bind fun a => (f a).bind g := by
  induction p with
  | ret a => rfl
  | raise e => rfl
  | call o k ih => exact congrArg (call o) (funext fun a => ih a)

/-- Returning what a program returns changes nothing. -/
theorem bind_ret (p : Prog Op Ans ε α) : p.bind ret = p := by
  induction p with
  | ret a => rfl
  | raise e => rfl
  | call o k ih => exact congrArg (call o) (funext ih)

instance : LawfulMonad (Prog Op Ans ε) :=
  LawfulMonad.mk' (Prog Op Ans ε) (fun p => bind_ret p) (fun _ _ => rfl) bind_assoc

/-- Running `f` on the images of some elements. -/
theorem forEach_map (g : β → α) (f : α → Prog Op Ans ε Unit) (bs : List β) :
    forEach (bs.map g) f = forEach bs fun b => f (g b) := by
  induction bs with
  | nil => rfl
  | cons b bs ih =>
    show (f (g b)).bind _ = (f (g b)).bind _
    rw [ih]

/-! ## Running a program to its end -/

/-- Run to the end, sequentially: the outcome and the state it leaves. -/
def run (exec : (o : Op) → σ → Ans o × σ) : Prog Op Ans ε α → σ → Except ε α × σ
  | ret a, s => (.ok a, s)
  | raise e, s => (.error e, s)
  | call o k, s => run exec (k (exec o s).1) (exec o s).2

/-- The operations a run performs, each with the state it is performed in. -/
def trace (exec : (o : Op) → σ → Ans o × σ) : Prog Op Ans ε α → σ → List (σ × Op)
  | ret _, _ => []
  | raise _, _ => []
  | call o k, s => (s, o) :: trace exec (k (exec o s).1) (exec o s).2

section Run

variable {exec : (o : Op) → σ → Ans o × σ}

@[simp] theorem run_ret (a : α) (s : σ) :
    run exec (ret a : Prog Op Ans ε α) s = (.ok a, s) := rfl

@[simp] theorem run_raise (e : ε) (s : σ) :
    run exec (raise e : Prog Op Ans ε α) s = (.error e, s) := rfl

@[simp] theorem run_op (o : Op) (s : σ) :
    run exec (op o : Prog Op Ans ε (Ans o)) s = (.ok (exec o s).1, (exec o s).2) := rfl

/-- A run of `p` followed by `f` is a run of `p`, then of `f` on what it returned. -/
theorem run_bind (p : Prog Op Ans ε α) (f : α → Prog Op Ans ε β) (s : σ) :
    run exec (p.bind f) s =
      match run exec p s with
      | (.ok a, s') => run exec (f a) s'
      | (.error e, s') => (.error e, s') := by
  induction p generalizing s with
  | ret a => rfl
  | raise e => rfl
  | call o k ih => exact ih _ _

/-- `run_bind` where the first part is known to return. -/
theorem run_bind_ok {p : Prog Op Ans ε α} {f : α → Prog Op Ans ε β} {s s' : σ} {a : α}
    (h : run exec p s = (.ok a, s')) : run exec (p.bind f) s = run exec (f a) s' := by
  rw [run_bind, h]

/-- `run_bind` where the first part is known to raise. -/
theorem run_bind_error {p : Prog Op Ans ε α} {f : α → Prog Op Ans ε β} {s s' : σ} {e : ε}
    (h : run exec p s = (.error e, s')) : run exec (p.bind f) s = (.error e, s') := by
  rw [run_bind, h]

/-- A sequence that returns comes from parts that return. -/
theorem run_bind_eq_ok {p : Prog Op Ans ε α} {f : α → Prog Op Ans ε β} {s s' : σ} {b : β}
    (h : run exec (p.bind f) s = (.ok b, s')) :
    ∃ a s₁, run exec p s = (.ok a, s₁) ∧ run exec (f a) s₁ = (.ok b, s') := by
  rw [run_bind] at h
  rcases hp : run exec p s with ⟨r, s₁⟩
  rw [hp] at h
  cases r with
  | ok a => exact ⟨a, s₁, rfl, h⟩
  | error e => cases congrArg Prod.fst h

theorem run_attempt (p : Prog Op Ans ε α) (s : σ) :
    run exec (p.attempt : Prog Op Ans ε' (Except ε α)) s =
      (.ok (run exec p s).1, (run exec p s).2) := by
  induction p generalizing s with
  | ret a => rfl
  | raise e => rfl
  | call o k ih => exact ih _ _

@[simp] theorem run_ofExcept (r : Except ε α) (s : σ) :
    run exec (ofExcept r : Prog Op Ans ε α) s = (r, s) := by
  cases r <;> rfl

/-- The operations of a sequence are those of its parts, one part after the other. -/
theorem trace_bind (p : Prog Op Ans ε α) (f : α → Prog Op Ans ε β) (s : σ) :
    trace exec (p.bind f) s = trace exec p s ++
      match run exec p s with
      | (.ok a, s') => trace exec (f a) s'
      | (.error _, _) => [] := by
  induction p generalizing s with
  | ret a => rfl
  | raise e => rfl
  | call o k ih => exact congrArg _ (ih _ _)

theorem trace_attempt (p : Prog Op Ans ε α) (s : σ) :
    trace exec (p.attempt : Prog Op Ans ε' (Except ε α)) s = trace exec p s := by
  induction p generalizing s with
  | ret a => rfl
  | raise e => rfl
  | call o k ih => exact congrArg _ (ih _ _)

/-- The operations of a sequence are operations of one of its parts. -/
theorem mem_trace_bind {p : Prog Op Ans ε α} {f : α → Prog Op Ans ε β} {s : σ} {x : σ × Op} :
    x ∈ trace exec (p.bind f) s ↔
      x ∈ trace exec p s ∨ ∃ a s', run exec p s = (.ok a, s') ∧ x ∈ trace exec (f a) s' := by
  rw [trace_bind, List.mem_append]
  refine or_congr_right ?_
  rcases run exec p s with ⟨r, s'⟩
  cases r with
  | ok a =>
    refine ⟨fun h => ⟨a, s', rfl, h⟩, ?_⟩
    rintro ⟨_, _, heq, h⟩
    cases heq
    exact h
  | error e =>
    constructor
    · intro h
      cases h
    · rintro ⟨_, _, heq, _⟩
      cases heq

/-- A relation that every operation respects relates the ends of every run. -/
theorem run_rel (R : σ → σ → Prop) (hrefl : ∀ s, R s s) (htrans : ∀ a b c, R a b → R b c → R a c)
    (hstep : ∀ o s, R s (exec o s).2) (p : Prog Op Ans ε α) (s : σ) : R s (run exec p s).2 := by
  induction p generalizing s with
  | ret a => exact hrefl s
  | raise e => exact hrefl s
  | call o k ih => exact htrans _ _ _ (hstep o s) (ih _ _)

end Run

/-! ## What every run of a program does -/

/-- As long as the answers satisfy `ρ`, every operation of the program satisfies
`φ` and every value it returns satisfies `Q`. -/
def All (φ : Op → Prop) (ρ : (o : Op) → Ans o → Prop) (Q : α → Prop) : Prog Op Ans ε α → Prop
  | ret a => Q a
  | raise _ => True
  | call o k => φ o ∧ ∀ a, ρ o a → All φ ρ Q (k a)

section All

variable {φ : Op → Prop} {ρ : (o : Op) → Ans o → Prop} {Q Q' : α → Prop}

@[simp] theorem all_ret (a : α) : All φ ρ Q (ret a : Prog Op Ans ε α) ↔ Q a := Iff.rfl

@[simp] theorem all_raise (e : ε) : All φ ρ Q (raise e : Prog Op Ans ε α) := trivial

@[simp] theorem all_call (o : Op) (k : Ans o → Prog Op Ans ε α) :
    All φ ρ Q (call o k) ↔ φ o ∧ ∀ a, ρ o a → All φ ρ Q (k a) := Iff.rfl

@[simp] theorem all_op (o : Op) {R : Ans o → Prop} :
    All φ ρ R (op o : Prog Op Ans ε (Ans o)) ↔ φ o ∧ ∀ a, ρ o a → R a := Iff.rfl

@[simp] theorem all_bind (p : Prog Op Ans ε α) (f : α → Prog Op Ans ε β) {R : β → Prop} :
    All φ ρ R (p.bind f) ↔ All φ ρ (fun a => All φ ρ R (f a)) p := by
  induction p with
  | ret a => exact Iff.rfl
  | raise e => exact Iff.rfl
  | call o k ih => exact and_congr_right fun _ => forall_congr' fun a => imp_congr_right fun _ => ih a

/-- A promise that every operation and every value keeps. -/
theorem All.of_forall (hφ : ∀ o, φ o) (hQ : ∀ a, Q a) (p : Prog Op Ans ε α) : All φ ρ Q p := by
  induction p with
  | ret a => exact hQ a
  | raise e => trivial
  | call o k ih => exact ⟨hφ o, fun a _ => ih a⟩

/-- A promise about the value may be weakened. -/
theorem All.imp {p : Prog Op Ans ε α} (h : All φ ρ Q p) (hQ : ∀ a, Q a → Q' a) :
    All φ ρ Q' p := by
  induction p with
  | ret a => exact hQ a h
  | raise e => trivial
  | call o k ih => exact ⟨h.1, fun a ha => ih a (h.2 a ha)⟩

/-- The sequence rule: the second part may rely on what the first promises. -/
theorem All.bind {p : Prog Op Ans ε α} {f : α → Prog Op Ans ε β} {R : β → Prop}
    (hp : All φ ρ Q p) (hf : ∀ a, Q a → All φ ρ R (f a)) : All φ ρ R (p.bind f) :=
  (all_bind p f).mpr (hp.imp hf)

theorem all_attempt {p : Prog Op Ans ε α} {R : Except ε α → Prop}
    (h : All φ ρ Q p) (hok : ∀ a, Q a → R (.ok a)) (herr : ∀ e, R (.error e)) :
    All φ ρ R (p.attempt : Prog Op Ans ε' (Except ε α)) := by
  induction p with
  | ret a => exact hok a h
  | raise e => exact herr e
  | call o k ih => exact ⟨h.1, fun a ha => ih a (h.2 a ha)⟩

theorem all_ofExcept {r : Except ε α} (h : ∀ a, r = .ok a → Q a) :
    All φ ρ Q (ofExcept r : Prog Op Ans ε α) := by
  cases r with
  | ok a => exact h a rfl
  | error e => trivial

theorem all_forEach {as : List β} {f : β → Prog Op Ans ε Unit}
    (h : ∀ a ∈ as, All φ ρ (fun _ => True) (f a)) :
    All φ ρ (fun _ => True) (forEach as f) := by
  induction as with
  | nil => trivial
  | cons a as ih =>
    rw [forEach, all_bind]
    have hrest := ih fun b hb => h b (List.mem_cons_of_mem a hb)
    exact (h a List.mem_cons_self).imp fun _ _ => hrest

variable {exec : (o : Op) → σ → Ans o × σ}

/-- **Invariant rule**: an invariant kept by every operation the program may
perform, under which the answers are as the program relies on, is kept by its runs. -/
theorem All.run_inv {p : Prog Op Ans ε α} (h : All φ ρ Q p) (I : σ → Prop)
    (hstep : ∀ o s, φ o → I s → ρ o (exec o s).1 ∧ I (exec o s).2) {s : σ} (hs : I s) :
    I (run exec p s).2 := by
  induction p generalizing s with
  | ret a => exact hs
  | raise e => exact hs
  | call o k ih =>
    obtain ⟨hans, hs'⟩ := hstep o s h.1 hs
    exact ih _ (h.2 _ hans) hs'

/-- A value that a run returns satisfies the program's promise about values. -/
theorem All.run_ok {p : Prog Op Ans ε α} (h : All φ ρ Q p) (I : σ → Prop)
    (hstep : ∀ o s, φ o → I s → ρ o (exec o s).1 ∧ I (exec o s).2) {s s' : σ} (hs : I s) {a : α}
    (hr : run exec p s = (.ok a, s')) : Q a := by
  induction p generalizing s with
  | ret b => cases hr; exact h
  | raise e => cases congrArg Prod.fst hr
  | call o k ih =>
    obtain ⟨hans, hs'⟩ := hstep o s h.1 hs
    exact ih _ (h.2 _ hans) hs' hr

/-- Every operation of a run is one the program promised, performed in a state
that satisfies the invariant. -/
theorem All.trace_inv {p : Prog Op Ans ε α} (h : All φ ρ Q p) (I : σ → Prop)
    (hstep : ∀ o s, φ o → I s → ρ o (exec o s).1 ∧ I (exec o s).2) {s : σ} (hs : I s) :
    ∀ e ∈ trace exec p s, I e.1 ∧ φ e.2 := by
  induction p generalizing s with
  | ret a => intro e he; cases he
  | raise e => intro e he; cases he
  | call o k ih =>
    intro e he
    obtain ⟨hans, hs'⟩ := hstep o s h.1 hs
    rcases List.mem_cons.mp he with rfl | he
    · exact ⟨hs, h.1⟩
    · exact ih _ (h.2 _ hans) hs' e he

end All

/-! ## What a program raises -/

/-- Every exception that the program raises satisfies `φ`, whatever the answers. -/
def Raises (φ : ε → Prop) : Prog Op Ans ε α → Prop
  | ret _ => True
  | raise e => φ e
  | call _ k => ∀ a, Raises φ (k a)

section Raises

variable {φ : ε → Prop} {ψ : ε' → Prop}

theorem Raises.op (o : Op) : Raises φ (op o : Prog Op Ans ε (Ans o)) := fun _ => trivial

/-- The parts of a sequence raise what the sequence raises. -/
theorem Raises.bind {p : Prog Op Ans ε α} {f : α → Prog Op Ans ε β} (hp : Raises φ p)
    (hf : ∀ a, Raises φ (f a)) : Raises φ (p.bind f) := by
  induction p with
  | ret a => exact hf a
  | raise e => exact hp
  | call o k ih => exact fun a => ih a (hp a)

/-- What follows a `try` may rely on what the exception satisfies. -/
theorem Raises.attempt {p : Prog Op Ans ε α} {f : Except ε α → Prog Op Ans ε' β}
    (hp : Raises φ p) (hok : ∀ a, Raises ψ (f (.ok a)))
    (herror : ∀ e, φ e → Raises ψ (f (.error e))) : Raises ψ (p.attempt.bind f) := by
  induction p with
  | ret a => exact hok a
  | raise e => exact herror e hp
  | call o k ih => exact fun a => ih a (hp a)

theorem Raises.forEach {as : List β} {f : β → Prog Op Ans ε Unit} (h : ∀ a, Raises φ (f a)) :
    Raises φ (forEach as f) := by
  induction as with
  | nil => trivial
  | cons a as ih => exact (h a).bind fun _ => ih

/-- The exception that ends a run is one the program raises. -/
theorem Raises.run {exec : (o : Op) → σ → Ans o × σ} {p : Prog Op Ans ε α} (h : Raises φ p)
    {s s' : σ} {e : ε} (hr : run exec p s = (.error e, s')) : φ e := by
  induction p generalizing s with
  | ret a => cases congrArg Prod.fst hr
  | raise e' =>
    cases hr
    exact h
  | call o k ih => exact ih _ (h _) hr

end Raises

end Prog
