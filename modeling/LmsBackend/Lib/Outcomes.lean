import LmsBackend.Lib.Prog

/-!
# How a run ends

`Ends exec p s Q E` says how the run of `p` from `s` ends: with a value and a state as `Q`
says, or with an exception and a state as `E` says. The rules follow the program:
`Ends.bind` hands the state of the first part to the second, and an exception of either part
is an exception of both; `Ends.forEach` carries an invariant over the elements still to come.
-/

namespace Prog

variable {Op : Type} {Ans : Op → Type} {ε α β σ : Type} {exec : (o : Op) → σ → Ans o × σ}
  {s s' : σ} {Q Q' : α → σ → Prop} {E E' : ε → σ → Prop}

/-- The run from `s` returns as `Q` says, or raises as `E` says. -/
def Ends (exec : (o : Op) → σ → Ans o × σ) (p : Prog Op Ans ε α) (s : σ) (Q : α → σ → Prop)
    (E : ε → σ → Prop) : Prop :=
  match run exec p s with
  | (.ok a, s') => Q a s'
  | (.error e, s') => E e s'

namespace Ends

theorem ret {a : α} (h : Q a s) : Ends exec (.ret a : Prog Op Ans ε α) s Q E := h

theorem raise {e : ε} (h : E e s) : Ends exec (.raise e : Prog Op Ans ε α) s Q E := h

/-- A run that is known to return. -/
theorem of_ok {p : Prog Op Ans ε α} {a : α} (hrun : run exec p s = (.ok a, s')) (h : Q a s') :
    Ends exec p s Q E := by
  unfold Ends
  rw [hrun]
  exact h

/-- A run that is known to raise. -/
theorem of_error {p : Prog Op Ans ε α} {e : ε} (hrun : run exec p s = (.error e, s'))
    (h : E e s') : Ends exec p s Q E := by
  unfold Ends
  rw [hrun]
  exact h

theorem ok {p : Prog Op Ans ε α} {a : α} (h : Ends exec p s Q E)
    (hrun : run exec p s = (.ok a, s')) : Q a s' := by
  unfold Ends at h
  rw [hrun] at h
  exact h

theorem error {p : Prog Op Ans ε α} {e : ε} (h : Ends exec p s Q E)
    (hrun : run exec p s = (.error e, s')) : E e s' := by
  unfold Ends at h
  rw [hrun] at h
  exact h

theorem mono {p : Prog Op Ans ε α} (h : Ends exec p s Q E) (hQ : ∀ a s', Q a s' → Q' a s')
    (hE : ∀ e s', E e s' → E' e s') : Ends exec p s Q' E' := by
  rcases hrun : run exec p s with ⟨r, s'⟩
  cases r with
  | ok a => exact of_ok hrun (hQ a s' (h.ok hrun))
  | error e => exact of_error hrun (hE e s' (h.error hrun))

/-- Where a program is known to end one way, it ends another way exactly if every end does. -/
theorem iff_of {p : Prog Op Ans ε α} {φ : Prop} (h : Ends exec p s Q E)
    (hok : ∀ a s', Q a s' → (Q' a s' ↔ φ)) (herror : ∀ e s', E e s' → (E' e s' ↔ φ)) :
    Ends exec p s Q' E' ↔ φ := by
  rcases hrun : run exec p s with ⟨r, s'⟩
  cases r with
  | ok a =>
    refine Iff.trans ⟨fun h' => h'.ok hrun, of_ok hrun⟩ (hok a s' (h.ok hrun))
  | error e =>
    refine Iff.trans ⟨fun h' => h'.error hrun, of_error hrun⟩ (herror e s' (h.error hrun))

/-- A sequence ends as its second part does, from where the first one ends. -/
theorem bind {p : Prog Op Ans ε α} {f : α → Prog Op Ans ε β} {Q : β → σ → Prop}
    (h : Ends exec p s (fun a s' => Ends exec (f a) s' Q E) E) : Ends exec (p.bind f) s Q E := by
  rcases hrun : run exec p s with ⟨r, s'⟩
  cases r with
  | ok a =>
    have hrest := h.ok hrun
    unfold Ends at hrest ⊢
    rw [run_bind_ok hrun]
    exact hrest
  | error e => exact of_error (run_bind_error hrun) (h.error hrun)

/-- Whatever a program returns may be dropped. -/
theorem discard {p : Prog Op Ans ε α} (h : Ends exec p s (fun _ _ => True) E) :
    Ends exec (p.bind fun _ => .ret ()) s (fun _ _ => True) E :=
  bind (h.mono (fun _ _ _ => ret trivial) fun _ _ he => he)

/-- A sequence whose first part is known to return. -/
theorem bind_ok {p : Prog Op Ans ε α} {f : α → Prog Op Ans ε β} {Q : β → σ → Prop} {a : α}
    (hrun : run exec p s = (.ok a, s')) (h : Ends exec (f a) s' Q E) :
    Ends exec (p.bind f) s Q E :=
  bind (of_ok hrun h)

/-- A loop, by an invariant of the elements still to come: the induction is over them. -/
theorem forEach {I : List β → σ → Prop} {f : β → Prog Op Ans ε Unit} {as : List β}
    (hstep : ∀ a rest s, I (a :: rest) s → Ends exec (f a) s (fun _ s' => I rest s') E)
    (h : I as s) : Ends exec (Prog.forEach as f) s (fun _ s' => I [] s') E := by
  induction as generalizing s with
  | nil => exact ret h
  | cons a rest ih => exact bind ((hstep a rest s h).mono (fun _ _ hI => ih hI) fun _ _ he => he)

end Ends

end Prog
