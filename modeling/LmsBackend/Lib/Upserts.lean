import LmsBackend.Lib.Outcomes

/-!
# Programs that establish a goal

An upsert makes sure that something is there: it adds or corrects what is missing and leaves
what is as it should be. `Establishes I F same p G R s` says this of a program `p` run from
`s`: with the invariant `I` kept and no change but such as `F` allows, `G` holds afterwards;
where it held before, `p` does not fail and the state stays the `same`.

- `Establishes.again`: where the goal holds, the program may be run again.
- `Establishes.bind`, `Establishes.forEach`: sequences and loops establish the goals of all
  their parts if no part destroys what an earlier one has established.
-/

namespace Prog

variable {Op : Type} {Ans : Op → Type} {ε α β σ : Type} {exec : (o : Op) → σ → Ans o × σ}

/-- What the change from `s` to `s'` has done, for a program that returned `a`. -/
structure Established (I : σ → Prop) (F same : σ → σ → Prop) (G : σ → Prop) (R : α → σ → Prop)
    (s : σ) (a : α) (s' : σ) : Prop where
  inv : I s'
  frame : F s s'
  goal : G s'
  value : R a s'
  kept : G s → same s s'

/-- The program establishes `G`; it raises only where `G` does not hold yet. -/
def Establishes (exec : (o : Op) → σ → Ans o × σ) (I : σ → Prop) (F same : σ → σ → Prop)
    (p : Prog Op Ans ε α) (G : σ → Prop) (R : α → σ → Prop) (s : σ) : Prop :=
  Ends exec p s (Established I F same G R s) fun _ _ => ¬ G s

namespace Establishes

variable {I : σ → Prop} {F F₁ F₂ same : σ → σ → Prop} {G G₁ G₂ : σ → Prop} {R R₁ : α → σ → Prop}
  {s : σ}

/-- Where the goal holds already, the program returns and nothing has changed. -/
theorem again {p : Prog Op Ans ε α} (h : Establishes exec I F same p G R s) (hG : G s) :
    ∃ a s', run exec p s = (.ok a, s') ∧ Established I F same G R s a s' := by
  rcases hrun : run exec p s with ⟨r, s'⟩
  cases r with
  | ok a => exact ⟨a, s', rfl, Ends.ok h hrun⟩
  | error e => exact absurd hG (Ends.error h hrun)

/-- The goal may be stated in another way. -/
theorem restate {p : Prog Op Ans ε α} (h : Establishes exec I F same p G₁ R s)
    (hG : ∀ s, G₁ s ↔ G₂ s) : Establishes exec I F same p G₂ R s := by
  obtain rfl : G₁ = G₂ := funext fun s => propext (hG s)
  exact h

/-- The sequence rule: the second part must not destroy what the first one has established. -/
theorem bind {p : Prog Op Ans ε α} {f : α → Prog Op Ans ε β} {R₂ : β → σ → Prop}
    (hp : Establishes exec I F₁ same p G₁ R₁ s)
    (hf : ∀ a s', Established I F₁ same G₁ R₁ s a s' →
      Establishes exec I F₂ same (f a) G₂ R₂ s')
    (hkeep : ∀ s s', F₂ s s' → G₁ s → G₁ s')
    (hF : ∀ s s' s'', F₁ s s' → F₂ s' s'' → F s s'')
    (hsame : ∀ s s', same s s' → G₂ s → G₂ s')
    (htrans : ∀ s s' s'', same s s' → same s' s'' → same s s'') :
    Establishes exec I F same (p.bind f) (fun s => G₁ s ∧ G₂ s) R₂ s := by
  refine Ends.bind (Ends.mono hp (fun a s₁ h₁ => ?_) fun _ _ herror => mt And.left herror)
  refine Ends.mono (hf a s₁ h₁) (fun b s₂ h₂ => ?_) fun _ _ herror hG => ?_
  · refine ⟨h₂.inv, hF _ _ _ h₁.frame h₂.frame, ⟨hkeep _ _ h₂.frame h₁.goal, h₂.goal⟩, h₂.value,
      fun hG => ?_⟩
    have hfirst := h₁.kept hG.1
    exact htrans _ _ _ hfirst (h₂.kept (hsame _ _ hfirst hG.2))
  · -- the first part has changed nothing, so the second one found its goal too
    exact herror (hsame _ _ (h₁.kept hG.1) hG.2)

/-- The loop rule: no element's turn destroys what an earlier element's has established. The
induction is over the elements still to come. -/
theorem forEach {f : β → Prog Op Ans ε Unit} {G : β → σ → Prop} {as : List β}
    (hstep : ∀ b ∈ as, ∀ s', I s' → F s s' →
      Establishes exec I F same (f b) (G b) (fun _ _ => True) s')
    (hkeep : ∀ b ∈ as, ∀ s s', F s s' → G b s → G b s')
    (hrefl : ∀ s, F s s) (hF : ∀ s s' s'', F s s' → F s' s'' → F s s'')
    (hsame : ∀ b ∈ as, ∀ s s', same s s' → G b s → G b s') (hsrefl : ∀ s, same s s)
    (htrans : ∀ s s' s'', same s s' → same s' s'' → same s s'') (hI : I s) :
    Establishes exec I F same (Prog.forEach as f) (fun s => ∀ b ∈ as, G b s)
      (fun _ _ => True) s := by
  induction as generalizing s with
  | nil =>
    have hnone : ∀ b ∈ ([] : List β), G b s := by simp
    exact Ends.ret ⟨hI, hrefl s, hnone, trivial, fun _ => hsrefl s⟩
  | cons b as ih =>
    have hseq : Establishes exec I F same (Prog.forEach (b :: as) f)
        (fun s => G b s ∧ ∀ b' ∈ as, G b' s) (fun _ _ => True) s := by
      refine bind (hstep b List.mem_cons_self s hI (hrefl s)) (fun _ s' h => ?_)
        (hkeep b List.mem_cons_self) hF (fun s s' h hG b' hb' => ?_) htrans
      · refine ih (fun b' hb' s'' hI' hs'' => ?_) (fun b' hb' => ?_) (fun b' hb' => ?_) h.inv
        · exact hstep b' (List.mem_cons_of_mem b hb') s'' hI' (hF _ _ _ h.frame hs'')
        · exact hkeep b' (List.mem_cons_of_mem b hb')
        · exact hsame b' (List.mem_cons_of_mem b hb')
      · exact hsame b' (List.mem_cons_of_mem b hb') s s' h (hG b' hb')
    exact hseq.restate fun s => by rw [List.forall_mem_cons]

end Establishes

end Prog
