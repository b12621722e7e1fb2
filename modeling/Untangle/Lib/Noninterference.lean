import Untangle.Lib.Runs

/-!
# `Lib.Noninterference` — what one party learns of the others

A program of a party answers or raises, and what it has done is undone if it raises (`Tx`). It respects a relation if it
does the same on related states and ends in related ones, and guarantees another relation from its first state to its
last (`Respects`); the rules follow the constructs of a program.

A machine of such programs is noninterfering for a party (`noninterference`): the party gets the answers that it gets
when it is the only one, as far as its own steps respect a relation and the steps of the others do not leave it.
-/

namespace Lib

/-! ## Programs -/

/-- A program that answers, or raises and undoes what it has done. -/
abbrev Tx (σ ε α : Type) : Type := StateT σ (Except ε) α

/-- What is read from the state. -/
def ask {σ ε α : Type} (f : σ → α) : Tx σ ε α := fun s => .ok (f s, s)

/-- The same outcome, with related states where there are states. -/
inductive SameEnd {σ ε α : Type} (R : σ → σ → Prop) : Except ε (α × σ) → Except ε (α × σ) → Prop
  | ok (a : α) {s t : σ} (h : R s t) : SameEnd R (.ok (a, s)) (.ok (a, t))
  | error (e : ε) : SameEnd R (.error e) (.error e)

theorem SameEnd.cases {σ ε α : Type} {R : σ → σ → Prop} {x y : Except ε (α × σ)} (h : SameEnd R x y) :
    (∃ e, x = .error e ∧ y = .error e) ∨ ∃ a s t, x = .ok (a, s) ∧ y = .ok (a, t) ∧ R s t := by
  cases h with
  | ok a h => exact Or.inr ⟨a, _, _, rfl, rfl, h⟩
  | error e => exact Or.inl ⟨e, rfl, rfl⟩

theorem SameEnd.bind {σ ε α β : Type} {R : σ → σ → Prop} (x : Except ε β) {f g : β → Except ε (α × σ)}
    (h : ∀ b, SameEnd R (f b) (g b)) : SameEnd R (x >>= f) (x >>= g) := by
  cases x with
  | error e => exact .error e
  | ok b => exact h b

/-- A program does the same on related states, and guarantees something of what it does. -/
structure Respects {σ ε α : Type} (R G : σ → σ → Prop) (m : Tx σ ε α) : Prop where
  same : ∀ s t, R s t → SameEnd R (m.run s) (m.run t)
  frame : ∀ s a s', m.run s = .ok (a, s') → G s s'

section Programs

variable {σ ε α β : Type} {R G : σ → σ → Prop}

theorem Respects.pure (hrefl : ∀ s, G s s) (a : α) : Respects R G (pure a : Tx σ ε α) where
  same := fun _ _ h => .ok a h
  frame := by
    intro s b s' h
    obtain ⟨rfl, rfl⟩ := Prod.mk.inj (Except.ok.inj h)
    exact hrefl s

theorem Respects.throw (e : ε) : Respects R G (throw e : Tx σ ε α) where
  same := fun _ _ _ => .error e
  frame := fun _ _ _ h => by cases h

theorem Respects.bind (htrans : ∀ s t u, G s t → G t u → G s u) {m : Tx σ ε α} {f : α → Tx σ ε β}
    (hm : Respects R G m) (hf : ∀ a, Respects R G (f a)) : Respects R G (m >>= f) where
  same := by
    intro s t h
    rw [StateT.run_bind, StateT.run_bind]
    have hfirst := hm.same s t h
    generalize m.run s = x at hfirst
    generalize m.run t = y at hfirst
    cases hfirst with
    | ok a hnext => exact (hf a).same _ _ hnext
    | error e => exact .error e
  frame := by
    intro s b s' h
    rw [StateT.run_bind] at h
    cases hrun : m.run s with
    | error e =>
        rw [hrun] at h
        cases h
    | ok p =>
        rw [hrun] at h
        exact htrans _ _ _ (hm.frame s p.1 p.2 hrun) ((hf p.1).frame p.2 b s' h)

/-- Something that is read from the state, if it is the same in related states. -/
theorem Respects.ask (hrefl : ∀ s, G s s) {f : σ → α} (h : ∀ s t, R s t → f s = f t) :
    Respects R G (ask f : Tx σ ε α) where
  same := by
    intro s t hst
    show SameEnd R (.ok (f s, s)) (.ok (f t, t))
    rw [h s t hst]
    exact .ok _ hst
  frame := by
    intro s b s' hrun
    obtain ⟨_, rfl⟩ := Prod.mk.inj (Except.ok.inj hrun)
    exact hrefl s

/-- A change of the state. -/
theorem Respects.modify {f : σ → σ} (hsame : ∀ s t, R s t → R (f s) (f t)) (hframe : ∀ s, G s (f s)) :
    Respects R G (modify f : Tx σ ε PUnit) where
  same := fun s t h => .ok _ (hsame s t h)
  frame := by
    intro s b s' hrun
    obtain ⟨_, rfl⟩ := Prod.mk.inj (Except.ok.inj hrun)
    exact hframe s

theorem Respects.ite {c : Prop} [Decidable c] {m m' : Tx σ ε α} (hm : Respects R G m) (hm' : Respects R G m') :
    Respects R G (if c then m else m') := by
  split
  · exact hm
  · exact hm'

/-- A computation that does not touch the state. -/
theorem Respects.lift (hrefl : ∀ s, G s s) (x : Except ε α) : Respects R G (liftM x : Tx σ ε α) := by
  cases x with
  | error e => exact ⟨fun _ _ _ => .error e, fun _ _ _ h => by cases h⟩
  | ok a => exact Respects.pure hrefl a

theorem Respects.forM (hrefl : ∀ s, G s s) (htrans : ∀ s t u, G s t → G t u → G s u) {f : β → Tx σ ε PUnit}
    (hf : ∀ b, Respects R G (f b)) (bs : List β) : Respects R G (bs.forM f) := by
  induction bs with
  | nil => exact Respects.pure hrefl _
  | cons b bs ih => exact Respects.bind htrans (hf b) fun _ => ih

end Programs

/-! ## Machines -/

section Machines

variable {σ α δ ω : Type} (perform : α → σ → ω × σ) (who : α → δ) [DecidableEq δ]

/-- The state after a step. -/
def performed (s : σ) (a : α) : σ := (perform a s).2

/-- What a party is answered in a run. -/
def answers (d : δ) : σ → List α → List ω
  | _, [] => []
  | s, a :: actions =>
    if who a = d then (perform a s).1 :: answers d (performed perform s a) actions
    else answers d (performed perform s a) actions

/-- The steps of a party. -/
def stepsOf (d : δ) (actions : List α) : List α := actions.filter fun a => who a = d

/-- **Noninterference.** If the steps of a party answer the same in related states and lead to related ones, under a
    condition, and the steps of the others lead to a state that is still related, the party is answered as if it were
    the only one. -/
theorem noninterference {R : σ → σ → Prop} {C : σ → α → Prop} {d : δ}
    (hown : ∀ s t a, who a = d → R s t → C s a →
      (perform a s).1 = (perform a t).1 ∧ R (performed perform s a) (performed perform t a))
    (hothers : ∀ s t a, who a ≠ d → R s t → R (performed perform s a) t) {s t : σ} (hst : R s t) {actions : List α}
    (hmeets : Meets (performed perform) C s actions) :
    answers perform who d s actions = answers perform who d t (stepsOf who d actions) ∧
      R (run (performed perform) s actions) (run (performed perform) t (stepsOf who d actions)) := by
  induction actions generalizing s t with
  | nil => exact ⟨rfl, hst⟩
  | cons a actions ih =>
      by_cases ha : who a = d
      · obtain ⟨hanswer, hnext⟩ := hown s t a ha hst hmeets.1
        obtain ⟨hanswers, hend⟩ := ih hnext hmeets.2
        have hsteps : stepsOf who d (a :: actions) = a :: stepsOf who d actions :=
          List.filter_cons_of_pos (decide_eq_true ha)
        rw [hsteps, answers, answers, if_pos ha, if_pos ha, hanswer]
        exact ⟨congrArg _ hanswers, hend⟩
      · have hsteps : stepsOf who d (a :: actions) = stepsOf who d actions :=
          List.filter_cons_of_neg (by simpa using ha)
        rw [hsteps, answers, if_neg ha]
        exact ih (hothers s t a ha hst) hmeets.2

end Machines

end Lib
