import Mathlib.Data.List.Basic

/-!
# `Lib.Runs` — runs of a state machine

A machine is a total step function: an action that is not possible in a state leaves it as it is. A run is a list of
actions, so statements over runs are proved by induction on it. `run_invariant` is the induction, under a condition
that every step of the run meets in the state it is taken in (`Meets`); `occurrences_le_one` counts the steps that
bring about something that stays; `simulates` carries a run of one machine over to another.
-/

namespace Lib

section Runs

variable {σ α : Type} (step : σ → α → σ)

/-- The state after a run. -/
def run (s : σ) (actions : List α) : σ := actions.foldl step s

@[simp] theorem run_nil (s : σ) : run step s [] = s := rfl

@[simp] theorem run_cons (s : σ) (a : α) (actions : List α) : run step s (a :: actions) = run step (step s a) actions :=
  rfl

theorem run_append (s : σ) (actions more : List α) :
    run step s (actions ++ more) = run step (run step s actions) more := List.foldl_append

/-- Every step of a run meets a condition on the state it is taken in. -/
def Meets (C : σ → α → Prop) : σ → List α → Prop
  | _, [] => True
  | s, a :: actions => C s a ∧ Meets C (step s a) actions

instance decidableMeets {C : σ → α → Prop} [∀ s a, Decidable (C s a)] :
    ∀ (s : σ) (actions : List α), Decidable (Meets step C s actions)
  | _, [] => inferInstanceAs (Decidable True)
  | s, a :: actions =>
    have : Decidable (Meets step C (step s a) actions) := decidableMeets _ _
    inferInstanceAs (Decidable (C s a ∧ Meets step C (step s a) actions))

theorem meets_of_forall {C : σ → α → Prop} (h : ∀ s a, C s a) (s : σ) (actions : List α) :
    Meets step C s actions := by
  induction actions generalizing s with
  | nil => trivial
  | cons a actions ih => exact ⟨h s a, ih (step s a)⟩

theorem meets_of_forall_mem {A : α → Prop} (s : σ) {actions : List α} (h : ∀ a ∈ actions, A a) :
    Meets step (fun _ a => A a) s actions := by
  induction actions generalizing s with
  | nil => trivial
  | cons a actions ih => exact ⟨h a List.mem_cons_self, ih (step s a) fun a' ha' => h a' (List.mem_cons_of_mem _ ha')⟩

theorem meets_mono {C D : σ → α → Prop} (hmono : ∀ s a, C s a → D s a) {s : σ} {actions : List α}
    (h : Meets step C s actions) : Meets step D s actions := by
  induction actions generalizing s with
  | nil => trivial
  | cons a actions ih => exact ⟨hmono s a h.1, ih h.2⟩

theorem meets_append {C : σ → α → Prop} {s : σ} {actions more : List α} (h : Meets step C s (actions ++ more)) :
    Meets step C s actions ∧ Meets step C (run step s actions) more := by
  induction actions generalizing s with
  | nil => exact ⟨trivial, h⟩
  | cons a actions ih =>
      obtain ⟨hactions, hmore⟩ := ih h.2
      exact ⟨⟨h.1, hactions⟩, hmore⟩

/-- **An invariant of the steps is one of the runs**, under a condition on the steps. -/
theorem run_invariant {I : σ → Prop} {C : σ → α → Prop} (hstep : ∀ s a, I s → C s a → I (step s a)) {s : σ}
    (hs : I s) {actions : List α} (hmeets : Meets step C s actions) : I (run step s actions) := by
  induction actions generalizing s with
  | nil => exact hs
  | cons a actions ih => exact ih (hstep s a hs hmeets.1) hmeets.2

/-- The same without a condition. -/
theorem run_keeps {I : σ → Prop} (hstep : ∀ s a, I s → I (step s a)) {s : σ} (hs : I s) (actions : List α) :
    I (run step s actions) := by
  induction actions generalizing s with
  | nil => exact hs
  | cons a actions ih => exact ih (hstep s a hs)

/-- What an invariant says of a step, every step of a run meets. -/
theorem meets_of_invariant {I : σ → Prop} {C D : σ → α → Prop} (hstep : ∀ s a, I s → C s a → I (step s a))
    (hD : ∀ s a, I s → C s a → D s a) {s : σ} (hs : I s) {actions : List α} (hmeets : Meets step C s actions) :
    Meets step D s actions := by
  induction actions generalizing s with
  | nil => trivial
  | cons a actions ih => exact ⟨hD s a hs hmeets.1, ih (hstep s a hs hmeets.1) hmeets.2⟩

theorem meets_congr {C D : σ → α → Prop} (h : ∀ s a, C s a ↔ D s a) (s : σ) (actions : List α) :
    Meets step C s actions ↔ Meets step D s actions := by
  induction actions generalizing s with
  | nil => exact Iff.rfl
  | cons a actions ih => exact and_congr (h s a) (ih (step s a))

/-- What holds between any two states of a run, the earlier one first. -/
def Throughout (R : σ → σ → Prop) (s : σ) (actions : List α) : Prop :=
  ∀ before middle after, actions = before ++ middle ++ after →
    R (run step s before) (run step s (before ++ middle))

/-- **A preorder holds throughout a run exactly if it holds over every step of it.** -/
theorem throughout_iff_meets {R : σ → σ → Prop} (hrefl : ∀ s, R s s) (htrans : ∀ s t u, R s t → R t u → R s u)
    (s : σ) (actions : List α) :
    Throughout step R s actions ↔ Meets step (fun s a => R s (step s a)) s actions := by
  constructor
  · intro h
    induction actions generalizing s with
    | nil => trivial
    | cons a actions ih =>
        refine ⟨h [] [a] actions rfl, ih (step s a) ?_⟩
        rintro before middle after rfl
        exact h (a :: before) middle after rfl
  · rintro h before middle after rfl
    induction before generalizing s with
    | cons a before ih => exact ih (step s a) h.2
    | nil =>
        induction middle generalizing s with
        | nil => exact hrefl s
        | cons a middle ih => exact htrans _ _ _ h.1 (ih (step s a) h.2)

/-- **A property holds in every state of a run exactly if every step meets a condition**, where an invariant that
    implies the property is kept by the steps that meet it, and the property is lost with any other step. -/
theorem always_iff_meets {I P : σ → Prop} {C : σ → α → Prop} {A : α → Prop} (hholds : ∀ s, I s → P s)
    (hkeeps : ∀ s a, A a → I s → C s a → I (step s a)) (hloses : ∀ s a, A a → I s → ¬ C s a → ¬ P (step s a)) {s : σ}
    (hs : I s) {actions : List α} (hactions : ∀ a ∈ actions, A a) :
    (∀ before after, actions = before ++ after → P (run step s before)) ↔ Meets step C s actions := by
  induction actions generalizing s with
  | nil =>
      refine iff_of_true ?_ trivial
      intro before after h
      obtain ⟨rfl, _⟩ := List.append_eq_nil_iff.mp h.symm
      exact hholds s hs
  | cons a actions ih =>
      have ha : A a := hactions a List.mem_cons_self
      have hrest : ∀ a' ∈ actions, A a' := fun a' h => hactions a' (List.mem_cons_of_mem _ h)
      constructor
      · intro h
        have hC : C s a := by
          by_contra hC
          exact hloses s a ha hs hC (h [a] actions rfl)
        refine ⟨hC, (ih (hkeeps s a ha hs hC) hrest).mp ?_⟩
        rintro before after rfl
        exact h (a :: before) after rfl
      · rintro ⟨hC, hmeets⟩ before after h
        cases before with
        | nil => exact hholds s hs
        | cons b before =>
            obtain ⟨rfl, rfl⟩ := List.cons.inj h
            exact (ih (hkeeps s a ha hs hC) hrest).mpr hmeets before after rfl

/-- The states that a machine can come to. -/
def Reachable (init s : σ) : Prop := ∃ actions, run step init actions = s

theorem Reachable.invariant {I : σ → Prop} (hstep : ∀ s a, I s → I (step s a)) {init s : σ} (hinit : I init)
    (h : Reachable step init s) : I s := by
  obtain ⟨actions, rfl⟩ := h
  exact run_keeps step hstep hinit actions

/-- How many steps of a run are of a kind. -/
def occurrences (E : σ → α → Bool) : σ → List α → Nat
  | _, [] => 0
  | s, a :: actions => (if E s a then 1 else 0) + occurrences E (step s a) actions

theorem occurrences_eq_zero {E : σ → α → Bool} {D : σ → Prop} (hkeeps : ∀ s a, D s → D (step s a))
    (hbefore : ∀ s a, D s → E s a = false) {s : σ} (hs : D s) (actions : List α) :
    occurrences step E s actions = 0 := by
  induction actions generalizing s with
  | nil => rfl
  | cons a actions ih =>
      rw [occurrences, hbefore s a hs, ih (hkeeps s a hs)]
      rfl

/-- **What stays once it has come about comes about at most once**, under a condition on the steps. -/
theorem occurrences_le_one_of_meets {E : σ → α → Bool} {C : σ → α → Prop} {D : σ → Prop}
    (hkeeps : ∀ s a, D s → D (step s a)) (hbefore : ∀ s a, D s → E s a = false)
    (hafter : ∀ s a, C s a → E s a = true → D (step s a)) {s : σ} {actions : List α}
    (hmeets : Meets step C s actions) : occurrences step E s actions ≤ 1 := by
  induction actions generalizing s with
  | nil => exact Nat.zero_le 1
  | cons a actions ih =>
      rw [occurrences]
      cases hE : E s a with
      | true =>
          rw [occurrences_eq_zero step hkeeps hbefore (hafter s a hmeets.1 hE)]
          exact Nat.le_refl 1
      | false =>
          rw [if_neg Bool.false_ne_true, Nat.zero_add]
          exact ih hmeets.2

/-- The same without a condition. -/
theorem occurrences_le_one {E : σ → α → Bool} {D : σ → Prop} (hkeeps : ∀ s a, D s → D (step s a))
    (hbefore : ∀ s a, D s → E s a = false) (hafter : ∀ s a, E s a = true → D (step s a)) (s : σ) (actions : List α) :
    occurrences step E s actions ≤ 1 :=
  occurrences_le_one_of_meets step hkeeps hbefore (fun s a _ => hafter s a)
    (meets_of_forall step (C := fun _ _ => True) (fun _ _ => trivial) s actions)

/-- **Simulation.** If every step of a machine, from the states that it can come to, is seen as a step of another or as
    none, its runs are runs of the other. -/
theorem simulates {τ β : Type} {step' : τ → β → τ} {view : τ → σ} {I : τ → Prop}
    (hkeeps : ∀ t b, I t → I (step' t b))
    (hstep : ∀ t b, I t → view (step' t b) = view t ∨ ∃ a, view (step' t b) = step (view t) a) {t : τ} (ht : I t)
    (actions : List β) : ∃ seen, view (run step' t actions) = run step (view t) seen := by
  induction actions generalizing t with
  | nil => exact ⟨[], rfl⟩
  | cons b actions ih =>
      obtain ⟨seen, hseen⟩ := ih (hkeeps t b ht)
      rcases hstep t b ht with h | ⟨a, h⟩
      · exact ⟨seen, by rw [run_cons, hseen, h]⟩
      · exact ⟨a :: seen, by rw [run_cons, hseen, h, run_cons]⟩

end Runs

end Lib
