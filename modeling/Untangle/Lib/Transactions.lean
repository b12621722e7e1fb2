import Untangle.Lib.Fallible

/-!
# `Lib.Transactions` — statements that are committed together

A transaction runs its statements in order on a state and commits at the end. Each statement may fail by itself, and
any of them, or the commit, may be made to raise (`crash`, by position). What a transaction leaves behind is all or
nothing: if it returns, no crash was met and the state is the one that the statements make (`transaction_eq_ok`); what it
raises comes from a crash or from one statement (`transaction_eq_error`).
-/

namespace Lib

section Transactions

variable {σ ε : Type}

/-- A point at which an exception may be raised. -/
def crashAt (crash : Nat → Option ε) (i : Nat) : Except ε Unit :=
  match crash i with
  | some e => .error e
  | none => .ok ()

/-- The statements from a position on, and the commit. -/
def transaction (crash : Nat → Option ε) (i : Nat) : List (σ → Except ε σ) → σ → Except ε σ
  | [], s => do
    crashAt crash i
    return s
  | statement :: statements, s => do
    crashAt crash i
    let s' ← statement s
    transaction crash (i + 1) statements s'

theorem crashAt_eq_ok {crash : Nat → Option ε} {i : Nat} : crashAt crash i = .ok () ↔ crash i = none := by
  unfold crashAt
  cases crash i with
  | none => exact iff_of_true rfl rfl
  | some e => exact iff_of_false nofun nofun

/-- **All or nothing.** A transaction that returns has made every statement. -/
theorem transaction_eq_ok {crash : Nat → Option ε} {statements : List (σ → Except ε σ)} {i : Nat} {s s' : σ} :
    transaction crash i statements s = .ok s' ↔
      (∀ j ≤ statements.length, crash (i + j) = none) ∧
        statements.foldlM (fun s statement => statement s) s = .ok s' := by
  induction statements generalizing i s with
  | nil =>
      rw [transaction, bind_unit_eq_ok, crashAt_eq_ok]
      constructor
      · rintro ⟨hcrash, h⟩
        refine ⟨fun j hj => ?_, h⟩
        rw [Nat.le_zero.mp hj]
        exact hcrash
      · rintro ⟨hcrash, h⟩
        exact ⟨hcrash 0 (Nat.le_refl 0), h⟩
  | cons statement statements ih =>
      rw [transaction, bind_unit_eq_ok, crashAt_eq_ok, bind_eq_ok, List.foldlM_cons, bind_eq_ok]
      constructor
      · rintro ⟨hcrash, t, ht, h⟩
        obtain ⟨hrest, hfold⟩ := ih.mp h
        refine ⟨fun j hj => ?_, t, ht, hfold⟩
        cases j with
        | zero => exact hcrash
        | succ j =>
            rw [← Nat.add_assoc, Nat.add_right_comm]
            exact hrest j (Nat.le_of_succ_le_succ hj)
      · rintro ⟨hcrash, t, ht, hfold⟩
        refine ⟨hcrash 0 (Nat.zero_le _), t, ht, ih.mpr ⟨fun j hj => ?_, hfold⟩⟩
        rw [Nat.add_right_comm, Nat.add_assoc]
        exact hcrash (j + 1) (Nat.succ_le_succ hj)

theorem crashAt_eq_error {crash : Nat → Option ε} {i : Nat} {e : ε} :
    crashAt crash i = .error e ↔ crash i = some e := by
  unfold crashAt
  cases crash i with
  | none => exact iff_of_false nofun nofun
  | some e' => exact ⟨fun h => congrArg some (Except.error.inj h), fun h => congrArg Except.error (Option.some.inj h)⟩

/-- What a transaction raises is a crash, or is raised by a statement on a state that the statements before it made. -/
theorem transaction_eq_error {P : σ → Prop} {crash : Nat → Option ε} {e : ε} {statements : List (σ → Except ε σ)}
    (hkeeps : ∀ statement ∈ statements, ∀ s s', P s → statement s = .ok s' → P s') {i : Nat} {s : σ} (hs : P s)
    (h : transaction crash i statements s = .error e) :
    (∃ j, crash j = some e) ∨ ∃ statement ∈ statements, ∃ s, P s ∧ statement s = .error e := by
  induction statements generalizing i s with
  | nil =>
      rcases bind_eq_error.mp h with hcrash | ⟨_, _, h⟩
      · exact Or.inl ⟨i, crashAt_eq_error.mp hcrash⟩
      · cases h
  | cons statement statements ih =>
      rcases bind_eq_error.mp h with hcrash | ⟨_, _, h⟩
      · exact Or.inl ⟨i, crashAt_eq_error.mp hcrash⟩
      · rcases bind_eq_error.mp h with herror | ⟨t, ht, h⟩
        · exact Or.inr ⟨statement, List.mem_cons_self, s, hs, herror⟩
        · have hrest := ih (fun other hother => hkeeps other (List.mem_cons_of_mem statement hother))
            (hkeeps statement List.mem_cons_self s t hs ht) h
          rcases hrest with hcrash | ⟨other, hother, u, hu, herror⟩
          · exact Or.inl hcrash
          · exact Or.inr ⟨other, List.mem_cons_of_mem statement hother, u, hu, herror⟩

end Transactions

end Lib
