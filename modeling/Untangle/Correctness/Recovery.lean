import Mathlib.Algebra.Order.BigOperators.Group.List
import Mathlib.Tactic.Positivity
import Untangle.Engine.Recovery

/-!
# `Correctness.Recovery` — the amounts of a recovery plan

An amount of a plan is a sum of parts of line amounts, the part that a line would bring in or the part that it took
out. Neither part is ever negative, whatever lines the plan is made of (`buildRecoveryPlan_amounts`).
-/

namespace Untangle

open Lib

theorem creditPart_nonneg (paise : ℤ) : 0 ≤ creditPart paise := le_max_left 0 paise

theorem debitPart_nonneg (paise : ℤ) : 0 ≤ debitPart paise := le_max_left 0 (-paise)

/-- What a line brings in less what it takes out is its amount. -/
theorem creditPart_sub_debitPart (paise : ℤ) : creditPart paise - debitPart paise = paise := by
  unfold creditPart debitPart
  omega

theorem sum_map_nonneg {α : Type} {part : α → ℤ} (h : ∀ a, 0 ≤ part a) (l : List α) : 0 ≤ (l.map part).sum := by
  apply List.sum_nonneg
  intro n hn
  obtain ⟨a, _, rfl⟩ := List.mem_map.mp hn
  exact h a

/-- The amounts of an action. -/
structure RecoveryAction.Amounts (a : RecoveryAction) : Prop where
  recoverable : 0 ≤ a.recoverablePaise
  exposure : 0 ≤ a.debitExposurePaise
  gain : 0 ≤ a.gainPerCost

theorem ActionType.cost_pos (t : ActionType) : 0 < t.cost := by
  cases t <;> norm_num [ActionType.cost]

theorem ActionGroup.amounts_action (g : ActionGroup) : g.action.Amounts where
  recoverable := sum_map_nonneg creditPart_nonneg g.amounts
  exposure := sum_map_nonneg debitPart_nonneg g.amounts
  gain := by
    have hrecoverable : (0 : ℚ) ≤ ((g.amounts.map creditPart).sum : ℤ) := by
      exact_mod_cast sum_map_nonneg creditPart_nonneg g.amounts
    unfold ActionGroup.action
    dsimp only
    rw [if_pos g.actionType.cost_pos]
    exact div_nonneg hrecoverable g.actionType.cost_pos.le

/-- The amounts of a plan. -/
structure RecoveryPlan.Amounts (plan : RecoveryPlan) : Prop where
  actions : ∀ a ∈ plan.actions, a.Amounts
  recoverable : 0 ≤ plan.recoverableIfActionedPaise
  credit : 0 ≤ plan.unresolvedCreditPaise
  debit : 0 ≤ plan.unresolvedDebitPaise
  /-- The signed amount of the unresolved lines is what they bring in less what they take out. -/
  net : plan.unresolvedPaise = plan.unresolvedCreditPaise - plan.unresolvedDebitPaise

/-- The kept actions come first in the ranking. -/
theorem prefix_actions_planOf (lines unresolved : List BankCreditLine) (maxActions : ℤ) (groups : List ActionGroup) :
    (planOf lines unresolved maxActions groups).actions <+:
      (groups.map ActionGroup.action).insertionSort fun a b => a.rankKey ≤ b.rankKey := by
  unfold planOf sliceTo
  dsimp only
  split
  · exact List.take_prefix _ _
  · exact List.prefix_rfl

theorem amounts_planOf (lines unresolved : List BankCreditLine) (maxActions : ℤ) (groups : List ActionGroup) :
    (planOf lines unresolved maxActions groups).Amounts where
  actions := by
    intro a ha
    have hranked := (List.perm_insertionSort _ _).mem_iff.mp
      ((prefix_actions_planOf lines unresolved maxActions groups).subset ha)
    obtain ⟨g, _, rfl⟩ := List.mem_map.mp hranked
    exact g.amounts_action
  recoverable := sum_map_nonneg (fun line : BankCreditLine => creditPart_nonneg line.amountPaise) _
  credit := sum_map_nonneg creditPart_nonneg _
  debit := sum_map_nonneg debitPart_nonneg _
  net := by
    unfold planOf
    dsimp only
    induction unresolved with
    | nil => rfl
    | cons line unresolved ih =>
        have hline := creditPart_sub_debitPart line.amountPaise
        simp only [List.map_cons, List.sum_cons]
        omega

/-- **No amount of a plan is negative.** -/
theorem buildRecoveryPlan_amounts {U : Unicode} {pack : NarrationEvidencePack} {index : ReconIndex}
    {lines : List BankCreditLine} {attributions : List RailAttribution} {exceptions : List ExceptionRecord}
    {maxActions : ℤ} {plan : RecoveryPlan}
    (h : buildRecoveryPlan U pack index lines attributions exceptions maxActions = .ok plan) : plan.Amounts := by
  unfold buildRecoveryPlan at h
  dsimp only at h
  split at h
  · obtain rfl := Except.ok.inj h
    exact ⟨fun _ ha => absurd ha List.not_mem_nil, le_rfl, le_rfl, le_rfl, rfl⟩
  · obtain ⟨mapped, _, hplan⟩ := bind_eq_ok.mp h
    obtain rfl := Except.ok.inj hplan
    exact amounts_planOf _ _ _ _

end Untangle
