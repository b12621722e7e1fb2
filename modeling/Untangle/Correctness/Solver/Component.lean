import Mathlib.Algebra.Order.Group.Synonym
import Mathlib.Algebra.Order.BigOperators.Group.List
import Untangle.Correctness.Solver.Graph
import Untangle.Engine.Solver

/-!
# `Correctness.Solver.Component` — one component is solved to optimality

What the search of a component chooses among is a set of candidates that assigns every credit once and uses no
settlement twice (`Feasible`), or the fallback to abstentions. A search that is not cut off returns a cheapest of
them (`solveComponent_optimal`): the runs of the search are the feasible sets in some order (`run_feasible`,
`Feasible.run`), and the two leading components of the cost never fall along a run, so the pruning is sound.
-/

namespace Untangle

open Lib

/-! ## Costs as an ordered group -/

/-- The rational components have four decimals. -/
def OnGrid (a : Cost) : Prop := IsDecimal 4 a.negEvidence ∧ IsDecimal 4 a.ops

theorem OnGrid.zero : OnGrid 0 := ⟨IsDecimal.zero, IsDecimal.zero⟩

theorem OnGrid.add {a b : Cost} (ha : OnGrid a) (hb : OnGrid b) : OnGrid (a + b) :=
  ⟨ha.1.add hb.1, ha.2.add hb.2⟩

theorem CostOk.onGrid {c : CandidateAssignment} (h : CostOk c) : OnGrid c.cost := ⟨h.evidence, h.ops⟩

/-- On the grid the rounded sum is the sum. -/
theorem addCosts_eq {a b : Cost} (ha : OnGrid a) (hb : OnGrid b) : addCosts a b = a + b := by
  unfold addCosts
  rw [roundTo_add ha.1 hb.1, roundTo_add ha.2 hb.2]
  rfl

/-- The exact cost of a set of candidates. -/
def sumCost (A : List CandidateAssignment) : Cost := (A.map CandidateAssignment.cost).sum

theorem sumCost_cons (c : CandidateAssignment) (A : List CandidateAssignment) :
    sumCost (c :: A) = c.cost + sumCost A := List.sum_cons

theorem sumCost_append (A B : List CandidateAssignment) : sumCost (A ++ B) = sumCost A + sumCost B := by
  unfold sumCost
  rw [List.map_append, List.sum_append]

theorem sumCost_perm {A B : List CandidateAssignment} (h : A.Perm B) : sumCost A = sumCost B :=
  (h.map _).sum_eq

theorem onGrid_sumCost {A : List CandidateAssignment} (h : ∀ c ∈ A, OnGrid c.cost) : OnGrid (sumCost A) := by
  induction A with
  | nil => exact OnGrid.zero
  | cons c A ih =>
      rw [sumCost_cons]
      exact (h c List.mem_cons_self).add (ih fun c' hc' => h c' (List.mem_cons_of_mem _ hc'))

/-- The running total of a path. -/
theorem foldl_addCosts {A : List CandidateAssignment} (h : ∀ c ∈ A, OnGrid c.cost) {cost : Cost}
    (hcost : OnGrid cost) : A.foldl (fun cost c => addCosts cost c.cost) cost = cost + sumCost A := by
  induction A generalizing cost with
  | nil => exact (add_zero cost).symm
  | cons c A ih =>
      have hc : OnGrid c.cost := h c List.mem_cons_self
      rw [List.foldl_cons, addCosts_eq hcost hc, ih (fun c' hc' => h c' (List.mem_cons_of_mem _ hc'))
        (hcost.add hc), sumCost_cons, add_assoc]

theorem totalCost_eq {A : List CandidateAssignment} (h : ∀ c ∈ A, OnGrid c.cost) : totalCost A = sumCost A := by
  unfold totalCost
  rw [show zeroCost = 0 from rfl, foldl_addCosts h OnGrid.zero, zero_add]

/-- The overall objective cost is the exact sum as well. -/
theorem objectiveCost_eq {A : List CandidateAssignment} (h : ∀ c ∈ A, OnGrid c.cost) :
    objectiveCost A = sumCost A := by
  have hparts : ∀ A : List CandidateAssignment,
      sumCost A = Cost.mk (A.map fun c => c.cost.invalid).sum (A.map fun c => c.cost.unexplained).sum
        (A.map fun c => c.cost.residual).sum (A.map fun c => c.cost.negEvidence).sum
        (A.map fun c => c.cost.ops).sum := by
    intro A
    induction A with
    | nil => rfl
    | cons c A ih =>
        rw [sumCost_cons, ih]
        rfl
  have hgrid := onGrid_sumCost h
  rw [hparts A] at hgrid ⊢
  have hevidence : IsDecimal 4 (A.map fun c => c.cost.negEvidence).sum := hgrid.1
  have hops : IsDecimal 4 (A.map fun c => c.cost.ops).sum := hgrid.2
  unfold objectiveCost
  rw [roundTo_of_isDecimal hevidence, roundTo_of_isDecimal hops]

/-- A difference in the leading components decides. -/
theorem Cost.lt_of_hardest_lt {a b : Cost} (h : a.hardest < b.hardest) : a < b := by
  unfold Cost.hardest at h
  rw [Prod.Lex.lt_iff] at h ⊢
  rcases h with h | ⟨h₁, h₂⟩
  · exact Or.inl h
  · refine Or.inr ⟨h₁, ?_⟩
    rw [Prod.Lex.lt_iff]
    exact Or.inl h₂

theorem Cost.harder_le_of_le {a b : Cost} (h : a ≤ b) : a.harder ≤ b.harder := by
  by_contra hlt
  rw [not_le] at hlt
  refine absurd h (not_le.mpr ?_)
  unfold Cost.harder at hlt
  rw [Prod.Lex.lt_iff] at hlt ⊢
  rcases hlt with h₁ | ⟨h₁, hlt⟩
  · exact Or.inl h₁
  refine Or.inr ⟨h₁, ?_⟩
  rw [Prod.Lex.lt_iff] at hlt ⊢
  rcases hlt with h₂ | ⟨h₂, h₃⟩
  · exact Or.inl h₂
  refine Or.inr ⟨h₂, ?_⟩
  rw [Prod.Lex.lt_iff]
  exact Or.inl h₃

theorem CostOk.hardest_nonneg {c : CandidateAssignment} (h : CostOk c) : 0 ≤ c.cost.hardest := by
  unfold Cost.hardest
  rw [Prod.Lex.le_iff]
  refine Or.inr ⟨h.invalid.symm, ?_⟩
  rcases h.unexplained with hzero | hpos
  · exact hzero.ge
  · exact hpos.1.le

/-! ## Feasible sets -/

/-- Two candidates without a credit in common. -/
def KeysApart (c c' : CandidateAssignment) : Prop := List.Disjoint c.creditKeys c'.creditKeys

/-- Two candidates without a settlement in common. -/
def TargetsApart (g : AssignmentGraph) (c c' : CandidateAssignment) : Prop :=
  c.targetId ∈ g.settlements.keys → c'.targetId ≠ c.targetId

instance : Std.Symm KeysApart := ⟨fun _ _ h => List.Disjoint.symm h⟩

instance (g : AssignmentGraph) : Std.Symm (TargetsApart g) :=
  ⟨fun _ _ h hin heq => h (heq ▸ hin) heq.symm⟩

/-- A set of candidates that assigns each of the credits once, uses no barred settlement and none twice, and
    contains no excluded candidate. -/
structure Feasible (g : AssignmentGraph) (barred excluded keys : List String)
    (A : List CandidateAssignment) : Prop where
  mem : ∀ c ∈ A, c ∈ g.candidates
  allowed : ∀ c ∈ A, c.assignmentId ∉ excluded
  fresh : ∀ c ∈ A, c.targetId ∈ g.settlements.keys → c.targetId ∉ barred
  covers : ∀ k, k ∈ keys ↔ ∃ c ∈ A, k ∈ c.creditKeys
  disjoint : A.Pairwise KeysApart
  distinct : A.Pairwise (TargetsApart g)

section Feasible

variable {g : AssignmentGraph} {barred barred' excluded keys keys' : List String}
  {A B : List CandidateAssignment} {c : CandidateAssignment}

theorem Feasible.perm (h : Feasible g barred excluded keys A) (hperm : A.Perm B) :
    Feasible g barred excluded keys B where
  mem c hc := h.mem c (hperm.symm.subset hc)
  allowed c hc := h.allowed c (hperm.symm.subset hc)
  fresh c hc := h.fresh c (hperm.symm.subset hc)
  covers k := by
    rw [h.covers k]
    simp only [hperm.mem_iff]
  disjoint := (hperm.pairwise_iff fun h => Std.Symm.symm _ _ h).mp h.disjoint
  distinct := (hperm.pairwise_iff fun h => Std.Symm.symm _ _ h).mp h.distinct

theorem Feasible.congr_keys (h : Feasible g barred excluded keys A) (hkeys : ∀ k, k ∈ keys' ↔ k ∈ keys) :
    Feasible g barred excluded keys' A :=
  ⟨h.mem, h.allowed, h.fresh, fun k => (hkeys k).trans (h.covers k), h.disjoint, h.distinct⟩

theorem mem_remaining {k : String} : k ∈ remaining keys c ↔ k ∈ keys ∧ k ∉ c.creditKeys := by
  unfold remaining
  rw [List.mem_filter, decide_eq_true_eq]

/-- A feasible set, one candidate at a time: the way the search builds it. -/
theorem feasible_cons : Feasible g barred excluded keys (c :: A) ↔
    (c ∈ g.candidates ∧ c.assignmentId ∉ excluded ∧ (c.targetId ∈ g.settlements.keys → c.targetId ∉ barred) ∧
      c.creditKeys ⊆ keys) ∧
    Feasible g (if c.targetId ∈ g.settlements.keys then c.targetId :: barred else barred) excluded
      (remaining keys c) A := by
  constructor
  · intro h
    have hdisj := List.pairwise_cons.mp h.disjoint
    have hdist := List.pairwise_cons.mp h.distinct
    refine ⟨⟨h.mem c List.mem_cons_self, h.allowed c List.mem_cons_self, h.fresh c List.mem_cons_self,
      fun k hk => (h.covers k).mpr ⟨c, List.mem_cons_self, hk⟩⟩, ?_⟩
    refine ⟨fun c' hc' => h.mem c' (List.mem_cons_of_mem _ hc'),
      fun c' hc' => h.allowed c' (List.mem_cons_of_mem _ hc'), ?_, ?_, hdisj.2, hdist.2⟩
    · intro c' hc' hin
      have hfresh := h.fresh c' (List.mem_cons_of_mem _ hc') hin
      split
      · rename_i htarget
        exact List.not_mem_cons_of_ne_of_not_mem (hdist.1 c' hc' htarget) hfresh
      · exact hfresh
    · intro k
      rw [mem_remaining, h.covers k]
      constructor
      · rintro ⟨⟨c', hc', hk⟩, hnot⟩
        rcases List.mem_cons.mp hc' with rfl | hc'
        · exact absurd hk hnot
        · exact ⟨c', hc', hk⟩
      · rintro ⟨c', hc', hk⟩
        exact ⟨⟨c', List.mem_cons_of_mem _ hc', hk⟩, fun hkc => hdisj.1 c' hc' hkc hk⟩
  · rintro ⟨⟨hc, hallowed, hfresh, hsub⟩, h⟩
    have hbarred : ∀ c' ∈ A, c'.targetId ∈ g.settlements.keys →
        (c.targetId ∈ g.settlements.keys → c'.targetId ≠ c.targetId) ∧ c'.targetId ∉ barred := by
      intro c' hc' hin
      have hnot := h.fresh c' hc' hin
      split at hnot
      · exact ⟨fun _ => List.ne_of_not_mem_cons hnot, List.not_mem_of_not_mem_cons hnot⟩
      · rename_i htarget
        exact ⟨fun hyes => absurd hyes htarget, hnot⟩
    refine ⟨List.forall_mem_cons.mpr ⟨hc, h.mem⟩, List.forall_mem_cons.mpr ⟨hallowed, h.allowed⟩,
      List.forall_mem_cons.mpr ⟨hfresh, fun c' hc' hin => (hbarred c' hc' hin).2⟩, ?_,
      List.pairwise_cons.mpr ⟨?_, h.disjoint⟩, List.pairwise_cons.mpr ⟨?_, h.distinct⟩⟩
    · intro k
      rw [List.exists_mem_cons_iff, ← h.covers k, mem_remaining]
      constructor
      · intro hk
        by_cases hkc : k ∈ c.creditKeys
        · exact Or.inl hkc
        · exact Or.inr ⟨hk, hkc⟩
      · intro hk
        exact hk.elim (fun hkc => hsub hkc) And.left
    · intro c' hc' k hk hk'
      exact (mem_remaining.mp ((h.covers k).mpr ⟨c', hc', hk'⟩)).2 hk
    · intro c' hc' hin heq
      exact (hbarred c' hc' (heq ▸ hin)).1 hin heq

theorem Feasible.onGrid (hcost : ∀ c ∈ g.candidates, CostOk c) (h : Feasible g barred excluded keys A) :
    ∀ c ∈ A, OnGrid c.cost := fun c hc => (hcost c (h.mem c hc)).onGrid

end Feasible

/-! ## Runs of the search -/

section Search

variable {g : AssignmentGraph} {consumed excluded comp : List String} {A : List CandidateAssignment}

/-- A run assigns what is unassigned and spares what is consumed. -/
theorem run_feasible {p : Position} (h : Run (componentSearch g consumed excluded) p A) :
    Feasible g (p.2 ++ consumed) excluded p.1 A := by
  induction h with
  | @done p hdone =>
      have hnil : p.1 = [] := List.isEmpty_iff.mp hdone
      refine ⟨fun c hc => absurd hc List.not_mem_nil, fun c hc => absurd hc List.not_mem_nil,
        fun c hc => absurd hc List.not_mem_nil, ?_, List.Pairwise.nil, List.Pairwise.nil⟩
      intro k
      simp [hnil]
  | @step p q c rest _ hchoice _ ih =>
      obtain ⟨k, _, hc, _, havail, rfl⟩ := mem_choicesAt.mp hchoice
      unfold isAvailable at havail
      rw [Bool.and_eq_true, Bool.and_eq_true, decide_eq_true_eq, List.all_eq_true, Bool.or_eq_true,
        Bool.and_eq_true, decide_eq_true_eq, decide_eq_true_eq, decide_eq_true_eq] at havail
      obtain ⟨⟨hallowed, hkeys⟩, hfree⟩ := havail
      refine feasible_cons.mpr ⟨⟨hc, hallowed, ?_, fun k hk => of_decide_eq_true (hkeys k hk)⟩, ?_⟩
      · intro hin hbarred
        rcases hfree with hnot | hfree
        · exact hnot hin
        · rcases List.mem_append.mp hbarred with hbarred | hbarred
          · exact hfree.2 hbarred
          · exact hfree.1 hbarred
      · dsimp only at ih
        by_cases hin : c.targetId ∈ g.settlements.keys
        · rw [if_pos hin, List.cons_append] at ih
          rw [if_pos hin]
          exact ih
        · rw [if_neg hin] at ih ⊢
          exact ih

/-- Every feasible set is a run, in the order of its least credits. -/
theorem Feasible.run (hne : ∀ c ∈ g.candidates, c.creditKeys ≠ []) :
    ∀ {p : Position}, Feasible g (p.2 ++ consumed) excluded p.1 A →
      ∃ A', A'.Perm A ∧ Run (componentSearch g consumed excluded) p A' := by
  -- on the number of candidates; the next one is that of the least unassigned credit
  induction hn : A.length generalizing A with
  | zero =>
      intro p h
      rw [List.length_eq_zero_iff] at hn
      subst hn
      refine ⟨[], List.Perm.refl _, Run.done (List.isEmpty_iff.mpr (List.eq_nil_iff_forall_not_mem.mpr ?_))⟩
      intro k hk
      obtain ⟨c, hc, _⟩ := (h.covers k).mp hk
      exact List.not_mem_nil hc
  | succ n ih =>
      intro p h
      have hopen : p.1 ≠ [] := by
        obtain ⟨c, A', rfl⟩ := List.exists_cons_of_length_eq_add_one hn
        obtain ⟨k, hk⟩ := List.exists_mem_of_ne_nil _ (hne c (h.mem c List.mem_cons_self))
        exact List.ne_nil_of_mem ((h.covers k).mpr ⟨c, List.mem_cons_self, hk⟩)
      obtain ⟨k, hmin⟩ : ∃ k, p.1.min? = some k := by
        cases hmin : p.1.min? with
        | none => exact absurd (List.min?_eq_none_iff.mp hmin) hopen
        | some k => exact ⟨k, rfl⟩
      obtain ⟨c, hc, hk⟩ := (h.covers k).mp (List.min?_mem hmin)
      have hperm : A.Perm (c :: A.erase c) := List.perm_cons_erase hc
      obtain ⟨⟨hcand, hallowed, hfresh, hsub⟩, hrest⟩ := feasible_cons.mp (h.perm hperm)
      have hlen : (A.erase c).length = n := by
        rw [List.length_erase_of_mem hc, hn]
        rfl
      obtain ⟨A', hA', hrun⟩ := ih hlen
        (p := (remaining p.1 c, if c.targetId ∈ g.settlements.keys then c.targetId :: p.2 else p.2)) (by
          by_cases hin : c.targetId ∈ g.settlements.keys
          · simpa [hin] using hrest
          · simpa [hin] using hrest)
      refine ⟨c :: A', (hA'.cons c).trans hperm.symm, Run.step ?_ ?_ hrun⟩
      · exact Bool.eq_false_iff.mpr fun hdone => hopen (List.isEmpty_iff.mp hdone)
      · refine mem_choicesAt.mpr ⟨k, hmin, hcand, hk, ?_, rfl⟩
        unfold isAvailable
        rw [Bool.and_eq_true, Bool.and_eq_true, decide_eq_true_eq, List.all_eq_true, Bool.or_eq_true,
          Bool.and_eq_true, decide_eq_true_eq, decide_eq_true_eq, decide_eq_true_eq]
        refine ⟨⟨hallowed, fun k hk => decide_eq_true (hsub hk)⟩, ?_⟩
        by_cases hin : c.targetId ∈ g.settlements.keys
        · have hnot := hfresh hin
          rw [List.mem_append, not_or] at hnot
          exact Or.inr ⟨hnot.2, hnot.1⟩
        · exact Or.inl hin

/-- The leading components of the cost never fall along a run. -/
theorem hardest_le_total {p : Position} (hcost : ∀ c ∈ g.candidates, CostOk c)
    (h : Run (componentSearch g consumed excluded) p A) (cost : Cost) :
    cost.hardest ≤ ((componentSearch g consumed excluded).total cost A).hardest := by
  induction h generalizing cost with
  | done => exact le_rfl
  | @step p q c rest _ hchoice _ ih =>
      obtain ⟨k, _, hc, _, _, _⟩ := mem_choicesAt.mp hchoice
      rw [SearchProblem.total_cons]
      refine le_trans ?_ (ih (addCosts cost c.cost))
      calc cost.hardest ≤ cost.hardest + c.cost.hardest :=
            le_add_of_nonneg_right (hcost c hc).hardest_nonneg
        _ = (addCosts cost c.cost).hardest := rfl

/-- The pruning rules out only what ends up more expensive. -/
theorem componentSearch_pruneSound (hcost : ∀ c ∈ g.candidates, CostOk c) :
    (componentSearch g consumed excluded).PruneSound := by
  intro best cost p A hprune hrun
  have hlt : best.hardest < cost.hardest := of_decide_eq_true hprune
  exact Cost.lt_of_hardest_lt (hlt.trans_le (hardest_le_total hcost hrun cost))

/-! ## The solution of a component -/

/-- The fallback to abstentions counts: there is one for every credit. -/
def IsFallback (g : AssignmentGraph) (excluded comp : List String) (A : List CandidateAssignment) : Prop :=
  A = defaultChosen g excluded comp ∧ A.length = comp.length

/-- What the solver of a component chooses among. -/
def IsOption (g : AssignmentGraph) (consumed excluded comp : List String) (A : List CandidateAssignment) :
    Prop :=
  Feasible g consumed excluded comp A ∨ IsFallback g excluded comp A

theorem mem_defaultChosen {c : CandidateAssignment} :
    c ∈ defaultChosen g excluded comp ↔
      c ∈ g.candidates ∧ c.targetId = "abstain" ∧ c.assignmentId ∉ excluded ∧ ∃ k ∈ comp, k ∈ c.creditKeys := by
  unfold defaultChosen
  simp only [List.mem_flatMap, List.mem_filter, mem_candidatesOf, (List.perm_insertionSort _ _).mem_iff,
    decide_eq_true_eq]
  constructor
  · rintro ⟨k, hk, ⟨hc, hkc⟩, htarget, hallowed⟩
    exact ⟨hc, htarget, hallowed, k, hk, hkc⟩
  · rintro ⟨hc, htarget, hallowed, k, hk, hkc⟩
    exact ⟨k, hk, ⟨hc, hkc⟩, htarget, hallowed⟩

theorem IsOption.onGrid (hcost : ∀ c ∈ g.candidates, CostOk c) (h : IsOption g consumed excluded comp A) :
    ∀ c ∈ A, OnGrid c.cost := by
  intro c hc
  rcases h with h | h
  · exact h.onGrid hcost c hc
  · rw [h.1] at hc
    exact (hcost c (mem_defaultChosen.mp hc).1).onGrid

theorem baseline_eq_some {best : Cost × List CandidateAssignment}
    (h : baseline g excluded comp = some best) :
    IsFallback g excluded comp best.2 ∧ best.1 = totalCost best.2 := by
  unfold baseline at h
  split at h
  · rename_i hlen
    rw [← Option.some.inj h]
    exact ⟨⟨rfl, hlen⟩, rfl⟩
  · exact absurd h (by simp)

theorem IsFallback.baseline (h : IsFallback g excluded comp A) :
    baseline g excluded comp = some (totalCost A, A) := by
  obtain ⟨rfl, hlen⟩ := h
  unfold Untangle.baseline
  rw [if_pos hlen]

variable {maxSteps : ℤ}

/-- A search that was cut off falls back to abstentions. -/
theorem solveComponent_timedOut (h : (solveComponent g consumed excluded maxSteps comp).timedOut = true) :
    (solveComponent g consumed excluded maxSteps comp).assignment = defaultChosen g excluded comp := by
  unfold solveComponent at h ⊢
  dsimp only at h ⊢
  split at h
  · rename_i hexceeded
    rw [if_pos hexceeded]
  · split at h <;> exact absurd h (by simp)

theorem timedOut_solveComponent :
    (solveComponent g consumed excluded maxSteps comp).timedOut =
      (searchFrom (componentSearch g consumed excluded) maxSteps (comp, []) zeroCost
        (baseline g excluded comp)).exceeded := by
  unfold solveComponent
  dsimp only
  split
  · rename_i hexceeded
    exact hexceeded.symm
  · rename_i hexceeded
    rw [Bool.eq_false_iff.mpr hexceeded]
    split <;> rfl

/-- With a budget of the size of the search tree the search is not cut off. -/
theorem solveComponent_within (g : AssignmentGraph) (consumed excluded comp : List String)
    (hbudget : ((componentSearch g consumed excluded).treeSize (comp.length + 1) (comp, []) : ℤ) ≤ maxSteps) :
    (solveComponent g consumed excluded maxSteps comp).timedOut = false :=
  timedOut_solveComponent.trans (searchFrom_within hbudget)

/-- Without any budget it is. -/
theorem solveComponent_nonpos (hbudget : maxSteps ≤ 0) :
    (solveComponent g consumed excluded maxSteps comp).timedOut = true := by
  rw [timedOut_solveComponent]
  unfold searchFrom search
  rw [if_pos (by push_cast; omega)]

/-- What the search of a component has explored, when it was not cut off. -/
theorem solveComponent_explored (hcost : ∀ c ∈ g.candidates, CostOk c)
    (hopen : (solveComponent g consumed excluded maxSteps comp).timedOut = false) :
    ∃ st' : SearchState CandidateAssignment Cost,
      Explored (componentSearch g consumed excluded) (Run (componentSearch g consumed excluded) (comp, []))
        [] zeroCost ⟨baseline g excluded comp, 0, false⟩ st' ∧
      solveComponent g consumed excluded maxSteps comp =
        match st'.best with
        | none => ⟨[], Cost.mk 999 999999999 999999999 0 999, false⟩
        | some best => ⟨best.2, best.1, false⟩ := by
  unfold solveComponent at hopen ⊢
  dsimp only at hopen ⊢
  split at hopen
  · exact absurd hopen (by simp)
  · rename_i hexceeded
    rw [if_neg hexceeded]
    exact ⟨_, searchFrom_explored (componentSearch_pruneSound hcost) (Bool.eq_false_iff.mpr hexceeded), rfl⟩

/-- **A component is solved to optimality**, when the search was not cut off and there is an option at all. -/
theorem solveComponent_optimal (hne : ∀ c ∈ g.candidates, c.creditKeys ≠ [])
    (hcost : ∀ c ∈ g.candidates, CostOk c)
    (hopen : (solveComponent g consumed excluded maxSteps comp).timedOut = false)
    (hsome : ∃ A, IsOption g consumed excluded comp A) :
    IsOption g consumed excluded comp (solveComponent g consumed excluded maxSteps comp).assignment ∧
      (solveComponent g consumed excluded maxSteps comp).cost =
        sumCost (solveComponent g consumed excluded maxSteps comp).assignment ∧
      ∀ A, IsOption g consumed excluded comp A →
        (solveComponent g consumed excluded maxSteps comp).cost ≤ sumCost A := by
  obtain ⟨st', hexplored, heq⟩ := solveComponent_explored hcost hopen
  have hleast : ∀ A, IsOption g consumed excluded comp A → ∃ b, st'.best = some b ∧ b.1 ≤ sumCost A := by
    intro A hA
    rcases hA with hA | hA
    · obtain ⟨A', hperm, hrun⟩ := hA.run hne (p := (comp, []))
      obtain ⟨b, hb, hle⟩ := hexplored.least A' hrun
      refine ⟨b, hb, hle.trans_eq ?_⟩
      rw [← sumCost_perm hperm]
      exact totalCost_eq ((hA.perm hperm.symm).onGrid hcost)
    · obtain ⟨b, hb, hle⟩ := hexplored.kept _ hA.baseline
      have hoption : IsOption g consumed excluded comp A := Or.inr hA
      exact ⟨b, hb, hle.trans_eq (totalCost_eq (hoption.onGrid hcost))⟩
  obtain ⟨A₀, hA₀⟩ := hsome
  obtain ⟨best, hbest, _⟩ := hleast A₀ hA₀
  rw [hbest] at heq
  rw [heq]
  have horigin : IsOption g consumed excluded comp best.2 ∧ best.1 = totalCost best.2 := by
    rcases hexplored.origin with hbase | ⟨A, hrun, hnew⟩
    · obtain ⟨hfall, hcosts⟩ := baseline_eq_some (hbase.symm.trans hbest)
      exact ⟨Or.inr hfall, hcosts⟩
    · rw [hbest, Option.some.injEq] at hnew
      rw [hnew, List.nil_append]
      exact ⟨Or.inl (run_feasible hrun), rfl⟩
  refine ⟨horigin.1, horigin.2.trans (totalCost_eq (horigin.1.onGrid hcost)), fun A hA => ?_⟩
  obtain ⟨b, hb, hle⟩ := hleast A hA
  rw [hbest, Option.some.injEq] at hb
  rw [hb]
  exact hle

/-- Without an option nothing is chosen. -/
theorem solveComponent_none (hcost : ∀ c ∈ g.candidates, CostOk c)
    (hopen : (solveComponent g consumed excluded maxSteps comp).timedOut = false)
    (hnone : ¬ ∃ A, IsOption g consumed excluded comp A) :
    (solveComponent g consumed excluded maxSteps comp).assignment = [] := by
  obtain ⟨st', hexplored, heq⟩ := solveComponent_explored hcost hopen
  cases hbest : st'.best with
  | none =>
      rw [hbest] at heq
      rw [heq]
  | some best =>
      refine absurd ?_ hnone
      rcases hexplored.origin with hbase | ⟨A, hrun, _⟩
      · exact ⟨best.2, Or.inr (baseline_eq_some (hbase.symm.trans hbest)).1⟩
      · exact ⟨A, Or.inl (run_feasible hrun)⟩

end Search

end Untangle
