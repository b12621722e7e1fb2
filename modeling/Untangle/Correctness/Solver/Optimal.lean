import Untangle.Correctness.Solver.Run

/-!
# `Correctness.Solver.Optimal` — the assignment of a period is the cheapest one

Feasible sets of the period are the unions of feasible sets of its components (`Feasible.append`,
`Feasible.divide`), so the component optima add up to the optimum. One thing stands in the way: the fallback of a
component takes the abstention of every credit, and abstentions share the target `"abstain"`. When a settlement
has that very id they compete for it like for any other, and a period may have no assignment at all.
`solver_optimal_iff` says that this is the only way to fail.
-/

namespace Untangle

open Lib

variable {g : AssignmentGraph} {consumed comp keys : List String} {A B F : List CandidateAssignment}
  {c : CandidateAssignment}

/-! ## Feasible sets and components -/

/-- A part of a feasible set is feasible for the credits it covers. -/
theorem Feasible.of_sublist (h : Feasible g [] [] keys A) (hsub : B.Sublist A) {keys' : List String}
    (hcovers : ∀ k, k ∈ keys' ↔ ∃ c ∈ B, k ∈ c.creditKeys) : Feasible g [] [] keys' B :=
  ⟨fun c hc => h.mem c (hsub.subset hc), fun c hc => h.allowed c (hsub.subset hc),
    fun c hc => h.fresh c (hsub.subset hc), hcovers, h.disjoint.sublist hsub, h.distinct.sublist hsub⟩

/-- Feasible sets of a component and of other credits make one of both. -/
theorem Feasible.append (hg : WellFormed g) (hcomp : comp ∈ g.components) (hA : Feasible g [] [] keys A)
    (hB : Feasible g [] [] comp B) (hdisj : List.Disjoint keys comp) :
    Feasible g [] [] (keys ++ comp) (A ++ B) := by
  have hapart : ∀ c ∈ A, ∀ c' ∈ B, KeysApart c c' ∧ TargetsApart g c c' := fun c hc c' hc' =>
    apart_of_disjoint hg hcomp (hA.mem c hc) (hB.mem c' hc') (hA.keys_subset hc) (hB.keys_subset hc') hdisj
  refine ⟨List.forall_mem_append.mpr ⟨hA.mem, hB.mem⟩, List.forall_mem_append.mpr ⟨hA.allowed, hB.allowed⟩,
    List.forall_mem_append.mpr ⟨hA.fresh, hB.fresh⟩, fun k => ?_,
    List.pairwise_append.mpr ⟨hA.disjoint, hB.disjoint, fun c hc c' hc' => (hapart c hc c' hc').1⟩,
    List.pairwise_append.mpr ⟨hA.distinct, hB.distinct, fun c hc c' hc' => (hapart c hc c' hc').2⟩⟩
  rw [List.mem_append, hA.covers k, hB.covers k]
  constructor
  · rintro (⟨c, hc, hk⟩ | ⟨c, hc, hk⟩)
    · exact ⟨c, List.mem_append_left _ hc, hk⟩
    · exact ⟨c, List.mem_append_right _ hc, hk⟩
  · rintro ⟨c, hc, hk⟩
    exact (List.mem_append.mp hc).imp (fun hc => ⟨c, hc, hk⟩) fun hc => ⟨c, hc, hk⟩

/-- A feasible set falls into a part for a component and a part for the other credits. -/
theorem Feasible.divide (hg : WellFormed g) (hcomp : comp ∈ g.components)
    (h : Feasible g [] [] (keys ++ comp) A) (hdisj : List.Disjoint keys comp) :
    ∃ A₁ A₂, Feasible g [] [] keys A₁ ∧ Feasible g [] [] comp A₂ ∧ sumCost A = sumCost A₁ + sumCost A₂ := by
  have hin : ∀ c ∈ A, (c.creditKeys.any fun k => k ∈ comp) = true → c.creditKeys ⊆ comp := by
    intro c hc hany
    obtain ⟨k, hk, hcomp'⟩ := List.any_eq_true.mp hany
    exact hg.closed comp hcomp c (h.mem c hc) ⟨k, hk, of_decide_eq_true hcomp'⟩
  have hout : ∀ c : CandidateAssignment, (c.creditKeys.any fun k => k ∈ comp) = false → ∀ k ∈ c.creditKeys, k ∉ comp := by
    intro c hany k hk hcomp'
    exact List.any_eq_false.mp hany k hk (decide_eq_true hcomp')
  refine ⟨A.filter fun c => !(c.creditKeys.any fun k => k ∈ comp),
    A.filter fun c => c.creditKeys.any fun k => k ∈ comp, ?_, ?_, ?_⟩
  · refine h.of_sublist List.filter_sublist fun k => ?_
    simp only [List.mem_filter, Bool.not_eq_true']
    constructor
    · intro hk
      obtain ⟨c, hc, hkc⟩ := (h.covers k).mp (List.mem_append_left _ hk)
      refine ⟨c, ⟨hc, ?_⟩, hkc⟩
      exact Bool.eq_false_iff.mpr fun hany => hdisj hk (hin c hc hany hkc)
    · rintro ⟨c, ⟨hc, hany⟩, hkc⟩
      exact (List.mem_append.mp ((h.covers k).mpr ⟨c, hc, hkc⟩)).resolve_right (hout c hany k hkc)
  · refine h.of_sublist List.filter_sublist fun k => ?_
    simp only [List.mem_filter]
    constructor
    · intro hk
      obtain ⟨c, hc, hkc⟩ := (h.covers k).mp (List.mem_append_right _ hk)
      exact ⟨c, ⟨hc, List.any_eq_true.mpr ⟨k, hkc, decide_eq_true hk⟩⟩, hkc⟩
    · rintro ⟨c, ⟨hc, hany⟩, hkc⟩
      exact hin c hc hany hkc
  · rw [add_comm, ← sumCost_append]
    exact sumCost_perm (List.filter_append_perm _ A).symm

/-! ## The fallback -/

section Fallback

variable {α β : Type}

/-- Nonempty parts that are as many as their elements are singletons. -/
theorem exists_singleton_of_length_flatMap {l : List α} {f : α → List β} (hne : ∀ a ∈ l, f a ≠ [])
    (hlen : (l.flatMap f).length = l.length) : ∀ a ∈ l, ∃ b, f a = [b] := by
  have hge : ∀ l' : List α, (∀ a ∈ l', f a ≠ []) → l'.length ≤ (l'.flatMap f).length := by
    intro l' h
    induction l' with
    | nil => exact le_rfl
    | cons a l' ih =>
        have hpos := List.length_pos_of_ne_nil (h a List.mem_cons_self)
        have hrest := ih fun a' ha' => h a' (List.mem_cons_of_mem _ ha')
        rw [List.flatMap_cons, List.length_append, List.length_cons]
        omega
  induction l with
  | nil => exact fun a ha => absurd ha List.not_mem_nil
  | cons a l ih =>
      have hne' : ∀ a' ∈ l, f a' ≠ [] := fun a' ha' => hne a' (List.mem_cons_of_mem _ ha')
      have hpos := List.length_pos_of_ne_nil (hne a List.mem_cons_self)
      have hrest := hge l hne'
      rw [List.flatMap_cons, List.length_append, List.length_cons] at hlen
      intro a' ha'
      rcases List.mem_cons.mp ha' with rfl | ha'
      · exact List.length_eq_one_iff.mp (by omega)
      · exact ih hne' (by omega) a' ha'

end Fallback

/-- The candidates of a credit that point at the abstention. -/
def abstentionsOf (g : AssignmentGraph) (k : String) : List CandidateAssignment :=
  (candidatesOf g k).filter fun c => c.targetId = "abstain" ∧ c.assignmentId ∉ ([] : List String)

theorem mem_abstentionsOf {k : String} :
    c ∈ abstentionsOf g k ↔ (c ∈ g.candidates ∧ k ∈ c.creditKeys) ∧ c.targetId = "abstain" := by
  unfold abstentionsOf
  rw [List.mem_filter, mem_candidatesOf, decide_eq_true_eq]
  exact and_congr_right fun _ => and_iff_left List.not_mem_nil

/-- In a fallback that counts, every credit has one candidate: its abstention. -/
theorem IsFallback.sinks (hg : WellFormed g) (hcredits : comp ⊆ g.credits.keys) (h : IsFallback g [] comp A) :
    ∀ k ∈ comp, ∃ s, abstentionsOf g k = [s] ∧ IsSink s k ∧ 0 < s.cost.unexplained := by
  have hsink : ∀ k ∈ comp, ∃ s ∈ abstentionsOf g k, IsSink s k ∧ 0 < s.cost.unexplained := by
    intro k hk
    obtain ⟨s, hs, hsink, hpos⟩ := hg.sink k (hcredits hk)
    exact ⟨s, mem_abstentionsOf.mpr ⟨⟨hs, hsink.keys ▸ List.mem_singleton_self k⟩, hsink.target⟩, hsink, hpos⟩
  have hperm := List.perm_insertionSort (· ≤ ·) comp
  have hlen : ((comp.insertionSort (· ≤ ·)).flatMap (abstentionsOf g)).length =
      (comp.insertionSort (· ≤ ·)).length := by
    rw [hperm.length_eq, ← h.2, h.1]
    rfl
  intro k hk
  obtain ⟨s, hs, hsink', hpos⟩ := hsink k hk
  obtain ⟨b, hb⟩ := exists_singleton_of_length_flatMap
    (fun k' hk' => List.ne_nil_of_mem (hsink k' (hperm.subset hk')).choose_spec.1) hlen k
    (hperm.symm.subset hk)
  rw [hb, List.mem_singleton] at hs
  exact ⟨s, by rw [hb, hs], hsink', hpos⟩

theorem IsFallback.mem_iff (h : IsFallback g [] comp A) : c ∈ A ↔ ∃ k ∈ comp, c ∈ abstentionsOf g k := by
  rw [h.1, mem_defaultChosen]
  simp only [mem_abstentionsOf]
  constructor
  · rintro ⟨hc, htarget, _, k, hk, hkc⟩
    exact ⟨k, hk, ⟨hc, hkc⟩, htarget⟩
  · rintro ⟨k, hk, ⟨hc, hkc⟩, htarget⟩
    exact ⟨hc, htarget, List.not_mem_nil, k, hk, hkc⟩

/-- A fallback whose abstentions do not compete is feasible. -/
theorem IsFallback.feasible (hg : WellFormed g) (hnd : comp.Nodup) (hcredits : comp ⊆ g.credits.keys)
    (h : IsFallback g [] comp A) (hdistinct : A.Pairwise (TargetsApart g)) : Feasible g [] [] comp A := by
  have hsinks := h.sinks hg hcredits
  refine ⟨?_, fun _ _ => List.not_mem_nil, fun _ _ _ => List.not_mem_nil, fun k => ?_, ?_, hdistinct⟩
  · intro c hc
    obtain ⟨k, _, hck⟩ := h.mem_iff.mp hc
    exact (mem_abstentionsOf.mp hck).1.1
  · constructor
    · intro hk
      obtain ⟨s, hs, hsink, _⟩ := hsinks k hk
      exact ⟨s, h.mem_iff.mpr ⟨k, hk, hs ▸ List.mem_singleton_self s⟩, hsink.keys ▸ List.mem_singleton_self k⟩
    · rintro ⟨c, hc, hkc⟩
      obtain ⟨k', hk', hck⟩ := h.mem_iff.mp hc
      obtain ⟨s, hs, hsink, _⟩ := hsinks k' hk'
      rw [hs, List.mem_singleton] at hck
      rw [hck, hsink.keys, List.mem_singleton] at hkc
      exact hkc ▸ hk'
  · have hflat : A = (comp.insertionSort (· ≤ ·)).flatMap (abstentionsOf g) := h.1
    have hperm := List.perm_insertionSort (· ≤ ·) comp
    rw [hflat, List.pairwise_flatMap]
    refine ⟨fun k hk => ?_, (hperm.nodup_iff.mpr hnd).imp_of_mem fun {k k'} hk hk' hne c hc c' hc' => ?_⟩
    · obtain ⟨s, hs, _⟩ := hsinks k (hperm.subset hk)
      rw [hs]
      exact List.pairwise_singleton _ _
    · obtain ⟨s, hs, hsink, _⟩ := hsinks k (hperm.subset hk)
      obtain ⟨s', hs', hsink', _⟩ := hsinks k' (hperm.subset hk')
      rw [hs, List.mem_singleton] at hc
      rw [hs', List.mem_singleton] at hc'
      unfold KeysApart
      rw [hc, hc', hsink.keys, hsink'.keys]
      simpa using Ne.symm hne

/-! ## Abstentions that compete -/

/-- With a settlement called like the abstention, a feasible set leaves one credit unexplained at most. -/
theorem unexplained_of_reserved (hcost : ∀ c ∈ F, CostOk c) (hres : "abstain" ∈ g.settlements.keys)
    (hdistinct : F.Pairwise (TargetsApart g)) :
    (sumCost F).unexplained = 0 ∨
      ∃ c ∈ F, (∃ k, IsSink c k) ∧ (sumCost F).unexplained = c.cost.unexplained := by
  induction F with
  | nil => exact Or.inl rfl
  | cons c F ih =>
      have hF := ih (fun c' hc' => hcost c' (List.mem_cons_of_mem _ hc')) hdistinct.of_cons
      have hsum : (sumCost (c :: F)).unexplained = c.cost.unexplained + (sumCost F).unexplained := by
        rw [sumCost_cons]
        rfl
      rw [hsum]
      rcases (hcost c List.mem_cons_self).unexplained with hzero | ⟨_, hsink⟩
      · rw [hzero, zero_add]
        exact hF.imp_right fun ⟨c', hc', h⟩ => ⟨c', List.mem_cons_of_mem _ hc', h⟩
      · refine Or.inr ⟨c, List.mem_cons_self, hsink, ?_⟩
        rcases hF with hzero | ⟨c', hc', ⟨k', hsink'⟩, _⟩
        · rw [hzero, add_zero]
        · obtain ⟨k, hk⟩ := hsink
          refine absurd (hsink'.target.trans hk.target.symm)
            ((List.pairwise_cons.mp hdistinct).1 c' hc' ?_)
          rw [hk.target]
          exact hres

theorem unexplained_nonneg (hcost : ∀ c ∈ A, CostOk c) : 0 ≤ (sumCost A).unexplained := by
  induction A with
  | nil => exact le_rfl
  | cons c A ih =>
      have hA := ih fun c' hc' => hcost c' (List.mem_cons_of_mem _ hc')
      have hc : 0 ≤ c.cost.unexplained := by
        rcases (hcost c List.mem_cons_self).unexplained with h | h
        · exact h.ge
        · exact h.1.le
      rw [sumCost_cons]
      exact add_nonneg hc hA

theorem unexplained_of_mem (hc : c ∈ A) :
    (sumCost A).unexplained = c.cost.unexplained + (sumCost (A.erase c)).unexplained := by
  rw [sumCost_perm (List.perm_cons_erase hc), sumCost_cons]
  rfl

theorem invalid_sumCost (hcost : ∀ c ∈ A, CostOk c) : (sumCost A).invalid = 0 := by
  induction A with
  | nil => rfl
  | cons c A ih =>
      have hA := ih fun c' hc' => hcost c' (List.mem_cons_of_mem _ hc')
      have hc := (hcost c List.mem_cons_self).invalid
      rw [sumCost_cons]
      show c.cost.invalid + (sumCost A).invalid = 0
      rw [hA, hc, add_zero]

/-- The abstentions of two credits leave more unexplained than any feasible set then does. -/
theorem IsFallback.unexplained_lt (hg : WellFormed g) (hnd : comp.Nodup) (hcredits : comp ⊆ g.credits.keys)
    (hres : "abstain" ∈ g.settlements.keys) (hmany : 2 ≤ comp.length) (h : IsFallback g [] comp A)
    (hF : Feasible g [] [] comp F) : (sumCost F).unexplained < (sumCost A).unexplained := by
  have hsinks := h.sinks hg hcredits
  have hcostA : ∀ c ∈ A, CostOk c := by
    intro c hc
    obtain ⟨k, _, hck⟩ := h.mem_iff.mp hc
    exact hg.cost c (mem_abstentionsOf.mp hck).1.1
  have hmem : ∀ k ∈ comp, ∀ s, abstentionsOf g k = [s] → s ∈ A := fun k hk s hs =>
    h.mem_iff.mpr ⟨k, hk, hs ▸ List.mem_singleton_self s⟩
  rcases unexplained_of_reserved (fun c hc => hg.cost c (hF.mem c hc)) hres hF.distinct with
    hzero | ⟨c, hc, ⟨k, hsink⟩, heq⟩
  · obtain ⟨k, hk⟩ := List.exists_mem_of_length_pos (by omega : 0 < comp.length)
    obtain ⟨s, hs, _, hpos⟩ := hsinks k hk
    have hrest := unexplained_nonneg fun c hc => hcostA c (List.erase_subset (a := s) hc)
    rw [hzero, unexplained_of_mem (hmem k hk s hs)]
    omega
  · have hk : k ∈ comp := hF.keys_subset hc (hsink.keys ▸ List.mem_singleton_self k)
    obtain ⟨k', hk', hne⟩ : ∃ k' ∈ comp, k' ≠ k := by
      by_contra hall
      push Not at hall
      have hsub : comp ⊆ [k] := fun k' hk' => List.mem_singleton.mpr (hall k' hk')
      have hle := (hnd.subperm hsub).length_le
      rw [List.length_singleton] at hle
      omega
    obtain ⟨s, hs, hsinks', _⟩ := hsinks k hk
    obtain ⟨s', hs', hsink', hpos'⟩ := hsinks k' hk'
    have hcs : c = s := by
      have hck : c ∈ abstentionsOf g k :=
        mem_abstentionsOf.mpr ⟨⟨hF.mem c hc, hsink.keys ▸ List.mem_singleton_self k⟩, hsink.target⟩
      rwa [hs, List.mem_singleton] at hck
    -- the abstention of the other credit counts on top
    have hother : s' ∈ A.erase s := by
      refine (List.mem_erase_of_ne fun heq' => hne ?_).mpr (hmem k' hk' s' hs')
      exact (List.cons.inj (hsink'.keys.symm.trans (heq' ▸ hsinks'.keys))).1
    have hrest := unexplained_nonneg fun c hc =>
      hcostA c (List.erase_subset (a := s) (List.erase_subset (a := s') hc))
    rw [heq, hcs, unexplained_of_mem (hmem k hk s hs), unexplained_of_mem hother]
    omega

/-- A fallback that is as cheap as a feasible set is feasible. -/
theorem IsFallback.feasible_of_le (hg : WellFormed g) (hnd : comp.Nodup) (hcredits : comp ⊆ g.credits.keys)
    (h : IsFallback g [] comp A) (hF : Feasible g [] [] comp F) (hle : sumCost A ≤ sumCost F) :
    Feasible g [] [] comp A := by
  refine h.feasible hg hnd hcredits ?_
  by_cases hres : "abstain" ∈ g.settlements.keys
  · by_cases hmany : 2 ≤ comp.length
    · have hlt := h.unexplained_lt hg hnd hcredits hres hmany hF
      refine absurd hle (not_le.mpr (Cost.lt_of_hardest_lt ?_))
      have hinvalid : (sumCost F).invalid = (sumCost A).invalid := by
        rw [invalid_sumCost fun c hc => hg.cost c (hF.mem c hc), invalid_sumCost fun c hc => ?_]
        obtain ⟨k, _, hck⟩ := h.mem_iff.mp hc
        exact hg.cost c (mem_abstentionsOf.mp hck).1.1
      unfold Cost.hardest
      rw [Prod.Lex.lt_iff]
      exact Or.inr ⟨hinvalid, hlt⟩
    · have hlen : A.length ≤ 1 := by
        rw [h.2]
        omega
      cases A with
      | nil => exact List.Pairwise.nil
      | cons c A =>
          have hnil : A = [] := List.length_eq_zero_iff.mp (by simpa using hlen)
          rw [hnil]
          exact List.pairwise_singleton _ _
  · refine List.pairwise_of_forall_mem_list fun c hc c' _ hin => absurd hin ?_
    obtain ⟨k, _, hck⟩ := h.mem_iff.mp hc
    rw [(mem_abstentionsOf.mp hck).2]
    exact hres

/-! ## One component -/

theorem WellFormed.comp_nodup (hg : WellFormed g) (hcomp : comp ∈ g.components) : comp.Nodup :=
  List.Sublist.nodup (List.sublist_flatten_of_mem hcomp) (hg.components.nodup_iff.mpr (Dict.nodup_keys _))

theorem WellFormed.comp_subset (hg : WellFormed g) (hcomp : comp ∈ g.components) : comp ⊆ g.credits.keys :=
  fun _ hk => hg.components.subset (List.mem_flatten.mpr ⟨comp, hcomp, hk⟩)

/-- **A component is assigned as cheaply as possible**, when it can be assigned at all. -/
theorem solveComponent_least (hg : WellFormed g) (hcomp : comp ∈ g.components) {maxSteps : ℤ}
    (helse : Elsewhere g comp consumed)
    (hopen : (solveComponent g consumed [] maxSteps comp).timedOut = false)
    (hsome : ∃ F, Feasible g [] [] comp F) :
    Feasible g [] [] comp (solveComponent g consumed [] maxSteps comp).assignment ∧
      ∀ F, Feasible g [] [] comp F →
        sumCost (solveComponent g consumed [] maxSteps comp).assignment ≤ sumCost F := by
  have hoption : ∀ F, Feasible g [] [] comp F → IsOption g consumed [] comp F := fun F hF =>
    Or.inl (hF.bar hg hcomp helse)
  obtain ⟨F, hF⟩ := hsome
  obtain ⟨hbest, hcost, hleast⟩ := solveComponent_optimal hg.keys_ne hg.cost hopen ⟨F, hoption F hF⟩
  rw [hcost] at hleast
  refine ⟨?_, fun F hF => hleast F (hoption F hF)⟩
  rcases hbest with hbest | hbest
  · exact hbest.unbar
  · exact hbest.feasible_of_le hg (hg.comp_nodup hcomp) (hg.comp_subset hcomp) hF (hleast F (hoption F hF))

/-- With a candidate that explains a lone credit, one that explains it is chosen. -/
theorem exists_chosen_of_single (hg : WellFormed g) {k : String} (hone : g.components = [[k]])
    (hc : c ∈ g.candidates) (hkeys : c.creditKeys = [k]) (hzero : c.cost.unexplained = 0) :
    ∃ maxSteps, ∃ c₀ ∈ (solveAll g 0 maxSteps).chosen, k ∈ c₀.creditKeys ∧ c₀.cost.unexplained = 0 := by
  have hstage : Stage g [] [k] := ⟨[], hone⟩
  obtain ⟨maxSteps, hopen⟩ : ∃ maxSteps, (solveComponent g [] [] maxSteps [k]).timedOut = false :=
    ⟨_, solveComponent_within _ _ _ _ le_rfl⟩
  have hsingle : Feasible g [] [] [k] [c] := by
    refine ⟨fun c' hc' => List.mem_singleton.mp hc' ▸ hc, fun _ _ => List.not_mem_nil,
      fun _ _ _ => List.not_mem_nil, fun k' => ?_, List.pairwise_singleton _ _, List.pairwise_singleton _ _⟩
    simp [hkeys]
  obtain ⟨hfeasible, hleast⟩ := solveComponent_least hg hstage.mem (fun s hs => absurd hs List.not_mem_nil)
    hopen ⟨[c], hsingle⟩
  obtain ⟨c₀, hc₀, hk⟩ := (hfeasible.covers k).mp (List.mem_singleton_self _)
  refine ⟨maxSteps, c₀, hstage.assignment_subset hc₀, hk, ?_⟩
  have hcosts := fun c hc => hg.cost c (hfeasible.mem c hc)
  rcases (hcosts c₀ hc₀).unexplained with hnone | ⟨hpos, _⟩
  · exact hnone
  · -- a candidate that leaves something unexplained would make the set more expensive
    have hrest := unexplained_nonneg fun c hc => hcosts c (List.erase_subset (a := c₀) hc)
    have hlt : (sumCost [c]).unexplained < (sumCost (solveComponent g [] [] maxSteps [k]).assignment).unexplained := by
      rw [unexplained_of_mem hc₀, show (sumCost [c]).unexplained = c.cost.unexplained + 0 from rfl, hzero]
      omega
    refine absurd (hleast [c] hsingle) (not_le.mpr (Cost.lt_of_hardest_lt ?_))
    have hinvalid := invalid_sumCost fun c hc => hg.cost c (hsingle.mem c hc)
    unfold Cost.hardest
    rw [Prod.Lex.lt_iff]
    exact Or.inr ⟨hinvalid.trans (invalid_sumCost hcosts).symm, hlt⟩

/-! ## The period -/

/-- A set of candidates that assigns every credit of the period once and uses no settlement twice. -/
def IsAssignment (g : AssignmentGraph) (A : List CandidateAssignment) : Prop :=
  Feasible g [] [] g.credits.keys A

/-- No component exceeds the step budget. -/
def WithinSteps (g : AssignmentGraph) (margin : ℚ) (maxSteps : ℤ) : Prop :=
  ∀ done comp, Stage g done comp →
    (solveComponent g (stateAfter g margin maxSteps done).consumed [] maxSteps comp).timedOut = false

/-- The part of the period that is solved is solved optimally. -/
theorem stateAfter_least (hg : WellFormed g) {margin : ℚ} {maxSteps : ℤ}
    (hsteps : WithinSteps g margin maxSteps) :
    ∀ {done rest : List (List String)}, g.components = done ++ rest →
      (∃ F, Feasible g [] [] done.flatten F) →
        Feasible g [] [] done.flatten (stateAfter g margin maxSteps done).chosen ∧
          ∀ F, Feasible g [] [] done.flatten F →
            sumCost (stateAfter g margin maxSteps done).chosen ≤ sumCost F := by
  intro done
  induction done using List.reverseRecOn with
  | nil =>
      intro rest _ _
      have hnil : Feasible g [] [] [] [] :=
        ⟨fun c hc => absurd hc List.not_mem_nil, fun c hc => absurd hc List.not_mem_nil,
          fun c hc => absurd hc List.not_mem_nil, fun k => by simp, List.Pairwise.nil, List.Pairwise.nil⟩
      refine ⟨hnil, fun F hF => ?_⟩
      cases F with
      | nil => exact le_rfl
      | cons c F =>
          obtain ⟨k, _, hk⟩ := hF.touches hg List.mem_cons_self
          exact absurd hk List.not_mem_nil
  | append_singleton done comp ih =>
      intro rest hrest hsome
      rw [List.append_assoc, List.singleton_append] at hrest
      have hstage : Stage g done comp := ⟨rest, hrest⟩
      have hdisj := hstage.disjoint hg
      rw [List.flatten_append, List.flatten_singleton, stateAfter_concat] at *
      obtain ⟨F, hF⟩ := hsome
      obtain ⟨F₁, F₂, hF₁, hF₂, _⟩ := hF.divide hg hstage.mem hdisj
      obtain ⟨hchosen, hleast⟩ := ih hrest ⟨F₁, hF₁⟩
      obtain ⟨hbest, hbestLeast⟩ := solveComponent_least hg hstage.mem
        ((hstage.solveInv hg margin maxSteps).elsewhere hdisj) (hsteps done comp hstage) ⟨F₂, hF₂⟩
      refine ⟨hchosen.append hg hstage.mem hbest hdisj, fun F hF => ?_⟩
      obtain ⟨F₁, F₂, hF₁, hF₂, hsum⟩ := hF.divide hg hstage.mem hdisj
      rw [hsum]
      calc sumCost ((stateAfter g margin maxSteps done).chosen ++ _)
          = sumCost (stateAfter g margin maxSteps done).chosen + sumCost _ := sumCost_append _ _
        _ ≤ sumCost F₁ + sumCost F₂ := add_le_add (hleast F₁ hF₁) (hbestLeast F₂ hF₂)

/-- Abstentions that compete for nothing assign any credits. -/
theorem exists_feasible (hg : WellFormed g) (hfree : "abstain" ∉ g.settlements.keys) {keys : List String}
    (hnd : keys.Nodup) (hcredits : keys ⊆ g.credits.keys) : ∃ A, Feasible g [] [] keys A := by
  induction keys with
  | nil =>
      exact ⟨[], fun c hc => absurd hc List.not_mem_nil, fun c hc => absurd hc List.not_mem_nil,
        fun c hc => absurd hc List.not_mem_nil, fun k => by simp, List.Pairwise.nil, List.Pairwise.nil⟩
  | cons k keys ih =>
      obtain ⟨A, hA⟩ := ih (List.nodup_cons.mp hnd).2 fun k' hk' => hcredits (List.mem_cons_of_mem _ hk')
      obtain ⟨s, hs, hsink, _⟩ := hg.sink k (hcredits List.mem_cons_self)
      have htarget : s.targetId ∉ g.settlements.keys := hsink.target ▸ hfree
      refine ⟨s :: A, feasible_cons.mpr ⟨⟨hs, List.not_mem_nil, fun hin => absurd hin htarget, ?_⟩, ?_⟩⟩
      · rw [hsink.keys]
        exact List.cons_subset.mpr ⟨List.mem_cons_self, List.nil_subset _⟩
      · rw [if_neg htarget]
        refine hA.congr_keys fun k' => ?_
        rw [mem_remaining, hsink.keys, List.mem_cons, List.mem_singleton]
        constructor
        · rintro ⟨hk' | hk', hne⟩
          · exact absurd hk' hne
          · exact hk'
        · intro hk'
          exact ⟨Or.inr hk', fun heq => (List.nodup_cons.mp hnd).1 (heq ▸ hk')⟩

/-- The solver's assignment and its objective are optimal over the whole period. -/
structure Optimal (U : Unicode) (g : AssignmentGraph) (maxSteps : ℤ) : Prop where
  assignment : IsAssignment g (solveAll g 0 maxSteps).chosen
  objective : (solveAssignment U g 0 maxSteps).objectiveCost = sumCost (solveAll g 0 maxSteps).chosen
  least : ∀ A, IsAssignment g A → (solveAssignment U g 0 maxSteps).objectiveCost ≤ sumCost A

theorem objectiveCost_solveAssignment (hg : WellFormed g) (U : Unicode) (margin : ℚ) (maxSteps : ℤ) :
    (solveAssignment U g margin maxSteps).objectiveCost = sumCost (solveAll g margin maxSteps).chosen := by
  have hinv := solveInv_solveAll hg margin maxSteps
  unfold solveAssignment
  split
  · rename_i hempty
    have hnone : (solveAll g margin maxSteps).chosen = [] := by
      refine List.eq_nil_iff_forall_not_mem.mpr fun c hc => ?_
      obtain ⟨k, hk⟩ := List.exists_mem_of_ne_nil _ (hg.keys_ne c (hinv.settled.mem c hc))
      have hin := hg.components.subset (hinv.settled.within c hc hk)
      unfold Dict.keys at hin
      rw [hempty] at hin
      exact List.not_mem_nil hin
    rw [hnone]
    rfl
  · exact objectiveCost_eq fun c hc => (hg.cost c (hinv.settled.mem c hc)).onGrid

/-- **The solver is optimal over the period** exactly when the period can be assigned at all, which only a
    settlement called like the abstention can prevent. -/
theorem solver_optimal_iff (U : Unicode) (gs : GraphSettings) (index : ReconIndex) (lines : List BankCreditLine)
    (maxSteps : ℤ) (hsteps : WithinSteps (buildCandidateGraph U gs index lines) 0 maxSteps) :
    Optimal U (buildCandidateGraph U gs index lines) maxSteps ↔
      "abstain" ∉ index.settlementNet.keys ∨ ∃ A, IsAssignment (buildCandidateGraph U gs index lines) A := by
  have hg := buildCandidateGraph_wellFormed U gs index lines
  constructor
  · exact fun h => Or.inr ⟨_, h.assignment⟩
  · intro h
    obtain ⟨A, hA⟩ : ∃ A, IsAssignment (buildCandidateGraph U gs index lines) A := by
      rcases h with hfree | h
      · exact exists_feasible hg (fun hin => hfree (mem_settlementNodes.mp hin)) (Dict.nodup_keys _)
          fun _ h => h
      · exact h
    have hkeys : ∀ k, k ∈ (buildCandidateGraph U gs index lines).components.flatten ↔
        k ∈ (buildCandidateGraph U gs index lines).credits.keys := fun k => hg.components.mem_iff
    obtain ⟨hchosen, hleast⟩ := stateAfter_least hg hsteps (List.append_nil _).symm ⟨A, hA.congr_keys hkeys⟩
    have hobjective := objectiveCost_solveAssignment hg U 0 maxSteps
    refine ⟨hchosen.congr_keys fun k => (hkeys k).symm, hobjective, fun A hA => ?_⟩
    rw [hobjective]
    exact hleast A (hA.congr_keys hkeys)

/-! ### Two rivals for one settlement, and a settlement called like the abstention -/

/-- Two credits of one amount. -/
def rivalLines : List BankCreditLine := [creditLine "a" "" 100000, creditLine "b" "" 100000]

def rivalGraph (settlementId : String) (net : ℤ) : AssignmentGraph :=
  buildCandidateGraph asciiUnicode {} (ReconIndex.ofRows asciiUnicode [settledRow "e1" settlementId none net])
    rivalLines

/-- The settlement is assigned to the first of them, the other one abstains. -/
theorem solver_optimal_iff_rivals : Optimal asciiUnicode (rivalGraph "S1" 100000) 10000 ∧
    (solveAll (rivalGraph "S1" 100000) 0 10000).chosen.map CandidateAssignment.assignmentId =
      ["a->S1", "b->abstain"] := by
  have hone : (rivalGraph "S1" 100000).components = [["a", "b"]] := by decide +kernel
  refine ⟨(solver_optimal_iff asciiUnicode {} _ rivalLines 10000 ?_).mpr (Or.inl (by decide +kernel)),
    by decide +kernel⟩
  intro done comp hstage
  obtain ⟨rfl, rfl⟩ := Stage.of_singleton hone hstage
  decide +kernel

/-- Both credits fall back to the target that is a settlement's id: the settlement is used twice. -/
theorem abstention_shared : (rivalLines.map BankCreditLine.key).Nodup ∧
    WithinSteps (rivalGraph "abstain" 500) 0 10000 ∧ ¬ Optimal asciiUnicode (rivalGraph "abstain" 500) 10000 := by
  have hone : (rivalGraph "abstain" 500).components = [["a", "b"]] := by decide +kernel
  refine ⟨by decide, ?_, fun h => ?_⟩
  · intro done comp hstage
    obtain ⟨rfl, rfl⟩ := Stage.of_singleton hone hstage
    decide +kernel
  · have hchosen : (solveAll (rivalGraph "abstain" 500) 0 10000).chosen = rivalLines.map abstainCandidate := by
      decide +kernel
    have hapart := h.assignment.distinct
    rw [hchosen] at hapart
    exact (List.pairwise_cons.mp hapart).1 _ (List.mem_singleton_self _) (by decide +kernel) rfl

end Untangle
