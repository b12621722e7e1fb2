import Untangle.Correctness.Solver.Consistent

/-!
# `Correctness.Solver.Margin` — a verdict stands against every competing world

A chosen candidate is challenged by a second search, for the best assignment without it. `isContested_iff` says
when the challenge succeeds: a second search that is not cut off misses no world that competes, and one that is
cut off compares with the fallback to abstentions, which ties with nothing as a rule. So a verdict can be let
through against a competing world, exactly when a second search runs out of steps in this way
(`margin_sound_iff`).
-/

namespace Untangle

open Lib

variable {g : AssignmentGraph} {margin : ℚ} {maxSteps : ℤ} {consumed comp : List String}
  {done : List (List String)} {best : ComponentSolution} {A B : List CandidateAssignment}
  {c : CandidateAssignment}

/-! ## Competing worlds -/

/-- The second cost ties with the first one on the harder tiers, with an evidence gap within the margin. -/
def Ties (margin : ℚ) (a b : Cost) : Prop := b.harder = a.harder ∧ b.negEvidence - a.negEvidence ≤ margin

/-- An assignment of the component without the candidate, as good as the chosen one up to the margin. -/
structure Competes (g : AssignmentGraph) (margin : ℚ) (comp : List String) (chosen : List CandidateAssignment)
    (c : CandidateAssignment) (A : List CandidateAssignment) : Prop where
  feasible : Feasible g [] [] comp A
  excludes : c ∉ A
  ties : Ties margin (sumCost chosen) (sumCost A)

/-- The candidates chosen for the credits of a component. -/
def chosenIn (g : AssignmentGraph) (margin : ℚ) (maxSteps : ℤ) (comp : List String) : List CandidateAssignment :=
  (solveAll g margin maxSteps).chosen.filter fun c => c.creditKeys.any fun k => k ∈ comp

/-- A verdict that does not abstain has no competing world. -/
def MarginSound (U : Unicode) (g : AssignmentGraph) (margin : ℚ) (maxSteps : ℤ) : Prop :=
  ∀ comp ∈ g.components, ∀ k ∈ comp, ∀ v, (solveAssignment U g margin maxSteps).verdicts.get? k = some v →
    v.abstained = false → ∀ c, (chosenByCredit (solveAll g margin maxSteps).chosen).get? k = some c →
      ¬ ∃ A, Competes g margin comp (chosenIn g margin maxSteps comp) c A

theorem Cost.negEvidence_le_of_le {a b : Cost} (h : a ≤ b) (hharder : a.harder = b.harder) :
    a.negEvidence ≤ b.negEvidence := by
  unfold Cost.harder at hharder
  simp only [EmbeddingLike.apply_eq_iff_eq, Prod.mk.injEq] at hharder
  obtain ⟨h₁, h₂, h₃⟩ := hharder
  -- the three harder tiers are equal, so the fourth one decides
  rw [Prod.Lex.le_iff] at h
  rcases h with h | ⟨_, h⟩
  · exact absurd h h₁.not_lt
  rw [Prod.Lex.le_iff] at h
  rcases h with h | ⟨_, h⟩
  · exact absurd h h₂.not_lt
  rw [Prod.Lex.le_iff] at h
  rcases h with h | ⟨_, h⟩
  · exact absurd h h₃.not_lt
  rw [Prod.Lex.le_iff] at h
  rcases h with h | ⟨h, _⟩
  · exact h.le
  · exact h.le

/-! ## The second search -/

/-- What the second search settles on when it runs out of steps. -/
def cutOffCost (g : AssignmentGraph) (c : CandidateAssignment) (comp : List String) : Cost :=
  ((baseline g [c.assignmentId] comp).map Prod.fst).getD zeroCost

/-- The second search speaks against the candidate. When it is not cut off, an assignment or fallback without the
    candidate's id competes and no fallback is cheaper on the harder tiers; when it is cut off, the abstentions it
    settles on compete. -/
def Answered (g : AssignmentGraph) (margin : ℚ) (maxSteps : ℤ) (consumed comp : List String)
    (best : ComponentSolution) (c : CandidateAssignment) : Prop :=
  if (alternative g maxSteps consumed comp c).timedOut then
    defaultChosen g [c.assignmentId] comp ≠ [] ∧ Ties margin best.cost (cutOffCost g c comp)
  else
    (∃ A, IsOption g consumed [c.assignmentId] comp A ∧ Ties margin best.cost (sumCost A)) ∧
      ∀ A, IsFallback g [c.assignmentId] comp A → ¬ (sumCost A).harder < best.cost.harder

theorem onGrid_cutOffCost (hcost : ∀ c ∈ g.candidates, CostOk c) : OnGrid (cutOffCost g c comp) := by
  unfold cutOffCost
  cases hbase : baseline g [c.assignmentId] comp with
  | none => exact OnGrid.zero
  | some base =>
      obtain ⟨hfall, htotal⟩ := baseline_eq_some hbase
      have hoption : IsOption g [] [c.assignmentId] comp base.2 := Or.inr hfall
      have hgrid := hoption.onGrid hcost
      show OnGrid base.1
      rw [htotal, totalCost_eq hgrid]
      exact onGrid_sumCost hgrid

theorem alternative_timedOut (h : (alternative g maxSteps consumed comp c).timedOut = true) :
    (alternative g maxSteps consumed comp c).assignment = defaultChosen g [c.assignmentId] comp ∧
      (alternative g maxSteps consumed comp c).cost = cutOffCost g c comp := by
  refine ⟨solveComponent_timedOut h, ?_⟩
  unfold alternative at h ⊢
  rw [timedOut_solveComponent] at h
  unfold solveComponent
  dsimp only
  rw [if_pos h]
  rfl

/-- With both costs on the grid, the rounded gap is the gap. -/
theorem contestedGap_isSome {alt : ComponentSolution} (hbest : OnGrid best.cost) (halt : OnGrid alt.cost) :
    (contestedGap margin best alt).isSome = true ↔ alt.assignment ≠ [] ∧ Ties margin best.cost alt.cost := by
  have hgap : roundTo 4 (alt.cost.negEvidence - best.cost.negEvidence) =
      alt.cost.negEvidence - best.cost.negEvidence := roundTo_of_isDecimal (halt.1.sub hbest.1)
  unfold contestedGap Ties
  rw [hgap]
  split
  · rename_i h
    simpa using h
  · rename_i h
    simpa using h

/-- What the second search has to know of the first one. -/
structure Challenged (g : AssignmentGraph) (consumed comp : List String) (best : ComponentSolution)
    (c : CandidateAssignment) : Prop where
  chosen : c ∈ best.assignment
  openTarget : c.isAbstention = false
  cost : best.cost = sumCost best.assignment
  grid : OnGrid best.cost
  least : ∀ A, IsOption g consumed [] comp A → best.cost ≤ sumCost A
  nonempty : comp ≠ []

/-- **The challenge succeeds exactly when the second search speaks against the candidate.** -/
theorem isContested_iff (hne : ∀ c ∈ g.candidates, c.creditKeys ≠ []) (hcost : ∀ c ∈ g.candidates, CostOk c)
    (hmargin : 0 < margin) (h : Challenged g consumed comp best c) :
    IsContested g margin maxSteps consumed comp best c ↔
      Answered g margin maxSteps consumed comp best c := by
  unfold IsContested
  rw [and_iff_right hmargin, and_iff_right h.openTarget]
  unfold Answered
  cases hopen : (alternative g maxSteps consumed comp c).timedOut with
  | true =>
      obtain ⟨hassignment, hcosts⟩ := alternative_timedOut hopen
      rw [if_pos rfl, contestedGap_isSome h.grid (hcosts ▸ onGrid_cutOffCost hcost), hassignment, hcosts]
  | false =>
      rw [if_neg Bool.false_ne_true]
      by_cases hsome : ∃ A, IsOption g consumed [c.assignmentId] comp A
      · obtain ⟨hbest, hcosts, hleast⟩ : IsOption g consumed [c.assignmentId] comp
              (alternative g maxSteps consumed comp c).assignment ∧
            (alternative g maxSteps consumed comp c).cost =
              sumCost (alternative g maxSteps consumed comp c).assignment ∧
            ∀ A, IsOption g consumed [c.assignmentId] comp A →
              (alternative g maxSteps consumed comp c).cost ≤ sumCost A :=
          solveComponent_optimal hne hcost hopen hsome
        have hgrid : OnGrid (alternative g maxSteps consumed comp c).cost := by
          rw [hcosts]
          exact onGrid_sumCost (hbest.onGrid hcost)
        rw [contestedGap_isSome h.grid hgrid]
        constructor
        · rintro ⟨_, hties⟩
          refine ⟨⟨_, hbest, hcosts ▸ hties⟩, fun A hA hlt => ?_⟩
          have hle := Cost.harder_le_of_le (hleast A (Or.inr hA))
          rw [hties.1] at hle
          exact absurd hlt (not_lt.mpr hle)
        · rintro ⟨⟨B, hB, hties⟩, hfallback⟩
          -- the second optimum is no cheaper than the first one on the harder tiers
          have hge : best.cost.harder ≤ (alternative g maxSteps consumed comp c).cost.harder := by
            rcases hbest with hbest' | hbest'
            · have hfirst := Cost.harder_le_of_le (h.least _ (Or.inl hbest'.allow))
              rw [← hcosts] at hfirst
              exact hfirst
            · have hnot := hfallback _ hbest'
              rw [← hcosts] at hnot
              exact not_lt.mp hnot
          have hle := hleast B hB
          have hharder : (alternative g maxSteps consumed comp c).cost.harder = best.cost.harder :=
            le_antisymm ((Cost.harder_le_of_le hle).trans_eq hties.1) hge
          refine ⟨?_, hharder, ?_⟩
          · intro hnil
            rw [hnil] at hbest
            rcases hbest with hbest | hbest
            · obtain ⟨k, hk⟩ := List.exists_mem_of_ne_nil _ h.nonempty
              obtain ⟨c', hc', _⟩ := (hbest.covers k).mp hk
              exact List.not_mem_nil hc'
            · exact h.nonempty (List.length_eq_zero_iff.mp hbest.2.symm)
          · have hevidence := Cost.negEvidence_le_of_le hle (hharder.trans hties.1.symm)
            exact (sub_le_sub_right hevidence _).trans hties.2
      · have hnone := solveComponent_none hcost hopen hsome
        constructor
        · intro hgap
          unfold contestedGap at hgap
          rw [if_neg (fun hyes => hyes.1 hnone)] at hgap
          exact absurd hgap (by simp)
        · rintro ⟨⟨B, hB, _⟩, _⟩
          exact absurd ⟨B, hB⟩ hsome

/-! ## The run -/

/-- The steps after a state only add candidates, and contested credits, of their own components. -/
theorem foldl_solveStep (hg : WellFormed g) (margin : ℚ) (maxSteps : ℤ) :
    ∀ {rest : List (List String)} (st : SolveState), (∀ comp ∈ rest, comp ∈ g.components) →
      (∃ L, (rest.foldl (solveStep g margin maxSteps) st).chosen = st.chosen ++ L ∧
        ∀ c ∈ L, c ∈ g.candidates ∧ c.creditKeys ⊆ rest.flatten) ∧
      ∀ k, k ∈ (rest.foldl (solveStep g margin maxSteps) st).contested.keys →
        k ∈ st.contested.keys ∨ k ∈ rest.flatten := by
  intro rest
  induction rest with
  | nil =>
      intro st _
      exact ⟨⟨[], (List.append_nil _).symm, fun c hc => absurd hc List.not_mem_nil⟩, fun k hk => Or.inl hk⟩
  | cons comp rest ih =>
      intro st hrest
      have hsettled := solveComponent_settled st.consumed [] hg (hrest comp List.mem_cons_self) maxSteps
      obtain ⟨⟨L, hL, hwithin⟩, hcontested⟩ := ih (solveStep g margin maxSteps st comp)
        fun comp' hcomp' => hrest comp' (List.mem_cons_of_mem _ hcomp')
      rw [List.foldl_cons, List.flatten_cons]
      refine ⟨⟨(solveComponent g st.consumed [] maxSteps comp).assignment ++ L, ?_, ?_⟩, fun k hk => ?_⟩
      · rw [hL, ← List.append_assoc]
        rfl
      · intro c hc
        rcases List.mem_append.mp hc with hc | hc
        · exact ⟨hsettled.mem c hc, fun k hk => List.mem_append_left _ (hsettled.within c hc hk)⟩
        · exact ⟨(hwithin c hc).1, fun k hk => List.mem_append_right _ ((hwithin c hc).2 hk)⟩
      · rcases hcontested k hk with hk | hk
        · rcases mem_keys_markContested.mp hk with hk | ⟨c, hc, _, hkc⟩
          · exact Or.inl hk
          · exact Or.inr (List.mem_append_left _ (hsettled.within c hc hkc))
        · exact Or.inr (List.mem_append_right _ hk)

/-- The solution of the component at its stage of the run. -/
def stageBest (g : AssignmentGraph) (margin : ℚ) (maxSteps : ℤ) (done : List (List String))
    (comp : List String) : ComponentSolution :=
  solveComponent g (stateAfter g margin maxSteps done).consumed [] maxSteps comp

theorem Stage.settled (hg : WellFormed g) (h : Stage g done comp) (margin : ℚ) (maxSteps : ℤ) :
    Settled g comp (stageBest g margin maxSteps done comp).assignment :=
  solveComponent_settled _ [] hg h.mem maxSteps

/-- The credits of the later components are other credits. -/
theorem Stage.disjoint_rest (hg : WellFormed g) {rest : List (List String)}
    (h : g.components = done ++ comp :: rest) : List.Disjoint comp rest.flatten := by
  have hnd := hg.components.nodup_iff.mpr (Dict.nodup_keys _)
  rw [h, List.flatten_append, List.flatten_cons] at hnd
  exact List.disjoint_of_nodup_append (List.nodup_append.mp hnd).2.1

/-- **What is chosen in a component is the solution of its stage.** -/
theorem Stage.chosenIn_eq (hg : WellFormed g) (h : Stage g done comp) (margin : ℚ) (maxSteps : ℤ) :
    chosenIn g margin maxSteps comp = (stageBest g margin maxSteps done comp).assignment := by
  have hbefore := (h.solveInv hg margin maxSteps).settled
  have hown := h.settled hg margin maxSteps
  have hdisj := h.disjoint hg
  obtain ⟨rest, hrest⟩ := h.next
  have hcomps : ∀ comp' ∈ rest, comp' ∈ g.components := by
    intro comp' hcomp'
    rw [hrest]
    exact List.mem_append_right _ (List.mem_cons_of_mem _ hcomp')
  obtain ⟨⟨L, hL, hlater⟩, _⟩ := foldl_solveStep hg margin maxSteps
    (solveStep g margin maxSteps (stateAfter g margin maxSteps done) comp) hcomps
  have hall : (solveAll g margin maxSteps).chosen = (stateAfter g margin maxSteps done).chosen ++
      (stageBest g margin maxSteps done comp).assignment ++ L := by
    rw [← stateAfter_components, hrest]
    unfold stateAfter
    rw [List.foldl_append, List.foldl_cons]
    exact hL
  -- no credit of the component is in an earlier or a later part
  have hnone : ∀ {l : List CandidateAssignment} {keys : List String}, (∀ c ∈ l, c.creditKeys ⊆ keys) →
      List.Disjoint keys comp → (l.filter fun c => c.creditKeys.any fun k => k ∈ comp) = [] := by
    intro l keys hkeys hdisj
    refine List.filter_eq_nil_iff.mpr fun c hc hany => ?_
    obtain ⟨k, hk, hin⟩ := List.any_eq_true.mp hany
    exact hdisj (hkeys c hc hk) (of_decide_eq_true hin)
  unfold chosenIn
  rw [hall, List.filter_append, List.filter_append, hnone hbefore.within hdisj,
    hnone (fun c hc => (hlater c hc).2) (Stage.disjoint_rest hg hrest).symm, List.append_nil, List.nil_append]
  refine List.filter_eq_self.mpr fun c hc => ?_
  obtain ⟨k, hk⟩ := List.exists_mem_of_ne_nil _ (hg.keys_ne c (hown.mem c hc))
  exact List.any_eq_true.mpr ⟨k, hk, decide_eq_true (hown.within c hc hk)⟩

/-- A credit of the component is contested in the end when its candidate is contested at the stage. -/
theorem Stage.contested_iff (hg : WellFormed g) (h : Stage g done comp) {k : String} (hk : k ∈ comp) :
    k ∈ (solveAll g margin maxSteps).contested.keys ↔
      ∃ c ∈ (stageBest g margin maxSteps done comp).assignment,
        IsContested g margin maxSteps (stateAfter g margin maxSteps done).consumed comp
          (stageBest g margin maxSteps done comp) c ∧ k ∈ c.creditKeys := by
  have hinv := h.solveInv hg margin maxSteps
  have hdisj := h.disjoint hg
  obtain ⟨rest, hrest⟩ := h.next
  have hcomps : ∀ comp' ∈ rest, comp' ∈ g.components := by
    intro comp' hcomp'
    rw [hrest]
    exact List.mem_append_right _ (List.mem_cons_of_mem _ hcomp')
  have hall : (solveAll g margin maxSteps) = rest.foldl (solveStep g margin maxSteps)
      (solveStep g margin maxSteps (stateAfter g margin maxSteps done) comp) := by
    rw [← stateAfter_components, hrest]
    unfold stateAfter
    rw [List.foldl_append, List.foldl_cons]
  have hstep : k ∈ (solveStep g margin maxSteps (stateAfter g margin maxSteps done) comp).contested.keys ↔
      ∃ c ∈ (stageBest g margin maxSteps done comp).assignment,
        IsContested g margin maxSteps (stateAfter g margin maxSteps done).consumed comp
          (stageBest g margin maxSteps done comp) c ∧ k ∈ c.creditKeys := by
    refine mem_keys_markContested.trans (or_iff_right fun hearlier => ?_)
    exact hdisj (hinv.contested_within hearlier) hk
  rw [← hstep, hall]
  constructor
  · intro hcon
    rcases (foldl_solveStep hg margin maxSteps _ hcomps).2 k hcon with hcon | hlater
    · exact hcon
    · exact absurd hlater (Stage.disjoint_rest hg hrest hk)
  · exact contested_mono _ rest

/-! ## Soundness of the margin -/

/-- What is chosen at a stage and is no abstention has been challenged. -/
theorem Stage.challenged (hg : WellFormed g) (h : Stage g done comp)
    (hc : c ∈ (stageBest g margin maxSteps done comp).assignment) (hopen : c.isAbstention = false) :
    Challenged g (stateAfter g margin maxSteps done).consumed comp (stageBest g margin maxSteps done comp) c := by
  have hfinished : (stageBest g margin maxSteps done comp).timedOut = false := by
    -- a solution that is cut off consists of abstentions
    refine Bool.eq_false_iff.mpr fun hcut => ?_
    have habstains : (stageBest g margin maxSteps done comp).assignment = defaultChosen g [] comp :=
      solveComponent_timedOut hcut
    rw [habstains] at hc
    rw [isAbstention_of_target (mem_defaultChosen.mp hc).2.1] at hopen
    exact absurd hopen (by simp)
  have hsome : ∃ A, IsOption g (stateAfter g margin maxSteps done).consumed [] comp A := by
    by_contra hnone
    have hnil : (stageBest g margin maxSteps done comp).assignment = [] :=
      solveComponent_none hg.cost hfinished hnone
    rw [hnil] at hc
    exact List.not_mem_nil hc
  obtain ⟨hbest, hcost, hleast⟩ := solveComponent_optimal hg.keys_ne hg.cost hfinished hsome
  refine ⟨hc, hopen, hcost, ?_, hleast, ?_⟩
  · show OnGrid (solveComponent g _ [] maxSteps comp).cost
    rw [hcost]
    exact onGrid_sumCost (hbest.onGrid hg.cost)
  · obtain ⟨k, hk⟩ := List.exists_mem_of_ne_nil _ (hg.keys_ne c ((h.settled hg margin maxSteps).mem c hc))
    exact List.ne_nil_of_mem ((h.settled hg margin maxSteps).within c hc hk)

/-- Every chosen candidate with a competing world has the second search against it. -/
def AllAnswered (g : AssignmentGraph) (margin : ℚ) (maxSteps : ℤ) : Prop :=
  ∀ done comp, Stage g done comp → ∀ c ∈ (stageBest g margin maxSteps done comp).assignment,
    c.isAbstention = false →
      (∃ A, Competes g margin comp (stageBest g margin maxSteps done comp).assignment c A) →
        Answered g margin maxSteps (stateAfter g margin maxSteps done).consumed comp
          (stageBest g margin maxSteps done comp) c

theorem marginSound_iff (hg : WellFormed g) (U : Unicode) (hmargin : 0 < margin) (maxSteps : ℤ) :
    MarginSound U g margin maxSteps ↔ AllAnswered g margin maxSteps := by
  constructor
  · intro hsound done comp hstage c hc hopen hcompetes
    have hown := hstage.settled hg margin maxSteps
    obtain ⟨k, hk⟩ := List.exists_mem_of_ne_nil _ (hg.keys_ne c (hown.mem c hc))
    have hkcomp := hown.within c hc hk
    have hchosen : c ∈ (solveAll g margin maxSteps).chosen := hstage.assignment_subset hc
    have hlookup : (chosenByCredit (solveAll g margin maxSteps).chosen).get? k = some c := by
      obtain ⟨c', hc'⟩ := exists_chosenByCredit hchosen hk
      obtain ⟨hin, hk'⟩ := chosenByCredit_get? hc'
      rw [hc', (solveInv_solveAll hg margin maxSteps).settled.owns c hchosen hopen c' hin k hk hk']
    refine (isContested_iff hg.keys_ne hg.cost hmargin (hstage.challenged hg hc hopen)).mp ?_
    by_contra hnot
    -- otherwise no candidate of the credit is contested, and its verdict stands
    have hfree : k ∉ (solveAll g margin maxSteps).contested.keys := by
      intro hcon
      obtain ⟨c', hc', hcon', hk'⟩ := (hstage.contested_iff hg hkcomp).mp hcon
      rw [hown.owns c hc hopen c' hc' k hk hk'] at hcon'
      exact hnot hcon'
    have hverdict : (verdictOn U g margin maxSteps k).abstained = false :=
      (creditVerdict_chosen _ hfree hlookup hopen).1
    refine hsound comp hstage.mem k hkcomp _ (get?_verdicts.mpr ⟨hg.comp_subset hstage.mem hkcomp, rfl⟩)
      hverdict c hlookup ?_
    rw [hstage.chosenIn_eq hg margin maxSteps]
    exact hcompetes
  · intro hall comp hcomp k hk v hv hopenv c hlookup hcompetes
    obtain ⟨done, hstage⟩ := exists_stage hcomp
    rw [hstage.chosenIn_eq hg margin maxSteps] at hcompetes
    rw [← (get?_verdicts.mp hv).2] at hopenv
    obtain ⟨hfree, c', hc', hopen, _⟩ := creditVerdict_open hopenv
    rw [hlookup, Option.some.injEq] at hc'
    subst hc'
    obtain ⟨hchosen, hkc⟩ := chosenByCredit_get? hlookup
    have hc : c ∈ (stageBest g margin maxSteps done comp).assignment := by
      rw [← hstage.chosenIn_eq hg margin maxSteps]
      exact List.mem_filter.mpr ⟨hchosen, List.any_eq_true.mpr ⟨k, hkc, decide_eq_true hk⟩⟩
    have hcon := (isContested_iff hg.keys_ne hg.cost hmargin (hstage.challenged hg hc hopen)).mpr
      (hall done comp hstage c hc hopen hcompetes)
    exact hfree ((hstage.contested_iff hg hk).mpr ⟨c, hc, hcon, hkc⟩)

/-- **The margin is sound** exactly when every competing world is answered by the second search. -/
theorem margin_sound_iff (U : Unicode) (gs : GraphSettings) (index : ReconIndex) (lines : List BankCreditLine)
    (margin : ℚ) (hmargin : 0 < margin) (maxSteps : ℤ) :
    MarginSound U (buildCandidateGraph U gs index lines) margin maxSteps ↔
      AllAnswered (buildCandidateGraph U gs index lines) margin maxSteps :=
  marginSound_iff (buildCandidateGraph_wellFormed U gs index lines) U hmargin maxSteps

/-- Every chosen candidate is alone in having its id, and its second search is not cut off. -/
structure SearchedThrough (g : AssignmentGraph) (margin : ℚ) (maxSteps : ℤ) : Prop where
  named : ∀ c ∈ g.candidates, ∀ c' ∈ g.candidates, c'.assignmentId = c.assignmentId → c' = c
  within : ∀ done comp, Stage g done comp → ∀ c ∈ (stageBest g margin maxSteps done comp).assignment,
    c.isAbstention = false →
      (alternative g maxSteps (stateAfter g margin maxSteps done).consumed comp c).timedOut = false

/-- **A second search that is not cut off misses no competing world.** -/
theorem allAnswered_of_searchedThrough (hg : WellFormed g) (h : SearchedThrough g margin maxSteps) :
    AllAnswered g margin maxSteps := by
  intro done comp hstage c hc hopen hcompetes
  have hchallenged := hstage.challenged hg hc hopen
  have hcand : c ∈ g.candidates := (hstage.settled hg margin maxSteps).mem c hc
  obtain ⟨A, hA⟩ := hcompetes
  unfold Answered
  rw [h.within done comp hstage c hc hopen, if_neg Bool.false_ne_true]
  refine ⟨⟨A, Or.inl ?_, hchallenged.cost ▸ hA.ties⟩, fun B hB hlt => ?_⟩
  · have hallowed : ∀ c' ∈ A, c'.assignmentId ∉ [c.assignmentId] := by
      intro c' hc' hid
      rw [h.named c hcand c' (hA.feasible.mem c' hc') (List.mem_singleton.mp hid)] at hc'
      exact hA.excludes hc'
    exact Feasible.bar hg hstage.mem ((hstage.solveInv hg margin maxSteps).elsewhere (hstage.disjoint hg))
      ⟨hA.feasible.mem, hallowed, hA.feasible.fresh, hA.feasible.covers, hA.feasible.disjoint, hA.feasible.distinct⟩
  · -- no abstention has the candidate's id, so this fallback is that of the first search
    have hsame : defaultChosen g [c.assignmentId] comp = defaultChosen g [] comp := by
      unfold defaultChosen
      refine List.flatMap_congr fun k _ => List.filter_congr fun c' hc' => ?_
      rw [decide_eq_decide]
      refine and_congr_right fun htarget => iff_of_true ?_ List.not_mem_nil
      intro hid
      rw [h.named c hcand c' (mem_candidatesOf.mp hc').1 (List.mem_singleton.mp hid)] at htarget
      rw [isAbstention_of_target htarget] at hopen
      exact absurd hopen (by simp)
    have hfall : IsFallback g [] comp B := ⟨hB.1.trans hsame, hB.2⟩
    exact absurd hlt (not_lt.mpr (Cost.harder_le_of_le (hchallenged.least B (Or.inr hfall))))

/-! ### A challenge that succeeds, and one that is cut off -/

/-- Of two rivals for one settlement none gets it: the world in which the other one does is as good. -/
theorem margin_sound_iff_rivals : MarginSound asciiUnicode (rivalGraph "S1" 100000) (1 / 2) 10000 ∧
    (solveAssignment asciiUnicode (rivalGraph "S1" 100000) (1 / 2) 10000).verdicts.items.map
      (fun p => (p.1, p.2.abstained)) = [("a", true), ("b", true)] := by
  have hone : (rivalGraph "S1" 100000).components = [["a", "b"]] := by decide +kernel
  have hg : WellFormed (rivalGraph "S1" 100000) := buildCandidateGraph_wellFormed _ _ _ _
  refine ⟨(margin_sound_iff asciiUnicode {} _ rivalLines (1 / 2) (by decide +kernel) 10000).mpr ?_,
    by decide +kernel⟩
  refine allAnswered_of_searchedThrough hg ⟨by decide +kernel, ?_⟩
  intro done comp hstage
  obtain ⟨rfl, rfl⟩ := Stage.of_singleton hone hstage
  decide +kernel

/-- Candidates with distinct targets whose credits make up the component are feasible. -/
theorem feasible_of_perm (hmem : ∀ c ∈ A, c ∈ g.candidates) (hperm : (A.flatMap CandidateAssignment.creditKeys).Perm comp)
    (hnodup : comp.Nodup) (htargets : (A.map CandidateAssignment.targetId).Nodup) : Feasible g [] [] comp A where
  mem := hmem
  allowed _ _ := List.not_mem_nil
  fresh _ _ _ := List.not_mem_nil
  covers k := by
    rw [← hperm.mem_iff, List.mem_flatMap]
  disjoint := by
    have hall := List.nodup_flatMap.mp (hperm.nodup_iff.mpr hnodup)
    exact hall.2
  distinct := by
    have hne : A.Pairwise fun c c' => c.targetId ≠ c'.targetId := List.pairwise_map.mp htargets
    exact hne.imp fun hne _ heq => hne heq.symm

def crowdedUtr (i : Nat) : String := "1780498800np8vm" ++ ["a", "b", "c", "d"].getD i ""

/-- One credit names the UTRs of four settlements and a keyword; the other three name one of them each. -/
def crowdedLines : List BankCreditLine :=
  [creditLine "A" (crowdedUtr 0 ++ " " ++ crowdedUtr 1 ++ " " ++ crowdedUtr 2 ++ " " ++ crowdedUtr 3 ++ " x") 100000,
    creditLine "B1" (crowdedUtr 1) 100003, creditLine "B2" (crowdedUtr 2) 100002,
    creditLine "B3" (crowdedUtr 3) 100001]

def crowdedGraph : AssignmentGraph :=
  buildCandidateGraph asciiUnicode (keywordSettings .otherGateway) (ReconIndex.ofRows asciiUnicode
    [settledRow "p0" "S0" (some (crowdedUtr 0)) 100000, settledRow "p1" "S1" (some (crowdedUtr 1)) 100000,
      settledRow "p2" "S2" (some (crowdedUtr 2)) 100000, settledRow "p3" "S3" (some (crowdedUtr 3)) 100000])
    crowdedLines

def crowdedComponent : List String := ["A", "B1", "B2", "B3"]

/-- The world in which the first credit belongs to the rail of the keyword. -/
def crowdedRival : List CandidateAssignment :=
  crowdedGraph.candidates.filter fun c =>
    c.assignmentId ∈ ["A->rail:other_gateway", "B1->S1", "B2->S2", "B3->S3"]

/-- What the run on the crowded period comes to with fifteen steps. -/
theorem crowded_run : crowdedGraph.components = [crowdedComponent] ∧ "A" ∈ crowdedGraph.credits.keys ∧
    ((chosenByCredit (solveAll crowdedGraph (1 / 2) 15).chosen).get? "A").map CandidateAssignment.assignmentId =
      some "A->S0" ∧
    (verdictOn asciiUnicode crowdedGraph (1 / 2) 15 "A").abstained = false ∧
    (crowdedRival.flatMap CandidateAssignment.creditKeys).Perm crowdedComponent ∧
    (crowdedRival.map CandidateAssignment.targetId).Nodup ∧
    (sumCost crowdedRival).harder = (sumCost (chosenIn crowdedGraph (1 / 2) 15 crowdedComponent)).harder ∧
    (sumCost crowdedRival).negEvidence -
      (sumCost (chosenIn crowdedGraph (1 / 2) 15 crowdedComponent)).negEvidence ≤ 1 / 2 := by
  decide +kernel

/-- With fifteen steps the second search is cut off, and a verdict stands against an equally good world. -/
theorem margin_cut_off : (crowdedLines.map BankCreditLine.key).Nodup ∧
    ¬ MarginSound asciiUnicode crowdedGraph (1 / 2) 15 := by
  refine ⟨by decide, fun hsound => ?_⟩
  obtain ⟨hone, hcredit, hpick, hstands, hperm, htargets, hharder, hgap⟩ := crowded_run
  obtain ⟨c, hc, hid⟩ := Option.map_eq_some_iff.mp hpick
  have hcompetes : Competes crowdedGraph (1 / 2) crowdedComponent
      (chosenIn crowdedGraph (1 / 2) 15 crowdedComponent) c crowdedRival := by
    refine ⟨feasible_of_perm (fun c hc => (List.mem_filter.mp hc).1) hperm (by decide) htargets, fun hin => ?_,
      hharder, hgap⟩
    have hother := of_decide_eq_true (List.mem_filter.mp hin).2
    rw [hid] at hother
    exact absurd hother (by decide)
  exact hsound _ (hone ▸ List.mem_singleton_self _) "A" (by decide) _ (get?_verdicts.mpr ⟨hcredit, rfl⟩) hstands
    c hc ⟨crowdedRival, hcompetes⟩

end Untangle
