import Untangle.Correctness.Solver.Component

/-!
# `Correctness.Solver.Run` — the loop over the components

One step solves a component and evaluates the margin of what it chose. `SolveInv` is what holds after any number
of steps, for every margin and every step budget: a candidate that is not an abstention shares no credit and no
settlement with any other chosen one, whole candidates are contested, and the consumed settlements are those
with a credit that is not.
-/

namespace Untangle

open Lib

variable {g : AssignmentGraph} {consumed excluded comp keys : List String}
  {A B : List CandidateAssignment} {c c' : CandidateAssignment}

/-! ## Across components -/

/-- The settlements are consumed by other components. -/
def Elsewhere (g : AssignmentGraph) (comp consumed : List String) : Prop :=
  ∀ s ∈ consumed, s ∈ g.settlements.keys ∧ ∃ c ∈ g.candidates, c.targetId = s ∧ ∃ k ∈ c.creditKeys, k ∉ comp

theorem Feasible.unbar (h : Feasible g consumed excluded keys A) : Feasible g [] excluded keys A :=
  ⟨h.mem, h.allowed, fun _ _ _ => List.not_mem_nil, h.covers, h.disjoint, h.distinct⟩

theorem Feasible.allow (h : Feasible g consumed excluded keys A) : Feasible g consumed [] keys A :=
  ⟨h.mem, fun _ _ => List.not_mem_nil, h.fresh, h.covers, h.disjoint, h.distinct⟩

theorem Feasible.keys_subset (h : Feasible g consumed excluded keys A) (hc : c ∈ A) : c.creditKeys ⊆ keys :=
  fun k hk => (h.covers k).mpr ⟨c, hc, hk⟩

theorem Feasible.touches (hg : WellFormed g) (h : Feasible g consumed excluded keys A) (hc : c ∈ A) :
    ∃ k ∈ c.creditKeys, k ∈ keys := by
  obtain ⟨k, hk⟩ := List.exists_mem_of_ne_nil _ (hg.keys_ne c (h.mem c hc))
  exact ⟨k, hk, h.keys_subset hc hk⟩

/-- What other components consume bars no candidate of this one. -/
theorem Feasible.bar (hg : WellFormed g) (hcomp : comp ∈ g.components) (helse : Elsewhere g comp consumed)
    (h : Feasible g [] excluded comp A) : Feasible g consumed excluded comp A := by
  refine ⟨h.mem, h.allowed, fun c hc hin hbarred => ?_, h.covers, h.disjoint, h.distinct⟩
  obtain ⟨_, c', hc', htarget, k, hk, hout⟩ := helse _ hbarred
  exact hout (hg.competing comp hcomp c (h.mem c hc) c' hc' hin htarget (h.touches hg hc) hk)

theorem feasible_bar_iff (hg : WellFormed g) (hcomp : comp ∈ g.components)
    (helse : Elsewhere g comp consumed) :
    Feasible g consumed excluded comp A ↔ Feasible g [] excluded comp A :=
  ⟨Feasible.unbar, Feasible.bar hg hcomp helse⟩

/-- Two candidates for one settlement are in one component. -/
theorem WellFormed.same_component (hg : WellFormed g) (hcomp : comp ∈ g.components) (hc : c ∈ g.candidates)
    (hc' : c' ∈ g.candidates) (hin : c.targetId ∈ g.settlements.keys) (heq : c'.targetId = c.targetId)
    (htouch : ∃ k ∈ c'.creditKeys, k ∈ comp) : c.creditKeys ⊆ comp :=
  hg.competing comp hcomp c' hc' c hc (heq ▸ hin) heq.symm htouch

/-! ## What a component contributes -/

theorem isAbstention_of_target (h : c.targetId = "abstain") : c.isAbstention = true := by
  unfold CandidateAssignment.isAbstention
  rw [h, decide_eq_true rfl, Bool.true_or]

/-- The assignment of a component is feasible, or all its candidates point at the abstention. -/
theorem solveComponent_cases (consumed excluded comp : List String) (hcost : ∀ c ∈ g.candidates, CostOk c) (maxSteps : ℤ) :
    Feasible g consumed excluded comp (solveComponent g consumed excluded maxSteps comp).assignment ∨
      ∀ c ∈ (solveComponent g consumed excluded maxSteps comp).assignment,
        c ∈ g.candidates ∧ c.targetId = "abstain" ∧ ∃ k ∈ c.creditKeys, k ∈ comp := by
  have hdefault : ∀ c ∈ defaultChosen g excluded comp,
      c ∈ g.candidates ∧ c.targetId = "abstain" ∧ ∃ k ∈ c.creditKeys, k ∈ comp := by
    intro c hc
    obtain ⟨hcand, htarget, _, k, hk, hkc⟩ := mem_defaultChosen.mp hc
    exact ⟨hcand, htarget, k, hkc, hk⟩
  cases hopen : (solveComponent g consumed excluded maxSteps comp).timedOut with
  | true =>
      rw [solveComponent_timedOut hopen]
      exact Or.inr hdefault
  | false =>
      obtain ⟨st', hexplored, heq⟩ := solveComponent_explored hcost hopen
      rw [heq]
      cases hbest : st'.best with
      | none => exact Or.inr fun c hc => absurd hc List.not_mem_nil
      | some best =>
          rcases hexplored.origin with hbase | ⟨A, hrun, hnew⟩
          · refine Or.inr fun c hc => hdefault c ?_
            rw [← (baseline_eq_some (hbase.symm.trans hbest)).1.1]
            exact hc
          · rw [hbest, Option.some.injEq] at hnew
            rw [hnew, List.nil_append]
            exact Or.inl (run_feasible hrun)

/-- What the loop needs to know about the assignment of a component. -/
structure Settled (g : AssignmentGraph) (comp : List String) (A : List CandidateAssignment) : Prop where
  mem : ∀ c ∈ A, c ∈ g.candidates
  within : ∀ c ∈ A, c.creditKeys ⊆ comp
  owns : ∀ c ∈ A, c.isAbstention = false → ∀ c' ∈ A, ∀ k ∈ c.creditKeys, k ∈ c'.creditKeys → c' = c
  holds : ∀ c ∈ A, c.isAbstention = false → ∀ c' ∈ A, c'.isAbstention = false →
    c.targetId ∈ g.settlements.keys → c'.targetId = c.targetId → c' = c

theorem Feasible.settled (h : Feasible g consumed excluded comp A) : Settled g comp A where
  mem := h.mem
  within c hc := h.keys_subset hc
  owns := by
    intro c hc _ c' hc' k hk hk'
    by_contra hne
    exact h.disjoint.forall hc hc' (Ne.symm hne) hk hk'
  holds := by
    intro c hc _ c' hc' _ hin heq
    by_contra hne
    exact h.distinct.forall hc hc' (Ne.symm hne) hin heq

theorem solveComponent_settled (consumed excluded : List String) (hg : WellFormed g) (hcomp : comp ∈ g.components) (maxSteps : ℤ) :
    Settled g comp (solveComponent g consumed excluded maxSteps comp).assignment := by
  rcases solveComponent_cases consumed excluded comp hg.cost maxSteps with h | h
  · exact h.settled
  · refine ⟨fun c hc => (h c hc).1, fun c hc => hg.closed comp hcomp c (h c hc).1 (h c hc).2.2, ?_, ?_⟩
    · intro c hc hopen
      rw [isAbstention_of_target (h c hc).2.1] at hopen
      exact absurd hopen (by simp)
    · intro c hc hopen
      rw [isAbstention_of_target (h c hc).2.1] at hopen
      exact absurd hopen (by simp)

/-! ## The margin evaluation -/

/-- The explanation names the candidate as the chosen one. -/
def Names (e : Explanation) (c : CandidateAssignment) : Prop :=
  ∃ competing gap margin detail, e = .globalSolver c.summary competing gap margin detail

theorem get?_contest {margin gap : ℚ} {alt : List CandidateAssignment} {contested : Dict String Explanation}
    {k : String} {e : Explanation} (h : (contest margin gap c alt contested).get? k = some e) :
    contested.get? k = some e ∨ (k ∈ c.creditKeys ∧ Names e c) := by
  unfold contest at h
  revert h
  generalize c.creditKeys = ks
  induction ks generalizing contested with
  | nil => exact Or.inl
  | cons k' ks ih =>
      intro h
      rw [List.foldl_cons] at h
      rcases ih h with h | h
      · rw [Dict.get?_insert] at h
        split at h
        · rename_i heq
          rw [← Option.some.inj h]
          exact Or.inr ⟨heq ▸ List.mem_cons_self, _, _, _, _, rfl⟩
        · exact Or.inl h
      · exact Or.inr ⟨List.mem_cons_of_mem _ h.1, h.2⟩

theorem mem_keys_contest {margin gap : ℚ} {alt : List CandidateAssignment}
    {contested : Dict String Explanation} {k : String} :
    k ∈ (contest margin gap c alt contested).keys ↔ k ∈ contested.keys ∨ k ∈ c.creditKeys := by
  unfold contest
  generalize c.creditKeys = ks
  induction ks generalizing contested with
  | nil => simp
  | cons k' ks ih =>
      rw [List.foldl_cons, ih, Dict.mem_keys_insert, List.mem_cons, or_comm (a := k = k'), or_assoc]

variable {margin : ℚ} {maxSteps : ℤ} {best : ComponentSolution} {contested : Dict String Explanation}

/-- The candidate is contested: it is no abstention, and the best assignment without it is as good. -/
def IsContested (g : AssignmentGraph) (margin : ℚ) (maxSteps : ℤ) (consumed comp : List String)
    (best : ComponentSolution) (c : CandidateAssignment) : Prop :=
  0 < margin ∧ c.isAbstention = false ∧
    (contestedGap margin best (alternative g maxSteps consumed comp c)).isSome = true

/-- The loop of the margin evaluation, over any part of the assignment. -/
def challengeAll (g : AssignmentGraph) (margin : ℚ) (maxSteps : ℤ) (consumed comp : List String)
    (best : ComponentSolution) (l : List CandidateAssignment) (contested : Dict String Explanation) :
    Dict String Explanation :=
  l.foldl (fun d c =>
    if c.isAbstention then d
    else
      match contestedGap margin best (alternative g maxSteps consumed comp c) with
      | none => d
      | some gap => contest margin gap c (alternative g maxSteps consumed comp c).assignment d) contested

theorem markContested_eq (hmargin : 0 < margin) :
    markContested g margin maxSteps consumed comp best contested =
      challengeAll g margin maxSteps consumed comp best best.assignment contested := by
  unfold markContested
  rw [if_pos hmargin]
  rfl

theorem challengeAll_cons (l : List CandidateAssignment) (c : CandidateAssignment) :
    challengeAll g margin maxSteps consumed comp best (c :: l) contested =
      challengeAll g margin maxSteps consumed comp best l
        (if c.isAbstention then contested
        else
          match contestedGap margin best (alternative g maxSteps consumed comp c) with
          | none => contested
          | some gap => contest margin gap c (alternative g maxSteps consumed comp c).assignment contested) :=
  List.foldl_cons ..

theorem mem_keys_challengeAll (hmargin : 0 < margin) (l : List CandidateAssignment) {k : String} :
    k ∈ (challengeAll g margin maxSteps consumed comp best l contested).keys ↔
      k ∈ contested.keys ∨ ∃ c ∈ l, IsContested g margin maxSteps consumed comp best c ∧ k ∈ c.creditKeys := by
  induction l generalizing contested with
  | nil => simp [challengeAll]
  | cons c l ih =>
      rw [challengeAll_cons, ih, List.exists_mem_cons_iff, ← or_assoc]
      refine or_congr_left ?_
      unfold IsContested
      by_cases habs : c.isAbstention = true
      · simp [habs]
      · rw [if_neg habs]
        cases hgap : contestedGap margin best (alternative g maxSteps consumed comp c) with
        | none => simp
        | some gap => simp [mem_keys_contest, hmargin, habs]

theorem get?_challengeAll (hmargin : 0 < margin) (l : List CandidateAssignment) {k : String} {e : Explanation}
    (h : (challengeAll g margin maxSteps consumed comp best l contested).get? k = some e) :
    contested.get? k = some e ∨
      ∃ c ∈ l, IsContested g margin maxSteps consumed comp best c ∧ k ∈ c.creditKeys ∧ Names e c := by
  induction l generalizing contested with
  | nil => exact Or.inl h
  | cons c l ih =>
      rw [challengeAll_cons] at h
      rcases ih h with h | ⟨c', hc', h⟩
      · by_cases habs : c.isAbstention = true
        · rw [if_pos habs] at h
          exact Or.inl h
        · rw [if_neg habs] at h
          cases hgap : contestedGap margin best (alternative g maxSteps consumed comp c) with
          | none =>
              rw [hgap] at h
              exact Or.inl h
          | some gap =>
              rw [hgap] at h
              rcases get?_contest h with h | h
              · exact Or.inl h
              · refine Or.inr ⟨c, List.mem_cons_self, ⟨hmargin, Bool.eq_false_iff.mpr habs, ?_⟩, h⟩
                rw [hgap]
                rfl
      · exact Or.inr ⟨c', List.mem_cons_of_mem _ hc', h⟩

/-- **The credits a component adds to the contested ones** are those of its contested candidates. -/
theorem mem_keys_markContested {k : String} :
    k ∈ (markContested g margin maxSteps consumed comp best contested).keys ↔
      k ∈ contested.keys ∨
        ∃ c ∈ best.assignment, IsContested g margin maxSteps consumed comp best c ∧ k ∈ c.creditKeys := by
  by_cases hmargin : 0 < margin
  · rw [markContested_eq hmargin, mem_keys_challengeAll hmargin]
  · unfold markContested
    rw [if_neg hmargin]
    refine (or_iff_left ?_).symm
    rintro ⟨c, _, hcon, _⟩
    exact hmargin hcon.1

theorem get?_markContested {k : String} {e : Explanation}
    (h : (markContested g margin maxSteps consumed comp best contested).get? k = some e) :
    contested.get? k = some e ∨ ∃ c ∈ best.assignment,
      IsContested g margin maxSteps consumed comp best c ∧ k ∈ c.creditKeys ∧ Names e c := by
  by_cases hmargin : 0 < margin
  · rw [markContested_eq hmargin] at h
    exact get?_challengeAll hmargin _ h
  · unfold markContested at h
    rw [if_neg hmargin] at h
    exact Or.inl h

theorem mem_consumedBy {s : String} :
    s ∈ consumedBy g contested A ↔
      s ∈ g.settlements.keys ∧ ∃ c ∈ A, c.targetId = s ∧ ∃ k ∈ c.creditKeys, k ∉ contested.keys := by
  unfold consumedBy
  simp only [List.mem_map, List.mem_filter, Bool.and_eq_true, decide_eq_true_eq, Bool.not_eq_true',
    List.all_eq_false]
  constructor
  · rintro ⟨c, ⟨hc, hin, k, hk, hfree⟩, rfl⟩
    exact ⟨hin, c, hc, rfl, k, hk, by simpa using hfree⟩
  · rintro ⟨hin, c, hc, rfl, k, hk, hfree⟩
    exact ⟨c, ⟨hc, hin, k, hk, by simpa using hfree⟩, rfl⟩

/-! ## The invariant of the run -/

/-- What holds when the components in `done` are solved. -/
structure SolveInv (g : AssignmentGraph) (done : List (List String)) (st : SolveState) : Prop where
  settled : Settled g done.flatten st.chosen
  consumed : ∀ s, s ∈ st.consumed ↔
    s ∈ g.settlements.keys ∧ ∃ c ∈ st.chosen, c.targetId = s ∧ ∃ k ∈ c.creditKeys, k ∉ st.contested.keys
  contested : ∀ k e, st.contested.get? k = some e → ∃ c ∈ st.chosen, c.isAbstention = false ∧
    k ∈ c.creditKeys ∧ Names e c ∧ ∀ k' ∈ c.creditKeys, k' ∈ st.contested.keys

variable {done : List (List String)} {st : SolveState}

theorem solveInv_start : SolveInv g [] (startState g) where
  settled := by
    refine ⟨?_, ?_, ?_, ?_⟩ <;> exact fun c hc => absurd hc List.not_mem_nil
  consumed := by
    intro s
    simp [startState]
  contested k e h := absurd h (by simp [startState])

theorem SolveInv.contested_within (h : SolveInv g done st) {k : String} (hk : k ∈ st.contested.keys) :
    k ∈ done.flatten := by
  obtain ⟨e, he⟩ := Dict.exists_get?_of_mem_keys hk
  obtain ⟨c, hc, _, hkc, _⟩ := h.contested k e he
  exact h.settled.within c hc hkc

theorem SolveInv.elsewhere (h : SolveInv g done st) (hdisj : List.Disjoint done.flatten comp) :
    Elsewhere g comp st.consumed := by
  intro s hs
  obtain ⟨hin, c, hc, htarget, k, hk, _⟩ := (h.consumed s).mp hs
  exact ⟨hin, c, h.settled.mem c hc, htarget, k, hk, fun hcomp => hdisj (h.settled.within c hc hk) hcomp⟩

/-- Candidates of a component and of other credits have nothing in common. -/
theorem apart_of_disjoint (hg : WellFormed g) (hcomp : comp ∈ g.components) (hc : c ∈ g.candidates)
    (hc' : c' ∈ g.candidates) (hkeys : c.creditKeys ⊆ keys) (hkeys' : c'.creditKeys ⊆ comp)
    (hdisj : List.Disjoint keys comp) : KeysApart c c' ∧ TargetsApart g c c' := by
  refine ⟨fun k hk hk' => hdisj (hkeys hk) (hkeys' hk'), fun hin heq => ?_⟩
  obtain ⟨k, hk⟩ := List.exists_mem_of_ne_nil _ (hg.keys_ne c hc)
  obtain ⟨k', hk'⟩ := List.exists_mem_of_ne_nil _ (hg.keys_ne c' hc')
  exact hdisj (hkeys hk) (hg.same_component hcomp hc hc' hin heq ⟨k', hk', hkeys' hk'⟩ hk)

/-- Two settled parts with disjoint credits, the second one a component. -/
theorem Settled.append (hg : WellFormed g) (hcomp : comp ∈ g.components) (hA : Settled g keys A)
    (hB : Settled g comp B) (hdisj : List.Disjoint keys comp) : Settled g (keys ++ comp) (A ++ B) := by
  have hapart : ∀ c ∈ A, ∀ c' ∈ B, KeysApart c c' ∧ TargetsApart g c c' := fun c hc c' hc' =>
    apart_of_disjoint hg hcomp (hA.mem c hc) (hB.mem c' hc') (hA.within c hc) (hB.within c' hc') hdisj
  refine ⟨List.forall_mem_append.mpr ⟨hA.mem, hB.mem⟩, List.forall_mem_append.mpr
    ⟨fun c hc k hk => List.mem_append_left _ (hA.within c hc hk),
      fun c hc k hk => List.mem_append_right _ (hB.within c hc hk)⟩, ?_, ?_⟩
  · intro c hc hopen c' hc' k hk hk'
    rcases List.mem_append.mp hc with hc | hc <;> rcases List.mem_append.mp hc' with hc' | hc'
    · exact hA.owns c hc hopen c' hc' k hk hk'
    · exact absurd hk' ((hapart c hc c' hc').1 hk)
    · exact absurd hk ((hapart c' hc' c hc).1 hk')
    · exact hB.owns c hc hopen c' hc' k hk hk'
  · intro c hc hopen c' hc' hopen' hin heq
    rcases List.mem_append.mp hc with hc | hc <;> rcases List.mem_append.mp hc' with hc' | hc'
    · exact hA.holds c hc hopen c' hc' hopen' hin heq
    · exact absurd heq ((hapart c hc c' hc').2 hin)
    · exact absurd heq.symm ((hapart c' hc' c hc).2 (heq ▸ hin))
    · exact hB.holds c hc hopen c' hc' hopen' hin heq

/-- **One step keeps the invariant.** -/
theorem SolveInv.step (hg : WellFormed g) (hcomp : comp ∈ g.components) (h : SolveInv g done st)
    (hdisj : List.Disjoint done.flatten comp) : SolveInv g (done ++ [comp]) (solveStep g margin maxSteps st comp) := by
  have hbest := solveComponent_settled st.consumed [] hg hcomp maxSteps
  -- a credit of an earlier component is contested afterwards iff it was before
  have hold : ∀ c ∈ st.chosen, ∀ k ∈ c.creditKeys,
      k ∈ (solveStep g margin maxSteps st comp).contested.keys → k ∈ st.contested.keys := by
    intro c hc k hk hcon
    rcases mem_keys_markContested.mp hcon with hcon | ⟨c', hc', _, hk'⟩
    · exact hcon
    · exact absurd (hbest.within c' hc' hk') (hdisj (h.settled.within c hc hk))
  refine ⟨?_, ?_, ?_⟩
  · rw [List.flatten_append, List.flatten_singleton]
    exact h.settled.append hg hcomp hbest hdisj
  · intro s
    show s ∈ st.consumed ++ consumedBy g _ _ ↔ _
    rw [List.mem_append, h.consumed, mem_consumedBy, ← and_or_left]
    refine and_congr_right fun _ => ?_
    constructor
    · rintro (⟨c, hc, htarget, k, hk, hfree⟩ | ⟨c, hc, hrest⟩)
      · exact ⟨c, List.mem_append_left _ hc, htarget, k, hk, fun hcon => hfree (hold c hc k hk hcon)⟩
      · exact ⟨c, List.mem_append_right _ hc, hrest⟩
    · rintro ⟨c, hc, htarget, k, hk, hfree⟩
      rcases List.mem_append.mp hc with hc | hc
      · exact Or.inl ⟨c, hc, htarget, k, hk, fun hcon => hfree (mem_keys_markContested.mpr (Or.inl hcon))⟩
      · exact Or.inr ⟨c, hc, htarget, k, hk, hfree⟩
  · intro k e he
    rcases get?_markContested he with he | ⟨c, hc, hcon, hk, hnames⟩
    · obtain ⟨c, hc, hopen, hk, hnames, hall⟩ := h.contested k e he
      exact ⟨c, List.mem_append_left _ hc, hopen, hk, hnames,
        fun k' hk' => mem_keys_markContested.mpr (Or.inl (hall k' hk'))⟩
    · exact ⟨c, List.mem_append_right _ hc, hcon.2.1, hk, hnames,
        fun k' hk' => mem_keys_markContested.mpr (Or.inr ⟨c, hc, hcon, hk'⟩)⟩

/-! ## Runs -/

/-- The state when the components in `done` are solved. -/
def stateAfter (g : AssignmentGraph) (margin : ℚ) (maxSteps : ℤ) (done : List (List String)) : SolveState :=
  done.foldl (solveStep g margin maxSteps) (startState g)

theorem stateAfter_concat (done : List (List String)) (comp : List String) :
    stateAfter g margin maxSteps (done ++ [comp]) =
      solveStep g margin maxSteps (stateAfter g margin maxSteps done) comp := by
  unfold stateAfter
  rw [List.foldl_append]
  rfl

/-- `done`, `comp` and the rest are the components in the order of the loop. -/
structure Stage (g : AssignmentGraph) (done : List (List String)) (comp : List String) : Prop where
  next : ∃ rest, g.components = done ++ comp :: rest

theorem Stage.mem (h : Stage g done comp) : comp ∈ g.components := by
  obtain ⟨rest, hrest⟩ := h.next
  rw [hrest]
  exact List.mem_append_right _ List.mem_cons_self

theorem Stage.disjoint (hg : WellFormed g) (h : Stage g done comp) : List.Disjoint done.flatten comp := by
  obtain ⟨rest, hrest⟩ := h.next
  have hnd := hg.components.nodup_iff.mpr (Dict.nodup_keys _)
  rw [hrest, List.flatten_append, List.flatten_cons, ← List.append_assoc] at hnd
  exact List.disjoint_of_nodup_append (List.nodup_append.mp hnd).1

theorem exists_stage (h : comp ∈ g.components) : ∃ done, Stage g done comp := by
  obtain ⟨done, rest, heq⟩ := List.append_of_mem h
  exact ⟨done, rest, heq⟩

/-- **Every state of the run meets the invariant.** -/
theorem solveInv_stateAfter (hg : WellFormed g) (margin : ℚ) (maxSteps : ℤ) :
    ∀ {done rest : List (List String)}, g.components = done ++ rest →
      SolveInv g done (stateAfter g margin maxSteps done) := by
  intro done
  induction done using List.reverseRecOn with
  | nil => exact fun _ => solveInv_start
  | append_singleton done comp ih =>
      intro rest hrest
      rw [List.append_assoc, List.singleton_append] at hrest
      have hstage : Stage g done comp := ⟨rest, hrest⟩
      rw [stateAfter_concat]
      exact (ih hrest).step hg hstage.mem (hstage.disjoint hg)

/-- With one component there is one stage. -/
theorem Stage.of_singleton {comp₀ : List String} (hone : g.components = [comp₀]) (h : Stage g done comp) :
    done = [] ∧ comp = comp₀ := by
  obtain ⟨rest, hrest⟩ := h.next
  rw [hone] at hrest
  cases done with
  | nil => exact ⟨rfl, (List.cons.inj hrest).1.symm⟩
  | cons d done => exact absurd (List.cons.inj hrest).2 (by simp)

theorem Stage.solveInv (hg : WellFormed g) (margin : ℚ) (maxSteps : ℤ) (h : Stage g done comp) :
    SolveInv g done (stateAfter g margin maxSteps done) := by
  obtain ⟨rest, hrest⟩ := h.next
  exact solveInv_stateAfter hg margin maxSteps hrest

theorem stateAfter_components (g : AssignmentGraph) (margin : ℚ) (maxSteps : ℤ) :
    stateAfter g margin maxSteps g.components = solveAll g margin maxSteps := rfl

/-- The chosen candidates of a stage stay chosen. -/
theorem chosen_mono (st : SolveState) (rest : List (List String)) :
    st.chosen ⊆ (rest.foldl (solveStep g margin maxSteps) st).chosen := by
  induction rest generalizing st with
  | nil => exact fun _ h => h
  | cons comp rest ih => exact fun c hc => ih (solveStep g margin maxSteps st comp) (List.mem_append_left _ hc)

/-- The contested credits of a stage stay contested. -/
theorem contested_mono (st : SolveState) (rest : List (List String)) {k : String} (hk : k ∈ st.contested.keys) :
    k ∈ (rest.foldl (solveStep g margin maxSteps) st).contested.keys := by
  induction rest generalizing st with
  | nil => exact hk
  | cons comp rest ih => exact ih (solveStep g margin maxSteps st comp) (mem_keys_markContested.mpr (Or.inl hk))

/-- The assignment of every component is chosen. -/
theorem Stage.assignment_subset (h : Stage g done comp) :
    (solveComponent g (stateAfter g margin maxSteps done).consumed [] maxSteps comp).assignment ⊆
      (solveAll g margin maxSteps).chosen := by
  obtain ⟨rest, hrest⟩ := h.next
  intro c hc
  rw [← stateAfter_components, hrest]
  unfold stateAfter
  rw [List.foldl_append, List.foldl_cons]
  exact chosen_mono _ rest (List.mem_append_right _ hc)

/-- Without a margin nothing is contested. -/
theorem contested_of_nonpos (hmargin : margin ≤ 0) (done : List (List String)) :
    (stateAfter g margin maxSteps done).contested.keys = [] := by
  induction done using List.reverseRecOn with
  | nil => rfl
  | append_singleton done comp ih =>
      rw [stateAfter_concat]
      show (markContested g margin maxSteps _ comp _ (stateAfter g margin maxSteps done).contested).keys = []
      unfold markContested
      rw [if_neg (not_lt.mpr hmargin)]
      exact ih

theorem solveInv_solveAll (hg : WellFormed g) (margin : ℚ) (maxSteps : ℤ) :
    SolveInv g g.components (solveAll g margin maxSteps) :=
  solveInv_stateAfter hg margin maxSteps (List.append_nil _).symm

end Untangle
