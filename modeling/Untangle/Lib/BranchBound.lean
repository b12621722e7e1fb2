import Mathlib.Algebra.Ring.Nat
import Mathlib.Order.Basic
import Mathlib.Order.Lattice
import Mathlib.Order.Defs.LinearOrder
import Mathlib.Data.Int.Order.Basic

/-!
# `Lib.BranchBound` — depth-first branch and bound under a step budget

A search problem offers, in every state, an ordered list of choices, each with the state it leads to; a choice
extends the cost of the path. The search walks the tree depth first, keeps the cheapest finished path, skips the
choices a pruning test rules out, and gives up as soon as it has entered more states than its budget.

`search_explored` is the rule for clients: a search that was not cut off has kept the cheapest of all finished
paths and of what it started with. The pruning test may be any that only rules out paths that end up more
expensive than the best one known (`SearchProblem.PruneSound`).
-/

namespace Lib

/-- A search problem. Every choice makes the state smaller, so the tree is finite. -/
structure SearchProblem (σ ι C : Type) where
  isDone : σ → Bool
  choices : σ → List (ι × σ)
  extend : C → ι → C
  prune : C → C → Bool
  size : σ → Nat
  size_lt : ∀ {s : σ} {i : ι} {s' : σ}, (i, s') ∈ choices s → size s' < size s

/-- What the search carries along: the cheapest finished path, the states entered, and whether it gave up. -/
structure SearchState (ι C : Type) where
  best : Option (C × List ι)
  steps : Nat
  exceeded : Bool
deriving DecidableEq, Repr

variable {σ ι C : Type}

/-- A path of choices from the state to a finished one. -/
inductive Run (P : SearchProblem σ ι C) : σ → List ι → Prop
  | done {s : σ} (h : P.isDone s = true) : Run P s []
  | step {s s' : σ} {i : ι} {is : List ι} (hopen : P.isDone s = false) (hchoice : (i, s') ∈ P.choices s)
      (hrun : Run P s' is) : Run P s (i :: is)

/-- The cost of a path. -/
def SearchProblem.total (P : SearchProblem σ ι C) (cost : C) (is : List ι) : C := is.foldl P.extend cost

theorem SearchProblem.total_cons (P : SearchProblem σ ι C) (cost : C) (i : ι) (is : List ι) :
    P.total cost (i :: is) = P.total (P.extend cost i) is := rfl

variable [LinearOrder C]

/-- A pruned path would have ended up more expensive than the best one. -/
def SearchProblem.PruneSound (P : SearchProblem σ ι C) : Prop :=
  ∀ {best cost : C} {s : σ} {is : List ι}, P.prune best cost = true → Run P s is → best < P.total cost is

/-- The finished path is an improvement. -/
def improves (best : Option (C × List ι)) (cost : C) : Bool :=
  match best with
  | none => true
  | some b => cost < b.1

/-- The choice is ruled out by the best path known. -/
def SearchProblem.ruledOut (P : SearchProblem σ ι C) (best : Option (C × List ι)) (cost : C) : Bool :=
  match best with
  | none => false
  | some b => P.prune b.1 cost

/-- The search from a state that was reached by `chosen` at `cost`. -/
def search (P : SearchProblem σ ι C) (budget : ℤ) :
    Nat → σ → List ι → C → SearchState ι C → SearchState ι C
  | 0, _, _, _, st => st
  | fuel + 1, s, chosen, cost, st =>
    if budget < (st.steps + 1 : Nat) then { st with steps := st.steps + 1, exceeded := true }
    else if P.isDone s then
      if improves st.best cost then { st with best := some (cost, chosen), steps := st.steps + 1 }
      else { st with steps := st.steps + 1 }
    else
      (P.choices s).foldl (fun st p =>
        if st.exceeded then st
        else if P.ruledOut st.best (P.extend cost p.1) then st
        else search P budget fuel p.2 (chosen ++ [p.1]) (P.extend cost p.1) st)
        { st with steps := st.steps + 1 }

/-- The search from an initial state. -/
def searchFrom (P : SearchProblem σ ι C) (budget : ℤ) (s : σ) (cost : C)
    (best : Option (C × List ι)) : SearchState ι C :=
  search P budget (P.size s + 1) s [] cost ⟨best, 0, false⟩

/-! ## What an uninterrupted search has explored -/

section Explored

variable (P : SearchProblem σ ι C)

/-- Between `st` and `st'` the search has gone through a set of paths that extend `chosen` at `cost`. -/
structure Explored (paths : List ι → Prop) (chosen : List ι) (cost : C) (st st' : SearchState ι C) :
    Prop where
  kept : ∀ b, st.best = some b → ∃ b', st'.best = some b' ∧ b'.1 ≤ b.1
  origin : st'.best = st.best ∨ ∃ is, paths is ∧ st'.best = some (P.total cost is, chosen ++ is)
  least : ∀ is, paths is → ∃ b, st'.best = some b ∧ b.1 ≤ P.total cost is

variable {P} {paths paths' : List ι → Prop} {chosen : List ι} {cost : C} {st st₁ st' : SearchState ι C}

/-- Two explorations, one after the other. -/
theorem Explored.trans (h : Explored P paths chosen cost st st₁) (h' : Explored P paths' chosen cost st₁ st') :
    Explored P (fun is => paths is ∨ paths' is) chosen cost st st' where
  kept := by
    intro b hb
    obtain ⟨b₁, hb₁, hle₁⟩ := h.kept b hb
    obtain ⟨b', hb', hle'⟩ := h'.kept b₁ hb₁
    exact ⟨b', hb', hle'.trans hle₁⟩
  origin := by
    rcases h'.origin with heq | ⟨is, his, hbest⟩
    · rw [heq]
      exact h.origin.imp_right fun ⟨is, his, hbest⟩ => ⟨is, Or.inl his, hbest⟩
    · exact Or.inr ⟨is, Or.inr his, hbest⟩
  least := by
    intro is his
    rcases his with his | his
    · obtain ⟨b₁, hb₁, hle₁⟩ := h.least is his
      obtain ⟨b', hb', hle'⟩ := h'.kept b₁ hb₁
      exact ⟨b', hb', hle'.trans hle₁⟩
    · exact h'.least is his

theorem Explored.congr (h : Explored P paths chosen cost st st') (hiff : ∀ is, paths is ↔ paths' is) :
    Explored P paths' chosen cost st st' where
  kept := h.kept
  origin := h.origin.imp_right fun ⟨is, his, hbest⟩ => ⟨is, (hiff is).mp his, hbest⟩
  least is his := h.least is ((hiff is).mpr his)

/-- Nothing to explore. -/
theorem Explored.refl (hnone : ∀ is, ¬ paths is) (hbest : st'.best = st.best) :
    Explored P paths chosen cost st st' where
  kept b hb := ⟨b, hbest.trans hb, le_rfl⟩
  origin := Or.inl hbest
  least is his := absurd his (hnone is)

/-- One finished path. -/
theorem Explored.finish (hbest : st'.best = if improves st.best cost then some (cost, chosen) else st.best) :
    Explored P (· = []) chosen cost st st' := by
  cases hb : st.best with
  | none =>
      rw [hb] at hbest
      have hnew : st'.best = some (cost, chosen) := hbest
      refine ⟨fun b h => absurd (hb.symm.trans h) (by simp), ?_, ?_⟩
      · exact Or.inr ⟨[], rfl, by rw [hnew, List.append_nil]; rfl⟩
      · intro is his
        rw [his]
        exact ⟨_, hnew, le_rfl⟩
  | some b =>
      rw [hb] at hbest
      by_cases hlt : cost < b.1
      · have hnew : st'.best = some (cost, chosen) := by
          rw [hbest, if_pos (show improves (some b) cost = true from decide_eq_true hlt)]
        refine ⟨fun b' h => ⟨_, hnew, ?_⟩, ?_, ?_⟩
        · rw [hb] at h
          rw [← Option.some.inj h]
          exact hlt.le
        · exact Or.inr ⟨[], rfl, by rw [hnew, List.append_nil]; rfl⟩
        · intro is his
          rw [his]
          exact ⟨_, hnew, le_rfl⟩
      · have hold : st'.best = some b := by
          rw [hbest, if_neg (by simpa [improves] using hlt)]
        refine ⟨fun b' h => ⟨b', hold.trans (hb.symm.trans h), le_rfl⟩, Or.inl (hold.trans hb.symm), ?_⟩
        intro is his
        rw [his]
        exact ⟨b, hold, not_lt.mp hlt⟩

/-- A choice, seen from the state it is made in. -/
theorem Explored.choice {i : ι} (h : Explored P paths (chosen ++ [i]) (P.extend cost i) st st') :
    Explored P (fun is => ∃ rest, is = i :: rest ∧ paths rest) chosen cost st st' where
  kept := h.kept
  origin := by
    refine h.origin.imp_right fun ⟨is, his, hbest⟩ => ⟨i :: is, ⟨is, rfl, his⟩, ?_⟩
    rw [hbest, P.total_cons, List.append_assoc]
    rfl
  least := by
    intro is his
    obtain ⟨rest, rfl, hrest⟩ := his
    exact h.least rest hrest

/-- A ruled-out choice: its paths are all more expensive than the best one. -/
theorem Explored.ruledOut (hsound : P.PruneSound) {i : ι} {s' : σ}
    (hprune : P.ruledOut st.best (P.extend cost i) = true) :
    Explored P (fun is => ∃ rest, is = i :: rest ∧ Run P s' rest) chosen cost st st where
  kept b hb := ⟨b, hb, le_rfl⟩
  origin := Or.inl rfl
  least := by
    intro is his
    obtain ⟨rest, rfl, hrest⟩ := his
    unfold SearchProblem.ruledOut at hprune
    cases hb : st.best with
    | none =>
        rw [hb] at hprune
        exact absurd hprune (by simp)
    | some b =>
        rw [hb] at hprune
        exact ⟨b, rfl, (hsound hprune hrest).le⟩

end Explored

/-! ## The search -/

section Spec

variable {P : SearchProblem σ ι C} {budget : ℤ}

omit [LinearOrder C] in
/-- Once the search has given up, the remaining choices change nothing. -/
theorem foldl_of_exceeded (f : SearchState ι C → ι × σ → SearchState ι C) {l : List (ι × σ)}
    (hf : ∀ st p, st.exceeded = true → f st p = st) {st : SearchState ι C} (h : st.exceeded = true) :
    l.foldl f st = st := by
  induction l with
  | nil => rfl
  | cons p l ih => rw [List.foldl_cons, hf st p h, ih]

/-- **An uninterrupted search explores every finished path.** -/
theorem search_explored (hsound : P.PruneSound) (fuel : Nat) :
    ∀ {s : σ} {chosen : List ι} {cost : C} {st : SearchState ι C}, P.size s < fuel →
      (search P budget fuel s chosen cost st).exceeded = false →
        Explored P (Run P s) chosen cost st (search P budget fuel s chosen cost st) := by
  induction fuel with
  | zero =>
      intro s chosen cost st hsize
      exact absurd hsize (Nat.not_lt_zero _)
  | succ fuel ih =>
      intro s chosen cost st hsize hopen
      unfold search at hopen ⊢
      by_cases hbudget : budget < (st.steps + 1 : Nat)
      · rw [if_pos hbudget] at hopen
        exact absurd hopen (by simp)
      rw [if_neg hbudget] at hopen ⊢
      by_cases hdone : P.isDone s = true
      · rw [if_pos hdone] at hopen ⊢
        refine (Explored.finish ?_).congr fun is => ⟨fun his => his ▸ Run.done hdone, fun hrun => ?_⟩
        · split <;> rfl
        · cases hrun with
          | done _ => rfl
          | step hnot _ _ =>
              rw [hdone] at hnot
              exact absurd hnot (by simp)
      · rw [if_neg hdone] at hopen ⊢
        have hnot : P.isDone s = false := Bool.eq_false_iff.mpr hdone
        -- the loop over the choices, for any part of them
        have hloop : ∀ (l : List (ι × σ)) (st : SearchState ι C), l ⊆ P.choices s →
            (l.foldl (fun st p =>
              if st.exceeded then st
              else if P.ruledOut st.best (P.extend cost p.1) then st
              else search P budget fuel p.2 (chosen ++ [p.1]) (P.extend cost p.1) st) st).exceeded = false →
            Explored P (fun is => ∃ p ∈ l, ∃ rest, is = p.1 :: rest ∧ Run P p.2 rest) chosen cost st
              (l.foldl (fun st p =>
                if st.exceeded then st
                else if P.ruledOut st.best (P.extend cost p.1) then st
                else search P budget fuel p.2 (chosen ++ [p.1]) (P.extend cost p.1) st) st) := by
          intro l
          induction l with
          | nil =>
              intro st _ _
              exact Explored.refl (fun is his => by obtain ⟨p, hp, _⟩ := his; simp at hp) rfl
          | cons p l ihl =>
              intro st hsub hfin
              rw [List.foldl_cons] at hfin ⊢
              have hp : (p.1, p.2) ∈ P.choices s := hsub List.mem_cons_self
              have hl : l ⊆ P.choices s := fun q hq => hsub (List.mem_cons_of_mem _ hq)
              have hrest := ihl _ hl hfin
              have hfirst : Explored P (fun is => ∃ rest, is = p.1 :: rest ∧ Run P p.2 rest) chosen cost st
                  (if st.exceeded then st
                    else if P.ruledOut st.best (P.extend cost p.1) then st
                    else search P budget fuel p.2 (chosen ++ [p.1]) (P.extend cost p.1) st) := by
                have hstep : (if st.exceeded then st
                    else if P.ruledOut st.best (P.extend cost p.1) then st
                    else search P budget fuel p.2 (chosen ++ [p.1]) (P.extend cost p.1) st).exceeded
                      = false := by
                  by_contra hgave
                  rw [Bool.not_eq_false] at hgave
                  rw [foldl_of_exceeded _ (fun st p hst => if_pos hst) hgave, hgave] at hfin
                  exact absurd hfin (by simp)
                by_cases hexceeded : st.exceeded = true
                · rw [if_pos hexceeded] at hstep
                  rw [hexceeded] at hstep
                  exact absurd hstep (by simp)
                rw [if_neg hexceeded] at hstep ⊢
                by_cases hpruned : P.ruledOut st.best (P.extend cost p.1) = true
                · rw [if_pos hpruned]
                  exact Explored.ruledOut hsound hpruned
                · rw [if_neg hpruned] at hstep ⊢
                  exact Explored.choice (ih (Nat.lt_of_lt_of_le (P.size_lt hp) (Nat.lt_succ_iff.mp hsize)) hstep)
              refine (hfirst.trans hrest).congr fun is => ?_
              constructor
              · intro h
                rcases h with ⟨rest, his, hrun⟩ | ⟨q, hq, rest, his, hrun⟩
                · exact ⟨p, List.mem_cons_self, rest, his, hrun⟩
                · exact ⟨q, List.mem_cons_of_mem _ hq, rest, his, hrun⟩
              · intro h
                obtain ⟨q, hq, rest, his, hrun⟩ := h
                rcases List.mem_cons.mp hq with rfl | hq
                · exact Or.inl ⟨rest, his, hrun⟩
                · exact Or.inr ⟨q, hq, rest, his, hrun⟩
        have hall : Explored P (Run P s) chosen cost { st with steps := st.steps + 1 } _ :=
          (hloop (P.choices s) _ (fun _ h => h) hopen).congr fun is => by
            constructor
            · intro h
              obtain ⟨p, hp, rest, rfl, hrun⟩ := h
              exact Run.step hnot hp hrun
            · intro hrun
              cases hrun with
              | done hd => exact absurd hd hdone
              | step _ hchoice hrun => exact ⟨_, hchoice, _, rfl, hrun⟩
        exact ⟨hall.kept, hall.origin, hall.least⟩

/-- The rule at the initial state. -/
theorem searchFrom_explored (hsound : P.PruneSound) {s : σ} {cost : C} {best : Option (C × List ι)}
    (hopen : (searchFrom P budget s cost best).exceeded = false) :
    Explored P (Run P s) [] cost ⟨best, 0, false⟩ (searchFrom P budget s cost best) :=
  search_explored hsound _ (Nat.lt_succ_self _) hopen

/-! ## A budget that suffices -/

/-- The number of states of the tree below a state, itself included; `fuel` bounds its depth. -/
def SearchProblem.treeSize (P : SearchProblem σ ι C) : Nat → σ → Nat
  | 0, _ => 0
  | fuel + 1, s => 1 + ((P.choices s).map fun p => P.treeSize fuel p.2).sum

/-- A search enters each state of the tree once at most. -/
theorem search_within (fuel : Nat) :
    ∀ {s : σ} {chosen : List ι} {cost : C} {st : SearchState ι C}, st.exceeded = false →
      ((st.steps + P.treeSize fuel s : Nat) : ℤ) ≤ budget →
        (search P budget fuel s chosen cost st).exceeded = false ∧
          (search P budget fuel s chosen cost st).steps ≤ st.steps + P.treeSize fuel s := by
  induction fuel with
  | zero => exact fun hopen _ => ⟨hopen, Nat.le_add_right _ _⟩
  | succ fuel ih =>
      intro s chosen cost st hopen hbudget
      have hone : ¬ budget < (st.steps + 1 : Nat) := by
        rw [SearchProblem.treeSize] at hbudget
        omega
      unfold search
      rw [if_neg hone]
      by_cases hdone : P.isDone s = true
      · rw [if_pos hdone]
        split <;> exact ⟨hopen, by rw [SearchProblem.treeSize]; dsimp only; omega⟩
      · rw [if_neg hdone]
        -- the loop over the choices, for any part of them
        have hloop : ∀ (l : List (ι × σ)) (st : SearchState ι C), st.exceeded = false →
            ((st.steps + (l.map fun p => P.treeSize fuel p.2).sum : Nat) : ℤ) ≤ budget →
            (l.foldl (fun st p =>
              if st.exceeded then st
              else if P.ruledOut st.best (P.extend cost p.1) then st
              else search P budget fuel p.2 (chosen ++ [p.1]) (P.extend cost p.1) st) st).exceeded = false ∧
            (l.foldl (fun st p =>
              if st.exceeded then st
              else if P.ruledOut st.best (P.extend cost p.1) then st
              else search P budget fuel p.2 (chosen ++ [p.1]) (P.extend cost p.1) st) st).steps ≤
                st.steps + (l.map fun p => P.treeSize fuel p.2).sum := by
          intro l
          induction l with
          | nil => exact fun st h _ => ⟨h, Nat.le_add_right _ _⟩
          | cons p l ihl =>
              intro st hst hle
              rw [List.map_cons, List.sum_cons] at hle
              rw [List.foldl_cons, List.map_cons, List.sum_cons, if_neg (by rw [hst]; simp)]
              split
              · obtain ⟨h₁, h₂⟩ := ihl st hst (by omega)
                exact ⟨h₁, by omega⟩
              · obtain ⟨hs₁, hs₂⟩ := @ih p.2 (chosen ++ [p.1]) (P.extend cost p.1) st hst (by omega)
                obtain ⟨h₁, h₂⟩ := ihl _ hs₁ (by omega)
                exact ⟨h₁, by omega⟩
        rw [SearchProblem.treeSize] at hbudget ⊢
        obtain ⟨h₁, h₂⟩ := hloop (P.choices s) { st with steps := st.steps + 1 } hopen (by
          dsimp only
          omega)
        exact ⟨h₁, by dsimp only at h₂; omega⟩

/-- With a budget of the size of the tree the search is not cut off. -/
theorem searchFrom_within {s : σ} {cost : C} {best : Option (C × List ι)}
    (hbudget : (P.treeSize (P.size s + 1) s : ℤ) ≤ budget) :
    (searchFrom P budget s cost best).exceeded = false :=
  (search_within _ rfl (by simpa using hbudget)).1

end Spec

end Lib
