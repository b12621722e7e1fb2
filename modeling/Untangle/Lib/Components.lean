import Mathlib.Data.List.Perm.Lattice
import Mathlib.Data.List.Perm.Subperm
import Mathlib.Data.List.Nodup

/-!
# `Lib.Components` — connected components by breadth-first search

The classical loop: for every node not visited yet, a queue is emptied into a new component, and the unvisited
neighbours of each node taken from the queue are marked and queued. For a symmetric neighbour relation on a
list of distinct nodes the components partition the nodes (`components_perm`) and no edge leaves a component
(`components_closed`).
-/

namespace Lib

variable {α : Type} [DecidableEq α]

/-- Empty the queue; `fuel` bounds the number of nodes taken from it. Returns the component and what is marked
    visited. -/
def bfs (adj : α → List α) : Nat → List α → List α → List α → List α × List α
  | 0, _, visited, comp => (comp, visited)
  | _ + 1, [], visited, comp => (comp, visited)
  | fuel + 1, curr :: queue, visited, comp =>
    let fresh := (adj curr).filter fun y => y ∉ visited
    bfs adj fuel (queue ++ fresh) (visited ++ fresh) (comp ++ [curr])

/-- The outer loop: components found so far, and what is visited. -/
def componentsFrom (adj : α → List α) (fuel : Nat) : List α → List α → List (List α)
  | [], _ => []
  | k :: nodes, visited =>
    if k ∈ visited then componentsFrom adj fuel nodes visited
    else
      let (comp, visited') := bfs adj fuel [k] (visited ++ [k]) []
      comp :: componentsFrom adj fuel nodes visited'

def components (adj : α → List α) (nodes : List α) : List (List α) :=
  componentsFrom adj nodes.length nodes []

/-- The neighbour lists of an undirected graph on the nodes. -/
structure Undirected (adj : α → List α) (nodes : List α) : Prop where
  nodes_nodup : nodes.Nodup
  adj_nodup : ∀ x, (adj x).Nodup
  adj_subset : ∀ x, adj x ⊆ nodes
  symm : ∀ x y, y ∈ adj x → x ∈ adj y

section Spec

variable {adj : α → List α} {nodes : List α}

/-- No edge leaves the list. -/
def Closed (adj : α → List α) (l : List α) : Prop := ∀ x ∈ l, adj x ⊆ l

/-- The state of the inner loop, started when `old` was visited: what is marked is `old`, the component so far
    and the queue, without repetition, and the neighbours of the component are marked. -/
structure BfsInv (adj : α → List α) (nodes old queue visited comp : List α) : Prop where
  marked : visited.Perm (old ++ (comp ++ queue))
  nodup : visited.Nodup
  inside : visited ⊆ nodes
  seen : ∀ x ∈ comp, adj x ⊆ visited

theorem BfsInv.step (hg : Undirected adj nodes) {old queue visited comp : List α} {curr : α}
    (h : BfsInv adj nodes old (curr :: queue) visited comp) :
    BfsInv adj nodes old (queue ++ (adj curr).filter fun y => y ∉ visited)
      (visited ++ (adj curr).filter fun y => y ∉ visited) (comp ++ [curr]) where
  marked := by
    refine (h.marked.append_right _).trans ?_
    rw [List.append_assoc, List.append_assoc, List.append_assoc]
    exact List.Perm.refl _
  nodup := by
    refine List.nodup_append.mpr ⟨h.nodup, (hg.adj_nodup curr).filter _, ?_⟩
    intro x hx y hy hxy
    exact of_decide_eq_true (List.mem_filter.mp hy).2 (hxy ▸ hx)
  inside := by
    intro x hx
    rcases List.mem_append.mp hx with hx | hx
    · exact h.inside hx
    · exact hg.adj_subset curr (List.mem_filter.mp hx).1
  seen := by
    intro x hx y hy
    rcases List.mem_append.mp hx with hx | hx
    · exact List.mem_append_left _ (h.seen x hx hy)
    · rw [List.mem_singleton.mp hx] at hy
      by_cases hvisited : y ∈ visited
      · exact List.mem_append_left _ hvisited
      · exact List.mem_append_right _ (List.mem_filter.mpr ⟨hy, decide_eq_true hvisited⟩)

omit [DecidableEq α] in
theorem BfsInv.length_le {old queue visited comp : List α} (h : BfsInv adj nodes old queue visited comp) :
    comp.length + queue.length ≤ nodes.length := by
  have hle := (h.nodup.subperm h.inside).length_le
  rw [h.marked.length_eq, List.length_append, List.length_append] at hle
  omega

/-- With fuel for all nodes the queue is emptied. -/
theorem bfs_inv (hg : Undirected adj nodes) (fuel : Nat) :
    ∀ {old queue visited comp : List α}, BfsInv adj nodes old queue visited comp →
      nodes.length ≤ fuel + comp.length →
      BfsInv adj nodes old [] (bfs adj fuel queue visited comp).2 (bfs adj fuel queue visited comp).1 := by
  induction fuel with
  | zero =>
      intro old queue visited comp h hfuel
      have hnil : queue = [] := List.length_eq_zero_iff.mp (by have := h.length_le; omega)
      subst hnil
      exact h
  | succ fuel ih =>
      intro old queue visited comp h hfuel
      cases queue with
      | nil => exact h
      | cons curr queue =>
          refine ih (h.step hg) ?_
          rw [List.length_append, List.length_singleton]
          omega

/-- **One component**: with the visited nodes closed, the search from a new node adds a closed set of new
    nodes. -/
theorem bfs_component (hg : Undirected adj nodes) {old : List α} (hnd : old.Nodup) (hsub : old ⊆ nodes)
    (hclosed : Closed adj old) {k : α} (hk : k ∈ nodes) (hnew : k ∉ old) :
    (bfs adj nodes.length [k] (old ++ [k]) []).2.Perm
        (old ++ (bfs adj nodes.length [k] (old ++ [k]) []).1) ∧
      (bfs adj nodes.length [k] (old ++ [k]) []).2.Nodup ∧
      (bfs adj nodes.length [k] (old ++ [k]) []).2 ⊆ nodes ∧
      Closed adj (bfs adj nodes.length [k] (old ++ [k]) []).1 := by
  have hstart : BfsInv adj nodes old [k] (old ++ [k]) [] := by
    refine ⟨List.Perm.refl _, ?_, ?_, fun x hx => absurd hx List.not_mem_nil⟩
    · refine List.nodup_append.mpr ⟨hnd, List.nodup_singleton k, fun x hx y hy hxy => ?_⟩
      rw [List.mem_singleton.mp hy] at hxy
      exact hnew (hxy ▸ hx)
    · intro x hx
      rcases List.mem_append.mp hx with hx | hx
      · exact hsub hx
      · exact List.mem_singleton.mp hx ▸ hk
  have hinv := bfs_inv hg nodes.length hstart (by simp)
  have hmarked := hinv.marked
  rw [List.append_nil] at hmarked
  refine ⟨hmarked, hinv.nodup, hinv.inside, ?_⟩
  intro x hx y hy
  rcases List.mem_append.mp (hmarked.subset (hinv.seen x hx hy)) with hold | hcomp
  · -- an edge from an old node would have marked `x` before
    have hxold : x ∈ old := hclosed y hold (hg.symm x y hy)
    have hdisjoint := List.disjoint_of_nodup_append (hmarked.nodup_iff.mp hinv.nodup)
    exact absurd hx (hdisjoint hxold)
  · exact hcomp

theorem componentsFrom_spec (hg : Undirected adj nodes) (rest : List α) :
    ∀ {old : List α}, old.Nodup → old ⊆ nodes → Closed adj old → rest ⊆ nodes →
      (∀ comp ∈ componentsFrom adj nodes.length rest old, Closed adj comp) ∧
      (old ++ (componentsFrom adj nodes.length rest old).flatten).Nodup ∧
      old ++ (componentsFrom adj nodes.length rest old).flatten ⊆ nodes ∧
      rest ⊆ old ++ (componentsFrom adj nodes.length rest old).flatten := by
  induction rest with
  | nil =>
      intro old hnd hsub _ _
      refine ⟨fun comp hcomp => absurd hcomp List.not_mem_nil, ?_, ?_, List.nil_subset _⟩
      · simpa [componentsFrom] using hnd
      · simpa [componentsFrom] using hsub
  | cons k rest ih =>
      intro old hnd hsub hclosed hrest
      have hk : k ∈ nodes := hrest List.mem_cons_self
      have hrest' : rest ⊆ nodes := fun x hx => hrest (List.mem_cons_of_mem _ hx)
      unfold componentsFrom
      by_cases hvisited : k ∈ old
      · rw [if_pos hvisited]
        obtain ⟨h1, h2, h3, h4⟩ := ih hnd hsub hclosed hrest'
        refine ⟨h1, h2, h3, fun x hx => ?_⟩
        rcases List.mem_cons.mp hx with rfl | hx
        · exact List.mem_append_left _ hvisited
        · exact h4 hx
      · rw [if_neg hvisited]
        obtain ⟨hmarked, hnd', hsub', hcomp⟩ := bfs_component hg hnd hsub hclosed hk hvisited
        have hmem : k ∈ (bfs adj nodes.length [k] (old ++ [k]) []).1 := by
          have hstart : ∀ fuel queue visited comp, k ∈ comp →
              k ∈ (bfs adj fuel queue visited comp).1 := by
            intro fuel
            induction fuel with
            | zero => intro queue visited comp h; exact h
            | succ fuel ihf =>
                intro queue visited comp h
                cases queue with
                | nil => exact h
                | cons curr queue => exact ihf _ _ _ (List.mem_append_left _ h)
          have hpos : nodes.length ≠ 0 := fun h => by
            rw [List.length_eq_zero_iff.mp h] at hk
            exact List.not_mem_nil hk
          obtain ⟨n, hn⟩ := Nat.exists_eq_succ_of_ne_zero hpos
          rw [hn]
          exact hstart n _ _ _ (by simp)
        have hclosed' : Closed adj (bfs adj nodes.length [k] (old ++ [k]) []).2 := by
          intro x hx y hy
          rcases List.mem_append.mp (hmarked.subset hx) with hold | hnew
          · exact hmarked.symm.subset (List.mem_append_left _ (hclosed x hold hy))
          · exact hmarked.symm.subset (List.mem_append_right _ (hcomp x hnew hy))
        obtain ⟨h1, h2, h3, h4⟩ := ih hnd' hsub' hclosed' hrest'
        have hperm := hmarked.append_right
          (componentsFrom adj nodes.length rest (bfs adj nodes.length [k] (old ++ [k]) []).2).flatten
        dsimp only
        rw [List.flatten_cons, ← List.append_assoc]
        refine ⟨?_, hperm.nodup_iff.mp h2, fun x hx => h3 (hperm.symm.subset hx), ?_⟩
        · intro comp hmemc
          rcases List.mem_cons.mp hmemc with rfl | hmemc
          · exact hcomp
          · exact h1 comp hmemc
        · intro x hx
          rcases List.mem_cons.mp hx with rfl | hx
          · exact List.mem_append_left _ (List.mem_append_right _ hmem)
          · exact hperm.subset (h4 hx)

/-- **The components partition the nodes.** -/
theorem components_perm (hg : Undirected adj nodes) : (components adj nodes).flatten.Perm nodes := by
  obtain ⟨_, hnd, hsub, hall⟩ := componentsFrom_spec hg nodes List.nodup_nil (List.nil_subset _)
    (fun x hx => absurd hx List.not_mem_nil) (fun _ h => h)
  rw [List.nil_append] at hnd hsub hall
  exact (List.perm_ext_iff_of_nodup hnd hg.nodes_nodup).mpr fun _ => ⟨fun h => hsub h, fun h => hall h⟩

/-- **No edge leaves a component.** -/
theorem components_closed (hg : Undirected adj nodes) {comp : List α} (h : comp ∈ components adj nodes) :
    Closed adj comp :=
  (componentsFrom_spec hg nodes List.nodup_nil (List.nil_subset _)
    (fun _ hx => absurd hx List.not_mem_nil) (fun _ h => h)).1 comp h

end Spec

end Lib
