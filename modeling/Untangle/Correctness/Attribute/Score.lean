import Mathlib.Algebra.Order.Field.Rat
import Mathlib.Tactic.Positivity
import Untangle.Engine.Attribute

/-!
# `Correctness.Attribute.Score` — what the combined score is bounded by

The score of a list of signals lies between 0 and 0.99, is at least the weight of each of its signals (up to
the channel cap 0.98), and looks at nothing but the names and weights of the signals.
-/

namespace Untangle

open Lib

theorem clip_nonneg (w : ℚ) : 0 ≤ clip w := le_max_left _ _

theorem clip_le_one (w : ℚ) : clip w ≤ 1 := max_le zero_le_one (min_le_left _ _)

theorem clip_of_mem {w : ℚ} (h0 : 0 ≤ w) (h1 : w ≤ 1) : clip w = w := by
  unfold clip
  rw [min_eq_right h1, max_eq_right h0]

/-! ## One channel -/

/-- A weight in the unit interval. -/
def IsUnit01 (w : ℚ) : Prop := 0 ≤ w ∧ w ≤ 1

theorem isUnit01_clip (w : ℚ) : IsUnit01 (clip w) := ⟨clip_nonneg w, clip_le_one w⟩

theorem le_max?_getD {ws : List ℚ} {w : ℚ} (h : w ∈ ws) : w ≤ ws.max?.getD 0 := by
  cases hm : ws.max? with
  | none =>
      rw [List.max?_eq_none_iff.mp hm] at h
      exact absurd h List.not_mem_nil
  | some m => exact (List.max?_eq_some_iff.mp hm).2 w h

theorem max?_getD_nonneg {ws : List ℚ} (h : ∀ w ∈ ws, IsUnit01 w) : 0 ≤ ws.max?.getD 0 := by
  cases hm : ws.max? with
  | none => exact le_rfl
  | some m => exact (h m (List.max?_eq_some_iff.mp hm).1).1

theorem boost_nonneg {ws : List ℚ} (h : ∀ w ∈ ws, IsUnit01 w) (keep : ℚ → Bool) :
    0 ≤ ((ws.filter keep).map fun w => w * (1 / 10)).sum := by
  apply List.sum_nonneg
  intro x hx
  obtain ⟨w, hw, rfl⟩ := List.mem_map.mp hx
  have hpos := (h w (List.mem_filter.mp hw).1).1
  positivity

theorem channelWeight_isUnit01 {ws : List ℚ} (h : ∀ w ∈ ws, IsUnit01 w) :
    IsUnit01 (channelWeight ws) := by
  unfold channelWeight
  split
  · exact h _ (List.mem_singleton.mpr rfl)
  · have hmax := max?_getD_nonneg h
    have hboost := boost_nonneg h fun w => w ≠ ws.max?.getD 0
    refine ⟨le_min (by norm_num) (by linarith), (min_le_left _ _).trans (by norm_num)⟩

/-- A channel weighs at least as much as each of its signals, up to the channel cap. -/
theorem le_channelWeight {ws : List ℚ} (h : ∀ w ∈ ws, IsUnit01 w) {w : ℚ} (hw : w ∈ ws) :
    min (49 / 50) w ≤ channelWeight ws := by
  unfold channelWeight
  split
  · rw [List.mem_singleton.mp hw]
    exact min_le_right _ _
  · have hmax := le_max?_getD hw
    have hboost := boost_nonneg h fun w => w ≠ ws.max?.getD 0
    exact min_le_min_left _ (by linarith)

/-! ## Across channels -/

theorem prod_one_sub_bounds {ws : List ℚ} (h : ∀ w ∈ ws, IsUnit01 w) :
    IsUnit01 (ws.map fun w => 1 - w).prod := by
  induction ws with
  | nil => exact ⟨zero_le_one, le_rfl⟩
  | cons w ws ih =>
      rw [List.map_cons, List.prod_cons]
      obtain ⟨h0, h1⟩ := h w List.mem_cons_self
      obtain ⟨p0, p1⟩ := ih fun v hv => h v (List.mem_cons_of_mem _ hv)
      exact ⟨mul_nonneg (by linarith) p0, mul_le_one₀ (by linarith) p0 p1⟩

theorem prod_one_sub_le {ws : List ℚ} (h : ∀ w ∈ ws, IsUnit01 w) {w : ℚ} (hw : w ∈ ws) :
    (ws.map fun w => 1 - w).prod ≤ 1 - w := by
  induction ws with
  | nil => exact absurd hw List.not_mem_nil
  | cons v ws ih =>
      have htail : ∀ u ∈ ws, IsUnit01 u := fun u hu => h u (List.mem_cons_of_mem _ hu)
      obtain ⟨h0, h1⟩ := h v List.mem_cons_self
      obtain ⟨p0, p1⟩ := prod_one_sub_bounds htail
      rw [List.map_cons, List.prod_cons]
      rcases List.mem_cons.mp hw with rfl | hw
      · exact mul_le_of_le_one_right (by linarith) p1
      · exact (mul_le_of_le_one_left p0 (by linarith)).trans (ih htail hw)

theorem mem_weightsByChannel {items : List EvidenceItem} {channel : String} {ws : List ℚ}
    (h : (channel, ws) ∈ (weightsByChannel items).items) :
    ws = (items.filter fun it => channelOf it.signal = channel).map fun it => clip it.weight := by
  have hget := Dict.get?_of_mem h
  have hgather := Dict.getD_get?_gather_append (fun it : EvidenceItem => some (channelOf it.signal))
    (fun it => clip it.weight) items channel
  simp only [Option.some.injEq] at hgather
  rw [← hgather]
  show ws = ((weightsByChannel items).get? channel).getD []
  rw [hget, Option.getD_some]

theorem channelWeights_isUnit01 (items : List EvidenceItem) :
    ∀ w ∈ (weightsByChannel items).items.map (fun p => channelWeight p.2), IsUnit01 w := by
  intro w hw
  obtain ⟨⟨channel, ws⟩, hmem, rfl⟩ := List.mem_map.mp hw
  apply channelWeight_isUnit01
  intro v hv
  rw [mem_weightsByChannel hmem] at hv
  obtain ⟨it, _, rfl⟩ := List.mem_map.mp hv
  exact isUnit01_clip _

theorem combine_eq (items : List EvidenceItem) (h : items ≠ []) :
    combine items = min (99 / 100)
      (1 - (((weightsByChannel items).items.map fun p => channelWeight p.2).map fun w => 1 - w).prod) := by
  unfold combine
  rw [if_neg h, List.map_map]
  rfl

theorem combine_nonneg (items : List EvidenceItem) : 0 ≤ combine items := by
  by_cases h : items = []
  · unfold combine
    rw [if_pos h]
  · rw [combine_eq items h]
    have hprod := (prod_one_sub_bounds (channelWeights_isUnit01 items)).2
    exact le_min (by norm_num) (by linarith)

theorem combine_le (items : List EvidenceItem) : combine items ≤ 99 / 100 := by
  by_cases h : items = []
  · unfold combine
    rw [if_pos h]
    norm_num
  · rw [combine_eq items h]
    exact min_le_left _ _

/-- The score of a single signal is its weight, up to the cap. -/
theorem combine_singleton (it : EvidenceItem) : combine [it] = min (99 / 100) (clip it.weight) := by
  rw [combine_eq [it] (List.cons_ne_nil _ _)]
  have hone : (weightsByChannel [it]).items = [(channelOf it.signal, [clip it.weight])] := rfl
  rw [hone]
  show min (99 / 100) (1 - ([1 - clip it.weight]).prod) = _
  rw [List.prod_singleton, sub_sub_cancel]

/-- **The score is at least the weight of each signal**, up to the channel cap. -/
theorem le_combine {items : List EvidenceItem} {it : EvidenceItem} (h : it ∈ items) :
    min (49 / 50) (clip it.weight) ≤ combine items := by
  have hne : items ≠ [] := List.ne_nil_of_mem h
  have hkey : channelOf it.signal ∈ (weightsByChannel items).keys := by
    unfold weightsByChannel
    rw [Dict.mem_keys_gather]
    exact ⟨it, h, rfl⟩
  obtain ⟨⟨channel, ws⟩, hmem, hchannel⟩ := List.mem_map.mp hkey
  have hws := mem_weightsByChannel hmem
  have hw : clip it.weight ∈ ws := by
    rw [hws]
    exact List.mem_map.mpr ⟨it, List.mem_filter.mpr ⟨h, by simpa using hchannel.symm⟩, rfl⟩
  have hunit : ∀ v ∈ ws, IsUnit01 v := by
    intro v hv
    rw [hws] at hv
    obtain ⟨e, _, rfl⟩ := List.mem_map.mp hv
    exact isUnit01_clip _
  have hchan := le_channelWeight hunit hw
  have hprod := prod_one_sub_le (channelWeights_isUnit01 items)
    (List.mem_map_of_mem (f := fun p => channelWeight p.2) hmem)
  rw [combine_eq items hne]
  refine le_min ((min_le_left _ _).trans (by norm_num)) (hchan.trans ?_)
  linarith

/-- The score looks at the names and the weights only. -/
theorem combine_congr {items items' : List EvidenceItem}
    (h : items.map (fun e => (e.signal, e.weight)) = items'.map fun e => (e.signal, e.weight)) :
    combine items = combine items' := by
  have hchannels : weightsByChannel items = weightsByChannel items' := by
    have hgather : ∀ l : List EvidenceItem, weightsByChannel l =
        Dict.gather (fun p : String × ℚ => some (channelOf p.1))
          (fun p ws => ws.getD [] ++ [clip p.2]) (l.map fun e => (e.signal, e.weight)) := by
      intro l
      unfold weightsByChannel Dict.gather
      rw [List.foldl_map]
    rw [hgather, hgather, h]
  have hnil : items = [] ↔ items' = [] := by
    rw [← List.map_eq_nil_iff (f := fun e : EvidenceItem => (e.signal, e.weight)), h,
      List.map_eq_nil_iff]
  unfold combine
  simp only [hchannels, hnil]

end Untangle
