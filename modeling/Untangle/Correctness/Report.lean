import Untangle.Engine.Report

/-!
# `Correctness.Report` — the dictionaries of the report, without their loops

What the per-settlement dictionaries hold, in terms of the report itself: the rows of a settlement
(`rowsOf`), its net (`netOf`), and whether it occurs at all (`Settles`). One lemma per dictionary.
-/

namespace Untangle

open Lib

/-! ## The report, by settlement -/

/-- The rows of a settlement, with their positions in the report. -/
def rowsOf (rows : List ReconRow) (sid : String) : List PhysicalRow :=
  rows.zipIdx.filter fun p => truthy p.1.settlementId = some sid

/-- The net of a settlement: credit minus debit over its rows. -/
def netOf (rows : List ReconRow) (sid : String) : ℤ := ((rowsOf rows sid).map fun p => p.1.netPaise).sum

/-- Some row of the report belongs to the settlement. -/
def Settles (rows : List ReconRow) (sid : String) : Prop :=
  ∃ r ∈ rows, truthy r.settlementId = some sid

theorem map_fst_rowsOf (rows : List ReconRow) (sid : String) :
    (rowsOf rows sid).map Prod.fst = rows.filter fun r => truthy r.settlementId = some sid := by
  unfold rowsOf
  rw [← List.zipIdx_map_fst 0 rows, List.filter_map, List.zipIdx_map_fst]
  rfl

theorem netOf_eq (rows : List ReconRow) (sid : String) :
    netOf rows sid = ((rows.filter fun r => truthy r.settlementId = some sid).map ReconRow.netPaise).sum := by
  unfold netOf
  rw [← map_fst_rowsOf, List.map_map]
  rfl

theorem mem_rowsOf {rows : List ReconRow} {sid : String} {p : PhysicalRow} :
    p ∈ rowsOf rows sid ↔ p ∈ rows.zipIdx ∧ truthy p.1.settlementId = some sid := by
  simp [rowsOf]

theorem rowsOf_ne_nil {rows : List ReconRow} {sid : String} (h : Settles rows sid) :
    rowsOf rows sid ≠ [] := by
  obtain ⟨r, hr, hsid⟩ := h
  have hmem : r ∈ (rowsOf rows sid).map Prod.fst := by
    rw [map_fst_rowsOf]
    exact List.mem_filter.mpr ⟨hr, by simpa using hsid⟩
  intro hnil
  rw [hnil] at hmem
  exact List.not_mem_nil hmem

/-- A settlement meets no position twice. -/
theorem nodup_positions_rowsOf (rows : List ReconRow) (sid : String) :
    ((rowsOf rows sid).map Prod.snd).Nodup := by
  have hall : (rows.zipIdx.map Prod.snd).Nodup := by
    rw [List.zipIdx_map_snd]
    exact List.nodup_range' 1 Nat.one_pos
  exact hall.sublist (List.filter_sublist.map _)

/-- Two settlements share no position. -/
theorem eq_of_position_mem {rows : List ReconRow} {sid sid' : String} {i : Nat}
    (h : i ∈ (rowsOf rows sid).map Prod.snd) (h' : i ∈ (rowsOf rows sid').map Prod.snd) : sid = sid' := by
  obtain ⟨p, hp, rfl⟩ := List.mem_map.mp h
  obtain ⟨q, hq, hqp⟩ := List.mem_map.mp h'
  obtain ⟨hp, hsid⟩ := mem_rowsOf.mp hp
  obtain ⟨hq, hsid'⟩ := mem_rowsOf.mp hq
  have hpi := List.mem_zipIdx_iff_getElem?.mp hp
  have hqi := List.mem_zipIdx_iff_getElem?.mp hq
  rw [hqp, hpi] at hqi
  rw [← Option.some.inj hqi, hsid] at hsid'
  exact Option.some.inj hsid'

/-! ## The dictionaries -/

theorem get?_netBySettlement {rows : List ReconRow} {sid : String} {n : ℤ} :
    (netBySettlement rows).get? sid = some n ↔ Settles rows sid ∧ netOf rows sid = n := by
  unfold netBySettlement
  rw [Dict.get?_gather_sum, ← netOf_eq]
  by_cases h : ∃ r ∈ rows, truthy r.settlementId = some sid
  · rw [if_pos h, Option.some.injEq]
    exact ⟨fun hn => ⟨h, hn⟩, fun hn => hn.2⟩
  · rw [if_neg h]
    exact ⟨fun hn => absurd hn (by simp), fun hn => absurd hn.1 h⟩

theorem getD_settlementsOfNet (nets : Dict String ℤ) (n : ℤ) :
    ((settlementsOfNet nets).get? n).getD [] = (nets.items.filter fun p => p.2 = n).map Prod.fst := by
  unfold settlementsOfNet
  rw [Dict.getD_get?_gather_append]
  simp only [Option.some.injEq]

theorem mem_settlementsOfNet {nets : Dict String ℤ} {n : ℤ} {sid : String} :
    sid ∈ ((settlementsOfNet nets).get? n).getD [] ↔ nets.get? sid = some n := by
  rw [getD_settlementsOfNet, Dict.get?_eq_some, List.mem_map]
  constructor
  · intro h
    obtain ⟨p, hp, rfl⟩ := h
    obtain ⟨hmem, hn⟩ := List.mem_filter.mp hp
    rw [decide_eq_true_eq] at hn
    exact hn ▸ hmem
  · intro h
    exact ⟨(sid, n), List.mem_filter.mpr ⟨h, by simp⟩, rfl⟩

theorem nodup_settlementsOfNet (nets : Dict String ℤ) (n : ℤ) :
    (((settlementsOfNet nets).get? n).getD []).Nodup := by
  rw [getD_settlementsOfNet]
  exact (Dict.nodup_keys nets).sublist (List.filter_sublist.map _)

/-- The settlement of a UTR is that of a row which carries the UTR. -/
theorem get?_settlementOfUtr {U : Unicode} {rows : List ReconRow} {utr sid : String}
    (h : (settlementOfUtr U rows).get? utr = some sid) :
    ∃ r ∈ rows, truthy r.settlementId = some sid ∧ (truthy r.settlementUtr).map U.lower = some utr := by
  unfold settlementOfUtr at h
  rw [Dict.get?_gather_first, Option.map_eq_some_iff] at h
  obtain ⟨r, hr, hsid⟩ := h
  have hkey := List.find?_some hr
  cases ht : truthy r.settlementId with
  | none =>
      rw [ht] at hkey
      simp at hkey
  | some s =>
      rw [ht, Option.getD_some] at hsid
      subst hsid
      rw [ht] at hkey
      exact ⟨r, List.mem_of_find?_eq_some hr, ht, by simpa using hkey⟩

end Untangle
