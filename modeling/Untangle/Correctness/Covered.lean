import Untangle.Correctness.Report
import Untangle.Engine.Covered
import Untangle.Lib.Printed

/-!
# `Correctness.Covered` — the content-derived ids name the rows

Two rows of a report have the same id only if they are one row: their fingerprints tell different fields apart
(`Fingerprints`), and rows with equal fields are told apart by the occurrence counter. So an artifact that resolves
the ids of a coverage finds the covered rows again, and it refuses the coverage exactly if a row is in it twice
(`resolveCoveredRowsById_eq`, `resolveCoveredRowsById_refuses`).
-/

namespace Untangle

open Lib

/-- The digest tells the rows of the report apart by their distinguishing fields. -/
def Fingerprints (digest : RowSignature → String) (rows : List ReconRow) : Prop :=
  ∀ r ∈ rows, ∀ r' ∈ rows, digest (rowSignature r) = digest (rowSignature r') → rowSignature r = rowSignature r'

/-! ## Ids are distinct -/

section Ids

variable {digest : RowSignature → String} {rows : List ReconRow}

/-- The id of the `n`-th row with this signature. -/
def rowId (digest : RowSignature → String) (sig : RowSignature) (n : Nat) : String :=
  "row_" ++ digest sig ++ "_" ++ toString n

theorem rowId_inj {sig sig' : RowSignature} {n n' : Nat} (h : rowId digest sig n = rowId digest sig' n') :
    digest sig = digest sig' ∧ n = n' := by
  have hpush : ∀ t : String, t ++ "_" = t.push '_' := fun t => by
    apply String.toList_injective
    rw [String.toList_append, String.toList_push]
    rfl
  unfold rowId at h
  rw [hpush, hpush] at h
  obtain ⟨htext, hn⟩ := number_suffix_inj (by decide) h
  exact ⟨String.append_right_inj "row_" |>.mp htext, hn⟩

theorem length_canonicalRowIdsFrom (seen : Dict RowSignature Nat) :
    (canonicalRowIdsFrom digest seen rows).length = rows.length := by
  induction rows generalizing seen with
  | nil => rfl
  | cons r rows ih => exact congrArg (· + 1) (ih _)

@[simp] theorem length_canonicalRowIds : (canonicalRowIds digest rows).length = rows.length :=
  length_canonicalRowIdsFrom _

/-- An id counts at least the occurrences seen before. -/
theorem mem_canonicalRowIdsFrom {seen : Dict RowSignature Nat} {id : String}
    (h : id ∈ canonicalRowIdsFrom digest seen rows) :
    ∃ r ∈ rows, ∃ n, (seen.get? (rowSignature r)).getD 0 ≤ n ∧ id = rowId digest (rowSignature r) n := by
  induction rows generalizing seen with
  | nil => exact absurd h List.not_mem_nil
  | cons r rows ih =>
      rcases List.mem_cons.mp h with rfl | htail
      · exact ⟨r, List.mem_cons_self, _, le_refl _, rfl⟩
      · obtain ⟨r', hr', n, hn, rfl⟩ := ih htail
        refine ⟨r', List.mem_cons_of_mem r hr', n, ?_, rfl⟩
        rw [Dict.get?_insert] at hn
        split at hn
        · rename_i hsig
          rw [hsig]
          rw [Option.getD_some] at hn
          omega
        · exact hn

theorem nodup_canonicalRowIdsFrom (hdigest : Fingerprints digest rows) (seen : Dict RowSignature Nat) :
    (canonicalRowIdsFrom digest seen rows).Nodup := by
  induction rows generalizing seen with
  | nil => exact List.nodup_nil
  | cons r rows ih =>
      refine List.nodup_cons.mpr ⟨?_, ih ?_ _⟩
      · intro hmem
        obtain ⟨r', hr', n, hn, heq⟩ := mem_canonicalRowIdsFrom hmem
        obtain ⟨hsame, hocc⟩ := rowId_inj (show rowId digest (rowSignature r) _ = _ from heq)
        have hsig := hdigest r List.mem_cons_self r' (List.mem_cons_of_mem r hr') hsame
        -- the counter has moved on when a later row with the same fields is met
        rw [← hsig, Dict.get?_insert, if_pos rfl, Option.getD_some] at hn
        omega
      · intro a ha b hb
        exact hdigest a (List.mem_cons_of_mem r ha) b (List.mem_cons_of_mem r hb)

/-- **The ids of a report are distinct.** -/
theorem nodup_canonicalRowIds (hdigest : Fingerprints digest rows) : (canonicalRowIds digest rows).Nodup :=
  nodup_canonicalRowIdsFrom hdigest _

/-! ## Ids resolve -/

/-- The id of a physical row. -/
def idOf (digest : RowSignature → String) (rows : List ReconRow) (p : PhysicalRow) : String :=
  (canonicalRowIds digest rows).getD p.2 ""

theorem getElem?_canonicalRowIds {p : PhysicalRow} (h : p ∈ rows.zipIdx) :
    (canonicalRowIds digest rows)[p.2]? = some (idOf digest rows p) := by
  have hrow := List.mem_zipIdx_iff_getElem?.mp h
  have hlt : p.2 < (canonicalRowIds digest rows).length := by
    rw [length_canonicalRowIds]
    exact (List.getElem?_eq_some_iff.mp hrow).1
  unfold idOf
  rw [List.getD_eq_getElem?_getD, List.getElem?_eq_getElem hlt, Option.getD_some]

/-- An id stands for the row that it was handed out for. -/
theorem get?_rowsByCanonicalId_eq_some (hdigest : Fingerprints digest rows) {id : String} {r : ReconRow} :
    (rowsByCanonicalId digest rows).get? id = some r ↔ (id, r) ∈ (canonicalRowIds digest rows).zip rows := by
  have hpairs : ∀ q ∈ (canonicalRowIds digest rows).zip rows,
      ∃ i : Nat, (canonicalRowIds digest rows)[i]? = some q.1 ∧ rows[i]? = some q.2 := by
    intro q hq
    obtain ⟨i, hi⟩ := List.mem_iff_getElem?.mp hq
    exact ⟨i, (List.getElem?_zip_eq_some.mp hi).1, (List.getElem?_zip_eq_some.mp hi).2⟩
  unfold rowsByCanonicalId
  refine (Dict.get?_gather_last_of_agree (fun q : String × ReconRow => some q.1) ?_).trans ?_
  · intro q hq q' hq' k hk hk'
    obtain ⟨i, hid, hrow⟩ := hpairs q hq
    obtain ⟨j, hid', hrow'⟩ := hpairs q' hq'
    rw [Option.some.inj (hk.trans hk'.symm)] at hid
    have hij := (List.getElem?_inj (List.getElem?_eq_some_iff.mp hid).1 (nodup_canonicalRowIds hdigest)).mp
      (hid.trans hid'.symm)
    rw [hij] at hrow
    exact Option.some.inj (hrow.symm.trans hrow')
  · constructor
    · rintro ⟨⟨id', r'⟩, hq, hk, rfl⟩
      obtain rfl := Option.some.inj hk
      exact hq
    · intro h
      exact ⟨(id, r), h, rfl, rfl⟩

theorem get?_rowsByCanonicalId (hdigest : Fingerprints digest rows) {p : PhysicalRow} (h : p ∈ rows.zipIdx) :
    (rowsByCanonicalId digest rows).get? (idOf digest rows p) = some p.1 := by
  apply (get?_rowsByCanonicalId_eq_some hdigest).mpr
  apply List.mem_iff_getElem?.mpr
  exact ⟨p.2, List.getElem?_zip_eq_some.mpr
    ⟨getElem?_canonicalRowIds h, List.mem_zipIdx_iff_getElem?.mp h⟩⟩

theorem idOf_inj (hdigest : Fingerprints digest rows) {p q : PhysicalRow} (hp : p ∈ rows.zipIdx)
    (hq : q ∈ rows.zipIdx) (h : idOf digest rows p = idOf digest rows q) : p.2 = q.2 := by
  have hpi : (canonicalRowIds digest rows)[p.2]? = some (idOf digest rows p) := getElem?_canonicalRowIds hp
  apply (List.getElem?_inj (List.getElem?_eq_some_iff.mp hpi).1 (nodup_canonicalRowIds hdigest)).mp
  rw [hpi, getElem?_canonicalRowIds hq, h]

end Ids

/-! ## Resolving a coverage -/

section Resolve

variable {U : Unicode} {digest : RowSignature → String} {rows : List ReconRow}

/-- Each id resolves, and to a row of the entity at its position. -/
theorem resolveRows_eq (hdigest : Fingerprints digest rows) (lineKey : String) {covered : List PhysicalRow}
    (hrows : ∀ p ∈ covered, p ∈ rows.zipIdx) (pos : Nat) :
    resolveRows U lineKey (rowsByCanonicalId digest rows) pos
      ((covered.map (idOf digest rows)).zip (covered.map fun p => (p.1.type, p.1.entityId)))
        = .ok (covered.map Prod.fst) := by
  induction covered generalizing pos with
  | nil => rfl
  | cons p covered ih =>
      have hrest := ih (fun q hq => hrows q (List.mem_cons_of_mem p hq)) (pos + 1)
      rw [List.map_cons, List.map_cons, List.zip_cons_cons]
      unfold resolveRows
      rw [get?_rowsByCanonicalId hdigest (hrows p List.mem_cons_self)]
      dsimp only
      rw [if_neg (by simp), hrest]
      rfl

/-- A coverage whose rows are at distinct positions resolves to these rows. -/
theorem resolveCoveredRowsById_eq (hdigest : Fingerprints digest rows) {rec : ReconciliationResult}
    {covered : List PhysicalRow} (hrows : ∀ p ∈ covered, p ∈ rows.zipIdx)
    (hids : rec.coveredRowIds = covered.map (idOf digest rows))
    (hentities : rec.coveredEntityIds = covered.map fun p => (p.1.type, p.1.entityId))
    (hnodup : (covered.map Prod.snd).Nodup) :
    resolveCoveredRowsById U rec (rowsByCanonicalId digest rows) = .ok (covered.map Prod.fst) := by
  have hdistinct : (covered.map (idOf digest rows)).Nodup := by
    apply List.Nodup.map_on ?_ (List.Nodup.of_map _ hnodup)
    intro p hp q hq h
    exact List.inj_on_of_nodup_map hnodup hp hq (idOf_inj hdigest (hrows p hp) (hrows q hq) h)
  unfold resolveCoveredRowsById
  rw [hids, hentities, if_neg (by simp), if_neg (not_not.mpr hdistinct)]
  exact resolveRows_eq hdigest rec.lineKey hrows 0

/-- A coverage with a position met twice is refused. -/
theorem resolveCoveredRowsById_refuses {rec : ReconciliationResult} {covered : List PhysicalRow}
    (hids : rec.coveredRowIds = covered.map (idOf digest rows)) (hnodup : ¬ (covered.map Prod.snd).Nodup)
    (byId : Dict String ReconRow) : ∃ e, resolveCoveredRowsById U rec byId = .error e := by
  have hrepeats : ¬ rec.coveredRowIds.Nodup := by
    intro h
    apply hnodup
    have hmap : rec.coveredRowIds = (covered.map Prod.snd).map fun i => (canonicalRowIds digest rows).getD i "" := by
      rw [hids, List.map_map]
      rfl
    rw [hmap] at h
    exact List.Nodup.of_map _ h
  unfold resolveCoveredRowsById
  by_cases hlength : rec.coveredRowIds.length ≠ rec.coveredEntityIds.length
  · rw [if_pos hlength]
    exact ⟨_, rfl⟩
  · rw [if_neg hlength, if_pos hrepeats]
    exact ⟨_, rfl⟩

end Resolve

end Untangle
