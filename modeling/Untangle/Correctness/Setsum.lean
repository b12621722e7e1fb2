import Untangle.Correctness.Attribute.Line
import Untangle.Correctness.Reconcile.Index

/-!
# `Correctness.Setsum` — the set-sums of attribution and of reconciliation

The two modules of the engine look for set-sums with loops of their own. Over one report their pools and their
single settlements are the same, and each answers with a set-sum exactly when there is no single one and the
search finds one set (`SetsumSole`). So they agree (`setsum_agree`).
-/

namespace Untangle

open Lib

variable {U : Unicode} {digest : RowSignature → String} {index : ReconIndex} {rows : List ReconRow}
  {line : BankCreditLine} {S : Finset String}

/-- Attribution emits the signal `setsum`, written from a tuple of the settlements `S`. -/
def EmitsSetsum (index : ReconIndex) (line : BankCreditLine) (S : Finset String) : Prop :=
  ∃ r sids, setsumSearch (setsumPool index line) line.amountPaise = .ok r ∧
    satisfyingTuples index line r = [sids] ∧ setsumEvidence index line = .ok (some [setsumItem sids]) ∧
    sids.toFinset = S

/-- Reconciliation answers with at least two settlements, as a set `S`. -/
def AnswersSetsum (ix : SettlementIndex) (line : BankCreditLine) (S : Finset String) : Prop :=
  ∃ sids giveup, ix.amountOrSetsumSids line [] = .ok (sids, giveup) ∧ 2 ≤ sids.length ∧ sids.toFinset = S

/-- No settlement alone has the amount, and `S` is the only set the search finds. -/
structure SetsumSole (index : ReconIndex) (line : BankCreditLine) (S : Finset String) : Prop where
  searched : Searched index line
  noSingle : setsumSingles index line = []
  found : foundSets (setsumPool index line) line.amountPaise = {S}

/-! ## Attribution -/

theorem EmitsSetsum.searched (h : EmitsSetsum index line S) : Searched index line := by
  obtain ⟨_, _, _, _, hevidence, _⟩ := h
  by_contra hno
  rw [setsumEvidence_unsearched hno, Except.ok.injEq] at hevidence
  exact absurd hevidence (by simp)

theorem emitsSetsum_iff : EmitsSetsum index line S ↔ SetsumSole index line S := by
  constructor
  · intro h
    have hsearched := h.searched
    obtain ⟨r, hr, hspec, hrun⟩ := setsumEvidence_run hsearched
    obtain ⟨r', sids, hr', htuples, hevidence, hS⟩ := h
    rw [hr, Except.ok.injEq] at hr'
    subst hr'
    rw [hrun, htuples, Except.ok.injEq] at hevidence
    -- a single settlement is no set-sum
    have hlen : sids.length ≠ 1 := by
      intro hone
      simp only [satisfyingEvidence, if_pos hone] at hevidence
      exact absurd hevidence (by simp)
    have hsingles : setsumSingles index line = [] := by
      by_contra hne
      obtain ⟨sid, rest, hcons⟩ := List.exists_cons_of_ne_nil hne
      unfold satisfyingTuples at htuples
      rw [hcons, List.map_cons, List.cons_append] at htuples
      exact hlen (by rw [← (List.cons.inj htuples).1, List.length_singleton])
    unfold satisfyingTuples at htuples
    rw [hsingles, List.map_nil, List.nil_append] at htuples
    obtain ⟨subset, hsubset, hsorted⟩ := List.map_eq_singleton_iff.mp htuples
    have hmem := hspec.mem subset (by rw [hsubset]; exact List.mem_singleton_self _)
    have hone : (foundSets (setsumPool index line) line.amountPaise).card = 1 := by
      have hlength := hspec.length_eq
      rw [hsubset, List.length_singleton] at hlength
      omega
    obtain ⟨T, hT⟩ := Finset.card_eq_one.mp hone
    rw [hT, Finset.mem_singleton] at hmem
    have hsame : (subset.insertionSort (· ≤ ·)).toFinset = subset.toFinset :=
      List.toFinset_eq_of_perm _ _ (List.perm_insertionSort (· ≤ ·) subset)
    rw [← hsorted, hsame, hmem] at hS
    exact ⟨hsearched, hsingles, hS ▸ hT⟩
  · intro h
    obtain ⟨r, hr, hspec, hrun⟩ := setsumEvidence_run h.searched
    have hlength := hspec.length_eq
    rw [h.found, Finset.card_singleton] at hlength
    obtain ⟨subset, hsubset⟩ := List.length_eq_one_iff.mp hlength
    have hin : subset ∈ r.subsets := by
      rw [hsubset]
      exact List.mem_singleton_self _
    have htuples : satisfyingTuples index line r = [subset.insertionSort (· ≤ ·)] := by
      unfold satisfyingTuples
      rw [h.noSingle, hsubset]
      rfl
    have hlen : (subset.insertionSort (· ≤ ·)).length ≠ 1 := by
      rw [List.length_insertionSort]
      have htwo := two_le_length_of_tupleSound (hspec.sound subset hin)
      omega
    refine ⟨r, subset.insertionSort (· ≤ ·), hr, htuples, ?_, ?_⟩
    · rw [hrun, htuples]
      simp only [satisfyingEvidence, if_neg hlen]
    · have hmem := hspec.mem subset hin
      rw [h.found, Finset.mem_singleton] at hmem
      rw [List.toFinset_eq_of_perm _ _ (List.perm_insertionSort (· ≤ ·) subset), hmem]

/-- The signal is written from one tuple. -/
theorem exists_emitsSetsum {items : List EvidenceItem} {e : EvidenceItem}
    (h : setsumEvidence index line = .ok (some items)) (he : e ∈ items) (hsignal : e.signal = "setsum") :
    ∃ S, EmitsSetsum index line S := by
  obtain ⟨ans, hans, hspec⟩ := setsumEvidence_spec index line
  rw [hans, Except.ok.injEq] at h
  cases hspec with
  | unsearched _ => exact absurd h (by simp [SetsumAnswer.items])
  | none _ _ => exact absurd h (by simp [SetsumAnswer.items])
  | single _ _ _ => exact absurd h (by simp [SetsumAnswer.items])
  | unique hsearched hsingles hcount subset hset hsound =>
      exact ⟨subset.toFinset, emitsSetsum_iff.mpr ⟨hsearched, hsingles, hset⟩⟩
  | multiple _ _ =>
      have hitems := Option.some.inj h
      rw [← hitems, List.mem_singleton] at he
      rw [he] at hsignal
      exact absurd hsignal (show ("multiple_satisfying_subsets" : String) ≠ _ by decide)

/-! ## Reconciliation -/

/-- Both modules draw from the same pool. -/
theorem setsumCands_eq (U : Unicode) (digest : RowSignature → String) (rows : List ReconRow) (line : BankCreditLine) :
    (SettlementIndex.ofRows U digest rows).setsumCands line [] = setsumPool (ReconIndex.ofRows U rows) line := by
  unfold SettlementIndex.setsumCands setsumPool
  refine List.filter_congr fun p _ => ?_
  rw [decide_eq_decide]
  exact ⟨fun h => h.2, fun h => ⟨List.not_mem_nil, h⟩⟩

theorem singleSids_eq (U : Unicode) (digest : RowSignature → String) (rows : List ReconRow) (line : BankCreditLine) :
    (SettlementIndex.ofRows U digest rows).singleSids line [] = setsumSingles (ReconIndex.ofRows U rows) line := by
  unfold SettlementIndex.singleSids setsumSingles
  refine List.filter_congr fun sid _ => ?_
  have hiff : (sid ∉ ([] : List String) ∧
      (SettlementIndex.ofRows U digest rows).withinWindow sid line = true) ↔
        inSetsumWindow (ReconIndex.ofRows U rows) line sid = true :=
    ⟨fun h => h.2, fun h => ⟨List.not_mem_nil, h⟩⟩
  rw [Bool.eq_iff_iff, decide_eq_true_eq, hiff]

theorem two_le_card_of_tupleSound {cands : List Item} {target : ℤ} {t : List String} (h : TupleSound cands target t) :
    2 ≤ t.toFinset.card := by
  rcases h with ⟨_, _, hmem⟩ | ⟨_, x, y, hxy, rfl⟩
  · exact (mem_sumSets.mp hmem).2.1
  · have hset : ([x.1, y.1, x.1] : List String).toFinset = {x.1, y.1} := by
      ext sid
      simp [or_comm]
    rw [hset, Finset.card_pair (ne_of_gt hxy.2.1)]

/-- A set-sum is the answer when it is the one set of the search, and no single settlement fits. -/
theorem answersSetsum_sets {ix : SettlementIndex} (hix : IndexSpec rows ix) :
    AnswersSetsum ix line S ↔ ix.singleSets line [] = ∅ ∧ ix.setsumSets line [] = {S} := by
  obtain ⟨ans, hans, hspec⟩ := SettlementIndex.amountOrSetsumSids_spec line [] hix
  constructor
  · intro h
    obtain ⟨sids, giveup, hanswer, htwo, rfl⟩ := h
    rw [hans, Except.ok.injEq] at hanswer
    subst hanswer
    cases hspec with
    | nothing _ => exact absurd htwo (by simp)
    | ambiguous _ => exact absurd htwo (by simp)
    | unique _ hsets hsound =>
        have hcard : 2 ≤ sids.toFinset.card := by
          rcases hsound with ⟨sid, _, hone⟩ | ⟨_, _, hsound⟩
          · rw [hone, List.length_singleton] at htwo
            exact absurd htwo (by omega)
          · exact two_le_card_of_tupleSound hsound
        -- a single settlement would be the one set as well
        have hsingle : ix.singleSets line [] = ∅ := by
          rw [Finset.eq_empty_iff_forall_notMem]
          intro T hT
          have hin : T ∈ ix.satisfyingSets line [] := Finset.mem_union_left _ hT
          rw [hsets, Finset.mem_singleton] at hin
          obtain ⟨sid, _, hone⟩ := SettlementIndex.mem_singleSets.mp hT
          rw [← hin, hone, Finset.card_singleton] at hcard
          omega
        refine ⟨hsingle, ?_⟩
        unfold SettlementIndex.satisfyingSets at hsets
        rwa [hsingle, Finset.empty_union] at hsets
  · intro h
    obtain ⟨hsingle, hsetsum⟩ := h
    have hsets : ix.satisfyingSets line [] = {S} := by
      unfold SettlementIndex.satisfyingSets
      rw [hsingle, hsetsum, Finset.empty_union]
    have hcard : 2 ≤ S.card := SettlementIndex.two_le_card_of_mem_setsumSets (hsetsum ▸ Finset.mem_singleton_self S)
    cases hspec with
    | nothing hnone =>
        rw [hsets] at hnone
        exact absurd hnone (Finset.singleton_ne_empty S)
    | ambiguous hmany =>
        rw [hsets, Finset.card_singleton] at hmany
        omega
    | unique sids hone _ =>
        rw [hsets, Finset.singleton_inj] at hone
        refine ⟨sids, none, hans, ?_, hone.symm⟩
        rw [hone] at hcard
        exact hcard.trans (List.toFinset_card_le sids)

theorem answersSetsum_iff (hcredit : line.isCredit = true) :
    AnswersSetsum (SettlementIndex.ofRows U digest rows) line S ↔ SetsumSole (ReconIndex.ofRows U rows) line S := by
  have hsingle : (SettlementIndex.ofRows U digest rows).singleSets line [] = ∅ ↔
      setsumSingles (ReconIndex.ofRows U rows) line = [] := by
    unfold SettlementIndex.singleSets
    rw [List.toFinset_eq_empty_iff, List.map_eq_nil_iff, singleSids_eq]
  rw [answersSetsum_sets (SettlementIndex.ofRows_spec U digest rows), hsingle]
  unfold SettlementIndex.setsumSets
  rw [setsumCands_eq]
  constructor
  · intro h
    obtain ⟨hnone, hfound⟩ := h
    split at hfound
    · exact absurd hfound.symm (Finset.singleton_ne_empty S)
    · rename_i hopen
      rw [not_or, not_lt] at hopen
      exact ⟨⟨hcredit, hopen⟩, hnone, hfound⟩
  · intro h
    rw [if_neg (not_or.mpr ⟨h.searched.2.1, not_lt.mpr h.searched.2.2⟩)]
    exact ⟨h.noSingle, h.found⟩

/-- **Attribution and reconciliation agree on set-sums**: the signal is emitted for a set exactly when the set is the
    answer over unused settlements, and whenever the signal is emitted there is such a set. -/
theorem setsum_agree (U : Unicode) (digest : RowSignature → String) (rows : List ReconRow) (line : BankCreditLine)
    (hcredit : line.isCredit = true) :
    (∀ S, EmitsSetsum (ReconIndex.ofRows U rows) line S ↔
        AnswersSetsum (SettlementIndex.ofRows U digest rows) line S) ∧
      ∀ items, setsumEvidence (ReconIndex.ofRows U rows) line = .ok (some items) →
        (∃ e ∈ items, e.signal = "setsum") →
          ∃ S, AnswersSetsum (SettlementIndex.ofRows U digest rows) line S := by
  refine ⟨fun S => emitsSetsum_iff.trans (answersSetsum_iff hcredit).symm, fun items hitems h => ?_⟩
  obtain ⟨e, he, hsignal⟩ := h
  obtain ⟨S, hS⟩ := exists_emitsSetsum hitems he hsignal
  exact ⟨S, (answersSetsum_iff hcredit).mpr (emitsSetsum_iff.mp hS)⟩

def pairReport : List ReconRow := [settledRow "e1" "S1" none 100000, settledRow "e2" "S2" none 30000]

/-- Both name the two settlements that a credit is the sum of. -/
theorem setsum_agree_pair :
    (creditLine "a" "NEFT" 130000).isCredit = true ∧
      EmitsSetsum (ReconIndex.ofRows asciiUnicode pairReport) (creditLine "a" "NEFT" 130000) {"S1", "S2"} ∧
        AnswersSetsum (SettlementIndex.ofRows asciiUnicode (fun _ => "") pairReport) (creditLine "a" "NEFT" 130000)
          {"S1", "S2"} :=
  have hemits : EmitsSetsum (ReconIndex.ofRows asciiUnicode pairReport) (creditLine "a" "NEFT" 130000) {"S1", "S2"} :=
    ⟨⟨[["S1", "S2"]], false⟩, ["S1", "S2"], by decide +kernel, by decide +kernel, by decide +kernel, rfl⟩
  ⟨rfl, hemits, ((setsum_agree asciiUnicode (fun _ => "") pairReport (creditLine "a" "NEFT" 130000) rfl).1 _).mp hemits⟩

end Untangle
