import Untangle.Correctness.Covered

/-!
# `Correctness.RowIdentity` — the ids of a report in another order

The `n`-th id of a signature is that of the `n`-th row with this signature (`get?_rowsByCanonicalId_iff`). In another
order of the report the ids are the same, and an id stands for a row that is interchangeable with the one it stood for,
as far as the signature goes. The signature leaves out the authorized and the captured amount, which the
investigations read: `rowIdentity_iff` says that the order does not matter exactly if the rows of a signature carry
these amounts in the same order, and for every order exactly if they carry the same ones.
-/

namespace Untangle

open Lib

/-! ## What a row holds -/

/-- A row without the label that the report came with. -/
def ReconRow.contents (r : ReconRow) : ReconRow := { r with rowId := none }

/-- The capture evidence of a row. -/
def ReconRow.capture (r : ReconRow) : Option ℤ × Option ℤ := (r.authorizedAmountPaise, r.capturedAmountPaise)

/-- The signature and the capture evidence are all that a row holds. -/
theorem contents_eq_iff {r r' : ReconRow} :
    r.contents = r'.contents ↔ rowSignature r = rowSignature r' ∧ r.capture = r'.capture := by
  cases r
  cases r'
  simp only [ReconRow.contents, rowSignature, ReconRow.capture, ReconRow.mk.injEq, RowSignature.mk.injEq,
    Prod.mk.injEq]
  tauto

/-- The rows with a signature, in the order of the report. -/
def ofSignature (rows : List ReconRow) (sig : RowSignature) : List ReconRow :=
  rows.filter fun r => rowSignature r = sig

/-! ## The row of an id -/

section Ids

variable {digest : RowSignature → String} {rows rows' : List ReconRow}

theorem mem_ofSignature {sig : RowSignature} {r : ReconRow} :
    r ∈ ofSignature rows sig ↔ r ∈ rows ∧ rowSignature r = sig := by
  simp [ofSignature]

/-- The loop hands out the ids of a signature one after the other. -/
theorem mem_zip_canonicalRowIdsFrom {seen : Dict RowSignature Nat} {id : String} {r : ReconRow} :
    (id, r) ∈ (canonicalRowIdsFrom digest seen rows).zip rows ↔
      ∃ sig n, id = rowId digest sig ((seen.get? sig).getD 0 + n) ∧ (ofSignature rows sig)[n]? = some r := by
  induction rows generalizing seen with
  | nil => simp [ofSignature, canonicalRowIdsFrom]
  | cons r₀ rows ih =>
      have hother : ∀ sig, rowSignature r₀ ≠ sig → ofSignature (r₀ :: rows) sig = ofSignature rows sig :=
        fun sig hne => List.filter_cons_of_neg (by simpa using hne)
      have hsame : ofSignature (r₀ :: rows) (rowSignature r₀) = r₀ :: ofSignature rows (rowSignature r₀) :=
        List.filter_cons_of_pos (by simp)
      unfold canonicalRowIdsFrom
      rw [List.zip_cons_cons, List.mem_cons, ih]
      constructor
      · rintro (hhead | ⟨sig, n, rfl, hrow⟩)
        · obtain ⟨rfl, rfl⟩ := Prod.mk.inj hhead
          exact ⟨rowSignature r, 0, rfl, by rw [hsame]; rfl⟩
        · by_cases hsig : rowSignature r₀ = sig
          · subst hsig
            refine ⟨rowSignature r₀, n + 1, ?_, by rw [hsame]; exact hrow⟩
            rw [Dict.get?_insert, if_pos rfl, Option.getD_some, Nat.add_assoc, Nat.add_comm 1 n]
          · refine ⟨sig, n, ?_, by rw [hother sig hsig]; exact hrow⟩
            rw [Dict.get?_insert, if_neg (Ne.symm hsig)]
      · rintro ⟨sig, n, rfl, hrow⟩
        by_cases hsig : rowSignature r₀ = sig
        · subst hsig
          rw [hsame] at hrow
          cases n with
          | zero =>
              obtain rfl := Option.some.inj hrow
              exact Or.inl rfl
          | succ n =>
              refine Or.inr ⟨rowSignature r₀, n, ?_, hrow⟩
              rw [Dict.get?_insert, if_pos rfl, Option.getD_some, Nat.add_assoc, Nat.add_comm 1 n]
        · refine Or.inr ⟨sig, n, ?_, by rw [← hother sig hsig]; exact hrow⟩
          rw [Dict.get?_insert, if_neg (Ne.symm hsig)]

/-- **An id stands for the `n`-th row of a signature.** -/
theorem get?_rowsByCanonicalId_iff (hdigest : Fingerprints digest rows) {id : String} {r : ReconRow} :
    (rowsByCanonicalId digest rows).get? id = some r ↔
      ∃ sig n, id = rowId digest sig n ∧ (ofSignature rows sig)[n]? = some r := by
  rw [get?_rowsByCanonicalId_eq_some hdigest]
  unfold canonicalRowIds
  rw [mem_zip_canonicalRowIdsFrom]
  simp only [Dict.get?_empty, Option.getD_none, Nat.zero_add]

/-- The digests of another order tell the same fields apart. -/
theorem Fingerprints.perm (hdigest : Fingerprints digest rows) (hperm : rows.Perm rows') :
    Fingerprints digest rows' :=
  fun r hr r' hr' => hdigest r (hperm.mem_iff.mpr hr) r' (hperm.mem_iff.mpr hr')

theorem length_ofSignature_perm (hperm : rows.Perm rows') (sig : RowSignature) :
    (ofSignature rows sig).length = (ofSignature rows' sig).length :=
  (hperm.filter _).length_eq

/-- The id of the `n`-th row of a signature stands for no other row. -/
theorem eq_of_rowId (hdigest : Fingerprints digest rows) {sig : RowSignature} {n : Nat} {r r' : ReconRow}
    (hr : (ofSignature rows sig)[n]? = some r)
    (hr' : (rowsByCanonicalId digest rows).get? (rowId digest sig n) = some r') : r' = r := by
  have hget := (get?_rowsByCanonicalId_iff hdigest).mpr ⟨sig, n, rfl, hr⟩
  rw [hget] at hr'
  exact (Option.some.inj hr').symm

/-! ## The report in another order -/

/-- The two orders have the same ids, an id stands for the same contents, and so a coverage that was recorded on one
    order resolves on the other, to rows with the same contents, or is refused with the same message. -/
structure SameIdentity (digest : RowSignature → String) (rows rows' : List ReconRow) : Prop where
  keys : ∀ id, id ∈ (rowsByCanonicalId digest rows').keys ↔ id ∈ (rowsByCanonicalId digest rows).keys
  contents : ∀ id r r', (rowsByCanonicalId digest rows).get? id = some r →
    (rowsByCanonicalId digest rows').get? id = some r' → r.contents = r'.contents
  resolves : ∀ (U : Unicode) (rec : ReconciliationResult),
    (resolveCoveredRowsById U rec (rowsByCanonicalId digest rows)).map (List.map ReconRow.contents) =
      (resolveCoveredRowsById U rec (rowsByCanonicalId digest rows')).map (List.map ReconRow.contents)

/-- Dictionaries with the same contents resolve alike. -/
theorem resolveRows_contents {U : Unicode} {lineKey : String} {byId byId' : Dict String ReconRow}
    (hsame : ∀ id, (byId.get? id).map ReconRow.contents = (byId'.get? id).map ReconRow.contents)
    (named : List (String × (String × String))) (pos : Nat) :
    (resolveRows U lineKey byId pos named).map (List.map ReconRow.contents) =
      (resolveRows U lineKey byId' pos named).map (List.map ReconRow.contents) := by
  induction named generalizing pos with
  | nil => rfl
  | cons p named ih =>
      obtain ⟨rid, expected⟩ := p
      have hid := hsame rid
      unfold resolveRows
      cases hrow : byId.get? rid with
      | none =>
          rw [hrow, Option.map_none, eq_comm, Option.map_eq_none_iff] at hid
          rw [hid]
      | some row =>
          rw [hrow, Option.map_some, eq_comm, Option.map_eq_some_iff] at hid
          obtain ⟨row', hrow', hcontents⟩ := hid
          have hsig := (contents_eq_iff.mp hcontents).1
          have htype : row'.type = row.type := congrArg RowSignature.type hsig
          have hentity : row'.entityId = row.entityId := congrArg RowSignature.entityId hsig
          rw [hrow']
          dsimp only
          rw [htype, hentity]
          by_cases hne : (row.type, row.entityId) ≠ expected
          · rw [if_pos hne, if_pos hne]
            rfl
          · rw [if_neg hne, if_neg hne]
            have hrest := ih (pos + 1)
            -- the rest of the rows, and this one in front of them
            cases hleft : resolveRows U lineKey byId (pos + 1) named with
            | error e =>
                cases hright : resolveRows U lineKey byId' (pos + 1) named with
                | error e' =>
                    rw [hleft, hright] at hrest
                    exact congrArg Except.error (Except.error.inj hrest)
                | ok rest' =>
                    rw [hleft, hright] at hrest
                    cases hrest
            | ok rest =>
                cases hright : resolveRows U lineKey byId' (pos + 1) named with
                | error e' =>
                    rw [hleft, hright] at hrest
                    cases hrest
                | ok rest' =>
                    rw [hleft, hright] at hrest
                    have heq : rest.map ReconRow.contents = rest'.map ReconRow.contents := Except.ok.inj hrest
                    show Except.ok ((row :: rest).map ReconRow.contents) =
                      Except.ok ((row' :: rest').map ReconRow.contents)
                    rw [List.map_cons, List.map_cons, heq, hcontents]

/-- **The order does not matter exactly if** the rows of each signature carry their capture evidence in the same
    order. -/
theorem sameIdentity_iff (hdigest : Fingerprints digest rows) (hperm : rows.Perm rows') :
    SameIdentity digest rows rows' ↔
      ∀ sig, (ofSignature rows sig).map ReconRow.capture = (ofSignature rows' sig).map ReconRow.capture := by
  have hdigest' := hdigest.perm hperm
  have hlength := length_ofSignature_perm hperm
  constructor
  · intro h sig
    apply List.ext_getElem? fun n => ?_
    rw [List.getElem?_map, List.getElem?_map]
    cases hrow : (ofSignature rows sig)[n]? with
    | none =>
        have hnone : (ofSignature rows' sig)[n]? = none := by
          rw [List.getElem?_eq_none_iff] at hrow ⊢
          exact hlength sig ▸ hrow
        rw [hnone]
    | some r =>
        obtain ⟨r', hrow'⟩ : ∃ r', (ofSignature rows' sig)[n]? = some r' :=
          ⟨_, List.getElem?_eq_getElem (hlength sig ▸ (List.getElem?_eq_some_iff.mp hrow).1)⟩
        have hcontents := h.contents (rowId digest sig n) r r'
          ((get?_rowsByCanonicalId_iff hdigest).mpr ⟨sig, n, rfl, hrow⟩)
          ((get?_rowsByCanonicalId_iff hdigest').mpr ⟨sig, n, rfl, hrow'⟩)
        rw [hrow', Option.map_some, Option.map_some, (contents_eq_iff.mp hcontents).2]
  · intro h
    have hsame : ∀ id, ((rowsByCanonicalId digest rows).get? id).map ReconRow.contents =
        ((rowsByCanonicalId digest rows').get? id).map ReconRow.contents := by
      -- one direction for any two orders of the report
      have hto : ∀ {xs ys : List ReconRow}, Fingerprints digest xs → Fingerprints digest ys →
          (∀ sig, (ofSignature xs sig).map ReconRow.capture = (ofSignature ys sig).map ReconRow.capture) →
          ∀ id r, (rowsByCanonicalId digest xs).get? id = some r →
            ∃ r', (rowsByCanonicalId digest ys).get? id = some r' ∧ r'.contents = r.contents := by
        intro xs ys hxs hys hcaptures id r hget
        obtain ⟨sig, n, rfl, hrow⟩ := (get?_rowsByCanonicalId_iff hxs).mp hget
        have hcapture := congrArg (fun l => l[n]?) (hcaptures sig)
        simp only [List.getElem?_map, hrow, Option.map_some] at hcapture
        obtain ⟨r', hrow', hcapture'⟩ := Option.map_eq_some_iff.mp hcapture.symm
        refine ⟨r', (get?_rowsByCanonicalId_iff hys).mpr ⟨sig, n, rfl, hrow'⟩, contents_eq_iff.mpr ⟨?_, hcapture'⟩⟩
        rw [(mem_ofSignature.mp (List.mem_of_getElem? hrow)).2, (mem_ofSignature.mp (List.mem_of_getElem? hrow')).2]
      intro id
      cases hget : (rowsByCanonicalId digest rows).get? id with
      | some r =>
          obtain ⟨r', hget', hcontents⟩ := hto hdigest hdigest' h id r hget
          rw [hget', Option.map_some, Option.map_some, hcontents]
      | none =>
          cases hget' : (rowsByCanonicalId digest rows').get? id with
          | none => rfl
          | some r' =>
              obtain ⟨r, hr, _⟩ := hto hdigest' hdigest (fun sig => (h sig).symm) id r' hget'
              rw [hget] at hr
              cases hr
    refine ⟨fun id => ?_, fun id r r' hr hr' => ?_, fun U rec => ?_⟩
    · have hid := congrArg Option.isSome (hsame id)
      rw [Option.isSome_map, Option.isSome_map] at hid
      rw [Dict.mem_keys_iff, Dict.mem_keys_iff, ← Option.isSome_iff_exists, ← Option.isSome_iff_exists, hid]
    · have hid := hsame id
      rw [hr, hr'] at hid
      exact Option.some.inj hid
    · unfold resolveCoveredRowsById
      split
      · rfl
      · split
        · rfl
        · exact resolveRows_contents hsame _ 0

/-- No order matters exactly if rows with one signature carry one capture evidence. -/
theorem sameIdentity_forall_iff (hdigest : Fingerprints digest rows) :
    (∀ rows', rows.Perm rows' → SameIdentity digest rows rows') ↔
      ∀ r ∈ rows, ∀ r' ∈ rows, rowSignature r = rowSignature r' → r.capture = r'.capture := by
  constructor
  · intro h r hr r' hr' hsig
    -- either row can be the first of the report
    have hfirst : ∀ x ∈ rows, rowSignature x = rowSignature r →
        ((ofSignature rows (rowSignature r)).map ReconRow.capture).head? = some x.capture := by
      intro x hx hsame
      have hperm : rows.Perm (x :: rows.erase x) := List.perm_cons_erase hx
      rw [(sameIdentity_iff hdigest hperm).mp (h _ hperm) (rowSignature r)]
      unfold ofSignature
      rw [List.filter_cons_of_pos (by simpa using hsame)]
      rfl
    exact Option.some.inj ((hfirst r hr rfl).symm.trans (hfirst r' hr' hsig.symm))
  · intro h rows' hperm
    refine (sameIdentity_iff hdigest hperm).mpr fun sig => ?_
    -- all rows of the signature carry the evidence of one of them
    cases hrows : ofSignature rows sig with
    | nil =>
        have hnone : (ofSignature rows' sig).length = 0 := by rw [← length_ofSignature_perm hperm, hrows]; rfl
        rw [List.length_eq_zero_iff.mp hnone]
    | cons r rest =>
        have hr := mem_ofSignature.mp (hrows ▸ List.mem_cons_self : r ∈ ofSignature rows sig)
        have hall : ∀ {xs : List ReconRow}, rows.Perm xs →
            (ofSignature xs sig).map ReconRow.capture = List.replicate (ofSignature xs sig).length r.capture := by
          intro xs hxs
          refine List.eq_replicate_iff.mpr ⟨List.length_map _, fun c hc => ?_⟩
          obtain ⟨x, hx, rfl⟩ := List.mem_map.mp hc
          obtain ⟨hx, hsig⟩ := mem_ofSignature.mp hx
          exact h x (hxs.mem_iff.mpr hx) r hr.1 (hsig.trans hr.2.symm)
        rw [← hrows, hall (List.Perm.refl rows), hall hperm, length_ofSignature_perm hperm]

end Ids

/-- **The ids follow the rows into another order exactly if** the rows of each signature carry their capture evidence
    in the same order there, and into every order exactly if they carry one evidence. -/
theorem rowIdentity_iff (digest : RowSignature → String) (rows : List ReconRow) (hdigest : Fingerprints digest rows) :
    (∀ rows', rows.Perm rows' → (SameIdentity digest rows rows' ↔
      ∀ sig, (ofSignature rows sig).map ReconRow.capture = (ofSignature rows' sig).map ReconRow.capture)) ∧
    ((∀ rows', rows.Perm rows' → SameIdentity digest rows rows') ↔
      ∀ r ∈ rows, ∀ r' ∈ rows, rowSignature r = rowSignature r' → r.capture = r'.capture) :=
  ⟨fun _ hperm => sameIdentity_iff hdigest hperm, sameIdentity_forall_iff hdigest⟩

/-! ## Two rows that differ in their capture evidence only -/

/-- A payment of 1000.00 that was authorized for 1000.00, and captured for as much as is said. -/
def capturedPayment (captured : ℤ) : ReconRow where
  entityId := "pay_1"
  type := "payment"
  amountPaise := 100000
  feePaise := 2000
  taxPaise := 360
  debitPaise := 0
  creditPaise := 98000
  settlementId := some "setl_1"
  settlementUtr := some "UTR1"
  settledAt := none
  createdAt := none
  onHold := false
  disputeId := none
  orderId := none
  method := none
  description := none
  authorizedAmountPaise := some 100000
  capturedAmountPaise := some captured

/-- Two payments trade places, and keep their ids. -/
theorem rowIdentity_swapped :
    SameIdentity RowSignature.entityId [capturedPayment 72000, { capturedPayment 100000 with entityId := "pay_2" }]
      [{ capturedPayment 100000 with entityId := "pay_2" }, capturedPayment 72000] := by
  refine (rowIdentity_iff RowSignature.entityId _ ?_).2.mpr ?_ _ (List.Perm.swap _ _ [])
  · unfold Fingerprints
    decide +kernel
  · decide +kernel

/-- A full and a partial capture with equal signatures trade places, and their ids do not follow them. -/
theorem captures_swap :
    ¬ ∀ (digest : RowSignature → String) (rows rows' : List ReconRow), Fingerprints digest rows →
      rows.Perm rows' → SameIdentity digest rows rows' := by
  intro h
  have hdigest : Fingerprints RowSignature.entityId [capturedPayment 100000, capturedPayment 72000] := by
    unfold Fingerprints
    decide +kernel
  have hsame := (h RowSignature.entityId _ _ hdigest (List.Perm.swap _ _ [])).contents "row_pay_1_0"
    (capturedPayment 100000) (capturedPayment 72000) (by decide +kernel) (by decide +kernel)
  exact absurd hsame (by decide +kernel)

end Untangle
