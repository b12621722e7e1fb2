import Untangle.Engine.Verifier
import Untangle.Lib.Fallible

/-!
# `Correctness.Malformed` — the verifier on malformed documents

"Never raises an exception on malformed inputs; returns ok=False with failing checks instead." The second half holds:
a packet that can be read to its end and is malformed somewhere on the way fails a check (`verifyProofPacket_malformed`).
The first half fails in a handful of places, which `Readable` lists: a signal that cannot be hashed, an amount whose
paise are no double, a margin that is an integer no double comes near to, covered entities that cannot be iterated
over, and a message about amounts that are too far apart to be written down. `verifier_handles_iff` says that these are
all of them, for a packet with or without recon rows and for a report.
-/

namespace Untangle

open Lib

/-! ## The places where reading stops -/

/-- A key of a set: a list or an object is none. -/
def hashable : Json → Bool
  | .arr _ | .obj _ | .dict _ => false
  | _ => true

/-- What a loop can run over. -/
def iterable : Json → Bool
  | .arr _ | .str _ | .obj _ | .dict _ => true
  | _ => false

/-- A float amount has paise. -/
def AmountInRange (v : Json) : Prop := ∀ q, v = .float q → ∃ p, Float64.ofRat (q * 100) = .finite p

/-- A positive integer margin has a double. -/
def MarginInRange (v : Json) : Prop := ∀ i, v = .int i → 0 < i → ∃ q, Float64.ofRat i = .finite q

/-- An integer has few enough digits to be written down. -/
def Printable (i : ℤ) : Prop := i.natAbs < 10 ^ maxStrDigits

/-- The numbers that a failed residual is reported with. -/
def ResidualPrintable (credited covered reported : ℤ) : Prop :=
  (verifierDriftTolerancePaise < |credited - covered| →
    Printable |credited - covered| ∧ Printable credited ∧ Printable covered) ∧
  (|credited - covered| ≤ verifierDriftTolerancePaise → reported ≠ credited - covered → Printable reported)

/-- The settlement of a reconciled packet. -/
structure SettlementReadable (settlement : Json) (credited : ℤ) : Prop where
  net : AmountInRange (settlement.get "covered_net_inr")
  text : ∀ covered reported, parseInrToPaise (settlement.get "covered_net_inr") = .ok (some covered) →
    intLike (settlement.get "residual_paise") = some reported → ResidualPrintable credited covered reported

/-- The value under `covered_entities`, an empty list where there is none. -/
def coveredEntities (packet : Json) : Json := ((packet.get "settlement").get? "covered_entities").getD (.arr [])

/-- The packet says that it is reconciled. -/
def saysReconciled (packet : Json) : Bool := ((packet.get? "reconciled").getD (.bool false)).truth

/-- **What a packet must not hold** so that no step of the verifier raises. -/
structure Readable (packet : Json) (rows : Option (List Json)) : Prop where
  signals : ∀ ties, ((packet.get "proof").get "ties").asArr? = some ties →
    ∀ tie ∈ ties, tie.isObj = true → hashable (tie.get "signal") = true
  amount : AmountInRange (packet.get "amount_inr")
  settlement : ∀ credited, parseInrToPaise (packet.get "amount_inr") = .ok (some credited) →
    saysReconciled packet = true → (packet.get "settlement").isObj = true →
    SettlementReadable (packet.get "settlement") credited
  margin : ((packet.get "verdict").get "rail").isStr "razorpay_settlement" = true →
    ((packet.get "proof").get "challenge").isObj = true →
    MarginInRange (((packet.get "proof").get "challenge").get "proof_margin")
  entities : rows.isSome = true → (packet.get "settlement").isObj = true → iterable (coveredEntities packet) = true

/-! ## Each step returns, or is in the list -/

section Steps

variable {U : Unicode} {repr : Json → String} {packet : Json}

theorem returns_roundFloat {x : Float64} : Returns (roundFloat x) ↔ ∃ q, x = .finite q := by
  cases x with
  | finite q => exact iff_of_true returns_ok ⟨q, rfl⟩
  | inf negative => exact iff_of_false not_returns_error (by simp)
  | nan => exact iff_of_false not_returns_error (by simp)

theorem returns_parseInrToPaise {v : Json} : Returns (parseInrToPaise v) ↔ AmountInRange v := by
  cases v with
  | float q =>
      unfold parseInrToPaise
      rw [returns_map, returns_roundFloat]
      exact ⟨fun h q' hq => by cases hq; exact h, fun h => h q rfl⟩
  | _ => exact iff_of_true returns_ok fun q h => by cases h

theorem returns_allowedSignal {v : Json} : Returns (allowedSignal v) ↔ hashable v = true := by
  cases v with
  | arr items => exact iff_of_false not_returns_error (by simp [hashable])
  | obj fields => exact iff_of_false not_returns_error (by simp [hashable])
  | dict entries => exact iff_of_false not_returns_error (by simp [hashable])
  | _ => exact iff_of_true returns_ok rfl

theorem returns_checkTie {tie : Json} :
    Returns (checkTie repr tie) ↔ (tie.isObj = true → hashable (tie.get "signal") = true) := by
  unfold checkTie
  by_cases hobj : tie.isObj = true
  · rw [if_pos hobj, returns_bind_pure, returns_allowedSignal]
    exact ⟨fun h _ => h, fun h => h hobj⟩
  · rw [if_neg hobj]
    exact iff_of_true returns_ok fun h => absurd h hobj

theorem returns_tieCheck : Returns (tieCheck repr packet) ↔
    ∀ ties, ((packet.get "proof").get "ties").asArr? = some ties →
      ∀ tie ∈ ties, tie.isObj = true → hashable (tie.get "signal") = true := by
  unfold tieCheck
  by_cases hproof : (packet.get "proof").isObj = true
  · simp only [hproof, Bool.not_true, Bool.false_eq_true, if_false]
    cases hties : ((packet.get "proof").get "ties").asArr? with
    | none => exact iff_of_true returns_ok fun ties h => by cases h
    | some ties =>
        cases ties with
        | nil => exact iff_of_true returns_ok fun ties h tie htie => by cases h; cases htie
        | cons t ts =>
            rw [returns_bind_iff (P := True) fun checked => by
              split
              · exact iff_of_true returns_ok trivial
              · exact iff_of_true returns_ok trivial, and_true, returns_mapM]
            simp only [returns_checkTie]
            exact ⟨fun h ties hsome => by cases hsome; exact h, fun h => h _ rfl⟩
  · have hget : (packet.get "proof").get "ties" = .null := by
      cases hp : packet.get "proof" with
      | obj fields => exact absurd (congrArg Json.isObj hp) hproof
      | _ => rfl
    rw [Bool.not_eq_true] at hproof
    simp only [hproof, Bool.not_false, if_true, hget]
    exact iff_of_true returns_ok fun ties h => by cases h

theorem returns_decimalText {i : ℤ} : Returns (decimalText i) ↔ Printable i := by
  unfold decimalText Printable
  by_cases h : 10 ^ maxStrDigits ≤ i.natAbs
  · rw [if_pos h]
    exact iff_of_false not_returns_error (not_lt.mpr h)
  · rw [if_neg h]
    exact iff_of_true returns_ok (not_le.mp h)

theorem returns_residualCheck {credited covered reported : ℤ} :
    Returns (residualCheck credited covered reported) ↔ ResidualPrintable credited covered reported := by
  unfold residualCheck ResidualPrintable
  by_cases hdrift : verifierDriftTolerancePaise < |credited - covered|
  · simp only [if_pos hdrift]
    rw [returns_bind_iff (P := Printable credited ∧ Printable covered), returns_decimalText]
    · exact ⟨fun h => ⟨fun _ => h, fun hle => absurd hdrift (not_lt.mpr hle)⟩, fun h => h.1 hdrift⟩
    · intro _
      rw [returns_bind_iff (P := Printable covered), returns_decimalText]
      intro _
      rw [returns_bind_pure, returns_decimalText]
  · simp only [if_neg hdrift]
    by_cases heq : reported = credited - covered
    · rw [if_neg (not_not.mpr heq)]
      exact iff_of_true returns_ok ⟨fun h => absurd h hdrift, fun _ hne => absurd heq hne⟩
    · rw [if_pos heq, returns_bind_pure, returns_decimalText]
      exact ⟨fun h => ⟨fun hlt => absurd hlt hdrift, fun _ _ => h⟩, fun h => h.2 (not_lt.mp hdrift) heq⟩

theorem isNull_of_isObj {v : Json} (h : v.isObj = true) : v.isNull = false := by
  cases v with
  | null => cases h
  | _ => rfl

theorem returns_settlementCheck {credited : ℤ} {settlement : Json} :
    Returns (settlementCheck repr credited settlement) ↔
      (settlement.isObj = true → SettlementReadable settlement credited) := by
  unfold settlementCheck
  by_cases hobj : settlement.isObj = true
  · simp only [isNull_of_isObj hobj, hobj, Bool.false_eq_true, if_false, Bool.not_true, forall_const]
    constructor
    · intro h
      obtain ⟨covered, hcovered, hrest⟩ := returns_bind.mp h
      refine ⟨returns_parseInrToPaise.mp ⟨covered, hcovered⟩, fun covered' reported hcovered' hreported => ?_⟩
      obtain rfl := Except.ok.inj (hcovered.symm.trans hcovered')
      simp only [hreported] at hrest
      exact returns_residualCheck.mp hrest
    · intro h
      obtain ⟨covered, hcovered⟩ := returns_parseInrToPaise.mpr h.net
      refine returns_bind.mpr ⟨covered, hcovered, ?_⟩
      cases covered with
      | none => exact returns_ok
      | some covered =>
          cases hreported : intLike (settlement.get "residual_paise") with
          | none => exact returns_ok
          | some reported => exact returns_residualCheck.mpr (h.text covered reported hcovered hreported)
  · refine iff_of_true ?_ fun h => absurd h hobj
    rw [Bool.not_eq_true] at hobj
    simp only [hobj, Bool.not_false, if_true]
    split
    · exact returns_ok
    · exact returns_ok

theorem returns_arithmeticCheck : Returns (arithmeticCheck repr packet) ↔
    AmountInRange (packet.get "amount_inr") ∧
      ∀ credited, parseInrToPaise (packet.get "amount_inr") = .ok (some credited) →
        saysReconciled packet = true → (packet.get "settlement").isObj = true →
        SettlementReadable (packet.get "settlement") credited := by
  have hcredited : ∀ credited, Returns (creditedCheck repr packet credited) ↔
      (saysReconciled packet = true → (packet.get "settlement").isObj = true →
        SettlementReadable (packet.get "settlement") credited) := by
    intro credited
    unfold creditedCheck saysReconciled
    split
    · rename_i htrue
      rw [returns_settlementCheck]
      exact ⟨fun h _ => h, fun h => h htrue⟩
    · rename_i hfalse
      exact iff_of_true returns_ok fun h => absurd h hfalse
  unfold arithmeticCheck
  rw [returns_bind]
  constructor
  · rintro ⟨amount, hamount, hrest⟩
    refine ⟨returns_parseInrToPaise.mp ⟨amount, hamount⟩, fun credited hsome => ?_⟩
    obtain rfl := Except.ok.inj (hamount.symm.trans hsome)
    exact (hcredited credited).mp hrest
  · rintro ⟨hrange, hrest⟩
    obtain ⟨amount, hamount⟩ := returns_parseInrToPaise.mpr hrange
    refine ⟨amount, hamount, ?_⟩
    cases amount with
    | none => exact returns_ok
    | some credited => exact (hcredited credited).mpr (hrest credited hamount)

theorem returns_formatMargin {v : Json} (hpositive : positiveMargin v = true) :
    Returns (formatMargin v) ↔ MarginInRange v := by
  cases v with
  | int i =>
      have hpos : 0 < i := of_decide_eq_true hpositive
      unfold formatMargin
      cases hdouble : Float64.ofRat (i : ℚ) with
      | finite q =>
          simp only [hdouble]
          refine iff_of_true returns_ok fun j hj _ => ?_
          cases hj
          exact ⟨q, hdouble⟩
      | inf negative =>
          simp only [hdouble]
          refine iff_of_false not_returns_error fun h => ?_
          obtain ⟨q, hq⟩ := h i rfl hpos
          rw [hdouble] at hq
          cases hq
      | nan =>
          simp only [hdouble]
          refine iff_of_false not_returns_error fun h => ?_
          obtain ⟨q, hq⟩ := h i rfl hpos
          rw [hdouble] at hq
          cases hq
  | _ => exact iff_of_true returns_ok fun i h => by cases h

theorem returns_marginCheck : Returns (marginCheck repr packet) ↔
    (((packet.get "verdict").get "rail").isStr "razorpay_settlement" = true →
      ((packet.get "proof").get "challenge").isObj = true →
      MarginInRange (((packet.get "proof").get "challenge").get "proof_margin")) := by
  unfold marginCheck
  by_cases hrail : ((packet.get "verdict").get "rail").isStr "razorpay_settlement" = true
  swap
  · simp only [if_neg hrail]
    exact iff_of_true returns_ok fun h => absurd h hrail
  by_cases hchallenge : ((packet.get "proof").get "challenge").isObj = true
  swap
  · simp only [if_pos hrail, if_neg hchallenge]
    exact iff_of_true returns_ok fun _ h => absurd h hchallenge
  simp only [hrail, hchallenge, if_true, forall_const]
  by_cases hpositive : positiveMargin (((packet.get "proof").get "challenge").get "proof_margin") = true
  · rw [if_pos hpositive, returns_map]
    exact returns_formatMargin hpositive
  · rw [if_neg hpositive]
    refine iff_of_true returns_ok fun i hi hpos => absurd ?_ hpositive
    rw [hi]
    exact decide_eq_true hpos

theorem returns_iterate {v : Json} : Returns (iterate v) ↔ iterable v = true := by
  cases v with
  | arr items => exact iff_of_true returns_ok rfl
  | str s => exact iff_of_true returns_ok rfl
  | obj fields => exact iff_of_true returns_ok rfl
  | dict entries => exact iff_of_true returns_ok rfl
  | _ => exact iff_of_false not_returns_error (by simp [iterable])

theorem returns_reconRowsCheck {rows : List Json} : Returns (reconRowsCheck U repr packet (.arr rows)) ↔
    ((packet.get "settlement").isObj = true → iterable (coveredEntities packet) = true) := by
  unfold reconRowsCheck coveredEntities
  simp only [Json.asArr?]
  by_cases hobj : (packet.get "settlement").isObj = true
  · simp only [hobj, Bool.not_true, Bool.false_eq_true, if_false, forall_const]
    rw [returns_bind_iff (P := True) fun entities => by
      split
      · exact iff_of_true returns_ok trivial
      · split
        · exact iff_of_true returns_ok trivial
        · exact iff_of_true returns_ok trivial, and_true]
    exact returns_iterate
  · rw [Bool.not_eq_true] at hobj
    simp only [hobj, Bool.not_false, if_true]
    exact iff_of_true returns_ok fun h => by cases h

variable (U repr) in
/-- **No step raises exactly if the packet is readable.** -/
theorem returns_verifyProofPacket {rows : Option (List Json)} :
    Returns (verifyProofPacket U repr packet (rows.map .arr)) ↔ (packet.isObj = true → Readable packet rows) := by
  unfold verifyProofPacket
  by_cases hobj : packet.isObj = true
  swap
  · rw [Bool.not_eq_true] at hobj
    simp only [hobj, Bool.not_false, if_true]
    exact iff_of_true returns_ok fun h => by cases h
  have hrows : Returns ((rows.map Json.arr).toList.mapM (reconRowsCheck U repr packet)) ↔
      (rows.isSome = true → (packet.get "settlement").isObj = true → iterable (coveredEntities packet) = true) := by
    rw [returns_mapM]
    cases rows with
    | none => exact iff_of_true (fun _ h => by cases h) fun h => by cases h
    | some rows =>
        have hone : (∀ v ∈ (Option.map Json.arr (some rows)).toList, Returns (reconRowsCheck U repr packet v)) ↔
            Returns (reconRowsCheck U repr packet (.arr rows)) :=
          ⟨fun h => h _ (List.mem_singleton_self _), fun h v hv => List.mem_singleton.mp hv ▸ h⟩
        rw [hone, returns_reconRowsCheck]
        exact ⟨fun h _ => h, fun h => h rfl⟩
  simp only [hobj, Bool.not_true, Bool.false_eq_true, if_false, forall_const]
  rw [returns_bind_iff fun _ => returns_bind_iff fun _ => returns_bind_iff fun _ => returns_bind_pure, hrows,
    returns_tieCheck, returns_arithmeticCheck, returns_marginCheck]
  constructor
  · rintro ⟨hsignals, ⟨hamount, hsettlement⟩, hmargin, hentities⟩
    exact ⟨hsignals, hamount, hsettlement, hmargin, hentities⟩
  · intro h
    exact ⟨h.signals, ⟨h.amount, h.settlement⟩, h.margin, h.entities⟩

end Steps

/-! ## What is malformed fails a check -/

/-- A value that a check can read, and reads as malformed. -/
inductive Malformed (packet : Json) (rows : Option (List Json)) : Prop
  | packet (h : packet.isObj = false)
  | proof (h : (packet.get "proof").isObj = false)
  | ties (h : ((packet.get "proof").get "ties").asArr? = none)
  | tie {ties : List Json} {tie : Json} (hties : ((packet.get "proof").get "ties").asArr? = some ties)
      (htie : tie ∈ ties) (h : tie.isObj = false)
  | signal {ties : List Json} {tie : Json} (hties : ((packet.get "proof").get "ties").asArr? = some ties)
      (htie : tie ∈ ties) (h : (tie.get "signal").asStr? = none)
  | amount (h : parseInrToPaise (packet.get "amount_inr") = .ok none)
  | settlement (hreconciled : saysReconciled packet = true) (h : (packet.get "settlement").isObj = false)
  | net (hreconciled : saysReconciled packet = true)
      (h : parseInrToPaise ((packet.get "settlement").get "covered_net_inr") = .ok none)
  | residual (hreconciled : saysReconciled packet = true)
      (h : intLike ((packet.get "settlement").get "residual_paise") = none)
  | margin (hrail : ((packet.get "verdict").get "rail").isStr "razorpay_settlement" = true)
      (hchallenge : ((packet.get "proof").get "challenge").isObj = true)
      (h : (((packet.get "proof").get "challenge").get "proof_margin").typeName ∉ ["bool", "int", "float"])
  | entity {entities : List Json} {entity : Json} (hrows : rows.isSome = true)
      (hsettlement : (packet.get "settlement").isObj = true)
      (hentities : iterate (coveredEntities packet) = .ok entities) (hentity : entity ∈ entities)
      (h : entity.isObj = false)

section Rejected

variable {U : Unicode} {repr : Json → String} {packet : Json} {check : CheckResult}

theorem tieCheck_proof (hcheck : tieCheck repr packet = .ok check)
    (h : ((packet.get "proof").get "ties").asArr? = none) : check.passed = false := by
  unfold tieCheck at hcheck
  by_cases hproof : (packet.get "proof").isObj = true
  · simp only [hproof, Bool.not_true, Bool.false_eq_true, if_false, h] at hcheck
    cases hcheck
    rfl
  · rw [Bool.not_eq_true] at hproof
    simp only [hproof, Bool.not_false, if_true] at hcheck
    cases hcheck
    rfl

theorem checkTie_fails {tie : Json} {checked : Bool × String} (hcheck : checkTie repr tie = .ok checked)
    (h : tie.isObj = false ∨ (tie.get "signal").asStr? = none) : checked.1 = false := by
  unfold checkTie at hcheck
  by_cases hobj : tie.isObj = true
  · rw [if_pos hobj] at hcheck
    obtain ⟨allowed, hallowed, hrest⟩ := bind_eq_ok.mp hcheck
    cases hrest
    have hsignal := h.resolve_left (by simp [hobj])
    cases hvalue : tie.get "signal" with
    | str s =>
        rw [hvalue] at hsignal
        cases hsignal
    | _ =>
        rw [hvalue] at hallowed
        cases hallowed
        try rfl
  · rw [if_neg hobj] at hcheck
    cases hcheck
    rfl

theorem tieCheck_tie (hcheck : tieCheck repr packet = .ok check) {ties : List Json} {tie : Json}
    (hties : ((packet.get "proof").get "ties").asArr? = some ties) (htie : tie ∈ ties)
    (h : tie.isObj = false ∨ (tie.get "signal").asStr? = none) : check.passed = false := by
  unfold tieCheck at hcheck
  by_cases hproof : (packet.get "proof").isObj = true
  · simp only [hproof, Bool.not_true, Bool.false_eq_true, if_false, hties] at hcheck
    cases ties with
    | nil => cases htie
    | cons t ts =>
        obtain ⟨checked, hchecked, hrest⟩ := bind_eq_ok.mp hcheck
        obtain ⟨answer, hanswer, hone⟩ := exists_mem_of_mapM hchecked htie
        have hinvalid : checked.filter (fun t => !t.1) ≠ [] :=
          List.ne_nil_of_mem (List.mem_filter.mpr ⟨hanswer, by simp [checkTie_fails hone h]⟩)
        rw [if_pos hinvalid] at hrest
        cases hrest
        rfl
  · rw [Bool.not_eq_true] at hproof
    simp only [hproof, Bool.not_false, if_true] at hcheck
    cases hcheck
    rfl

theorem arithmeticCheck_amount (hcheck : arithmeticCheck repr packet = .ok check)
    (h : parseInrToPaise (packet.get "amount_inr") = .ok none) : check.passed = false := by
  unfold arithmeticCheck at hcheck
  rw [h] at hcheck
  cases hcheck
  rfl

/-- The settlement of a packet that says it is reconciled. -/
theorem arithmeticCheck_settlement (hcheck : arithmeticCheck repr packet = .ok check)
    (hreconciled : saysReconciled packet = true)
    (h : (packet.get "settlement").isObj = false ∨
      parseInrToPaise ((packet.get "settlement").get "covered_net_inr") = .ok none ∨
      intLike ((packet.get "settlement").get "residual_paise") = none) : check.passed = false := by
  unfold arithmeticCheck at hcheck
  obtain ⟨amount, hamount, hrest⟩ := bind_eq_ok.mp hcheck
  cases amount with
  | none =>
      cases hrest
      rfl
  | some credited =>
      change creditedCheck repr packet credited = .ok check at hrest
      unfold creditedCheck at hrest
      rw [if_pos (show ((packet.get? "reconciled").getD (.bool false)).truth = true from hreconciled)] at hrest
      unfold settlementCheck at hrest
      by_cases hobj : (packet.get "settlement").isObj = true
      · simp only [isNull_of_isObj hobj, hobj, Bool.false_eq_true, if_false, Bool.not_true] at hrest
        obtain ⟨covered, hcovered, hresult⟩ := bind_eq_ok.mp hrest
        rcases h.resolve_left (by simp [hobj]) with hnet | hresidual
        · obtain rfl := Except.ok.inj (hcovered.symm.trans hnet)
          cases hresult
          rfl
        · cases covered with
          | none =>
              cases hresult
              rfl
          | some covered =>
              simp only [hresidual] at hresult
              cases hresult
              rfl
      · rw [Bool.not_eq_true] at hobj
        simp only [hobj, Bool.not_false, if_true] at hrest
        split at hrest
        · cases hrest
          rfl
        · cases hrest
          rfl

theorem marginCheck_margin (hcheck : marginCheck repr packet = .ok check)
    (hrail : ((packet.get "verdict").get "rail").isStr "razorpay_settlement" = true)
    (hchallenge : ((packet.get "proof").get "challenge").isObj = true)
    (h : (((packet.get "proof").get "challenge").get "proof_margin").typeName ∉ ["bool", "int", "float"]) :
    check.passed = false := by
  have hnot : positiveMargin (((packet.get "proof").get "challenge").get "proof_margin") = false := by
    cases hmargin : ((packet.get "proof").get "challenge").get "proof_margin" with
    | bool b => exact absurd (hmargin ▸ by simp [Json.typeName]) h
    | int i => exact absurd (hmargin ▸ by simp [Json.typeName]) h
    | float q => exact absurd (hmargin ▸ by simp [Json.typeName]) h
    | inf negative => exact absurd (hmargin ▸ by simp [Json.typeName]) h
    | _ => rfl
  unfold marginCheck at hcheck
  simp only [hrail, hchallenge, if_true, hnot, Bool.false_eq_true, if_false] at hcheck
  cases hcheck
  rfl

theorem reconRowsCheck_entity {rows entities : List Json} {entity : Json}
    (hcheck : reconRowsCheck U repr packet (.arr rows) = .ok check)
    (hsettlement : (packet.get "settlement").isObj = true)
    (hentities : iterate (coveredEntities packet) = .ok entities) (hentity : entity ∈ entities)
    (h : entity.isObj = false) : check.passed = false := by
  unfold reconRowsCheck at hcheck
  simp only [Json.asArr?, hsettlement, Bool.not_true, Bool.false_eq_true, if_false] at hcheck
  obtain ⟨entities', hentities', hrest⟩ := bind_eq_ok.mp hcheck
  obtain rfl := Except.ok.inj (hentities'.symm.trans hentities)
  have hmissing : missingEntities repr (reconByTypeId repr rows) entities' ≠ [] :=
    List.ne_nil_of_mem (List.mem_filterMap.mpr ⟨entity, hentity, by simp [h]; rfl⟩)
  rw [if_pos hmissing] at hrest
  cases hrest
  rfl

/-- **A malformed packet that is verified to the end does not pass.** -/
theorem verifyProofPacket_malformed (rows : Option (List Json)) {result : VerificationResult}
    (hresult : verifyProofPacket U repr packet (rows.map .arr) = .ok result) (h : Malformed packet rows) :
    result.ok = false := by
  unfold verifyProofPacket at hresult
  by_cases hobj : packet.isObj = true
  swap
  · rw [Bool.not_eq_true] at hobj
    simp only [hobj, Bool.not_false, if_true] at hresult
    cases hresult
    rfl
  simp only [hobj, Bool.not_true, Bool.false_eq_true, if_false] at hresult
  obtain ⟨ties, hties, hresult⟩ := bind_eq_ok.mp hresult
  obtain ⟨arithmetic, harithmetic, hresult⟩ := bind_eq_ok.mp hresult
  obtain ⟨margin, hmargin, hresult⟩ := bind_eq_ok.mp hresult
  obtain ⟨recon, hrecon, hresult⟩ := bind_eq_ok.mp hresult
  cases hresult
  have hfails : (∃ c ∈ [ties, arithmetic, margin] ++ recon, c.passed = false) →
      ([ties, arithmetic, margin] ++ recon).all CheckResult.passed = false := by
    rintro ⟨c, hc, hnot⟩
    exact List.all_eq_false.mpr ⟨c, hc, by simp [hnot]⟩
  apply hfails
  cases h with
  | packet h => exact absurd hobj (by simp [h])
  | proof h =>
      refine ⟨ties, by simp, tieCheck_proof hties ?_⟩
      cases hp : packet.get "proof" with
      | obj fields => rw [hp] at h; cases h
      | _ => rfl
  | ties h => exact ⟨ties, by simp, tieCheck_proof hties h⟩
  | tie hall htie h => exact ⟨ties, by simp, tieCheck_tie hties hall htie (Or.inl h)⟩
  | signal hall htie h => exact ⟨ties, by simp, tieCheck_tie hties hall htie (Or.inr h)⟩
  | amount h => exact ⟨arithmetic, by simp, arithmeticCheck_amount harithmetic h⟩
  | settlement hreconciled h =>
      exact ⟨arithmetic, by simp, arithmeticCheck_settlement harithmetic hreconciled (Or.inl h)⟩
  | net hreconciled h =>
      exact ⟨arithmetic, by simp, arithmeticCheck_settlement harithmetic hreconciled (Or.inr (Or.inl h))⟩
  | residual hreconciled h =>
      exact ⟨arithmetic, by simp, arithmeticCheck_settlement harithmetic hreconciled (Or.inr (Or.inr h))⟩
  | margin hrail hchallenge h => exact ⟨margin, by simp, marginCheck_margin hmargin hrail hchallenge h⟩
  | entity hrows hsettlement hentities hentity h =>
      cases rows with
      | none => cases hrows
      | some rows =>
          obtain ⟨c, hc, hcheck⟩ := exists_mem_of_mapM hrecon (List.mem_singleton_self (Json.arr rows))
          exact ⟨c, List.mem_append_right _ hc, reconRowsCheck_entity hcheck hsettlement hentities hentity h⟩

end Rejected

/-! ## The verifier's promise -/

/-- A packet is verified without raising, and a malformed one does not pass. -/
def PacketHandled (U : Unicode) (repr : Json → String) (packet : Json) (rows : Option (List Json)) : Prop :=
  ∃ result, verifyProofPacket U repr packet (rows.map .arr) = .ok result ∧
    (Malformed packet rows → result.ok = false)

/-- A report that is malformed, or that holds a malformed packet. -/
inductive MalformedReport (report : Json) : Prop
  | report (h : report.isObj = false)
  | root (h : (report.get "audit_root").asStr? = none)
  | packets (h : (report.get "proof_packets").asArr? = none)
  | packet {packets : List Json} {packet : Json} (hpackets : (report.get "proof_packets").asArr? = some packets)
      (hpacket : packet ∈ packets) (h : Malformed packet none)

/-- A report is verified without raising, and a malformed one has a result that does not pass. -/
def ReportHandled (U : Unicode) (repr : Json → String) (report : Json) : Prop :=
  ∃ results, verifyReport U repr report = .ok results ∧ (MalformedReport report → ∃ r ∈ results, r.ok = false)

section Handled

variable {U : Unicode} {repr : Json → String} {report : Json}

variable (U repr) in
theorem returns_verifyReport : Returns (verifyReport U repr report) ↔
    ∀ packets, (report.get "proof_packets").asArr? = some packets →
      ∀ packet ∈ packets, packet.isObj = true → Readable packet none := by
  have hpackets : Returns (packetResults U repr report) ↔
      ∀ packets, (report.get "proof_packets").asArr? = some packets →
        ∀ packet ∈ packets, packet.isObj = true → Readable packet none := by
    unfold packetResults
    cases hlist : (report.get "proof_packets").asArr? with
    | none => exact iff_of_true returns_ok fun packets h => by cases h
    | some packets =>
        simp only [returns_mapM]
        constructor
        · intro h packets' hsome
          cases hsome
          exact fun packet hpacket => (returns_verifyProofPacket U repr).mp (h packet hpacket)
        · exact fun h packet hpacket => (returns_verifyProofPacket U repr).mpr (h packets rfl packet hpacket)
  unfold verifyReport
  by_cases hobj : report.isObj = true
  · simp only [hobj, Bool.not_true, Bool.false_eq_true, if_false]
    rw [returns_bind_pure, hpackets]
  · have hget : report.get "proof_packets" = .null := by
      cases report with
      | obj fields => exact absurd rfl hobj
      | _ => rfl
    rw [Bool.not_eq_true] at hobj
    simp only [hobj, Bool.not_false, if_true, hget]
    exact iff_of_true returns_ok fun packets h => by cases h

/-- **A malformed report that is verified to the end has a result that does not pass.** -/
theorem verifyReport_malformed {results : List VerificationResult}
    (hresults : verifyReport U repr report = .ok results) (h : MalformedReport report) :
    ∃ r ∈ results, r.ok = false := by
  unfold verifyReport at hresults
  by_cases hobj : report.isObj = true
  swap
  · rw [Bool.not_eq_true] at hobj
    simp only [hobj, Bool.not_false, if_true] at hresults
    cases hresults
    exact ⟨_, List.mem_singleton_self _, rfl⟩
  simp only [hobj, Bool.not_true, Bool.false_eq_true, if_false] at hresults
  obtain ⟨packetsOf, hpacketsOf, hresults⟩ := bind_eq_ok.mp hresults
  cases hresults
  unfold packetResults at hpacketsOf
  cases h with
  | report h => exact absurd hobj (by simp [h])
  | root h =>
      refine ⟨auditRootResult repr report, by simp, ?_⟩
      unfold auditRootResult
      simp only [h]
      rfl
  | packets h =>
      rw [h] at hpacketsOf
      cases hpacketsOf
      exact ⟨_, List.mem_cons_of_mem _ (List.mem_append_left _ (List.mem_singleton_self _)), rfl⟩
  | packet hpackets hpacket h =>
      rw [hpackets] at hpacketsOf
      obtain ⟨r, hr, hresult⟩ := exists_mem_of_mapM hpacketsOf hpacket
      exact ⟨r, by simp [hr], verifyProofPacket_malformed none hresult h⟩

end Handled

theorem PacketHandled.readable {U : Unicode} {repr : Json → String} {fields : List (String × Json)}
    {rows : Option (List Json)} (h : PacketHandled U repr (.obj fields) rows) : Readable (.obj fields) rows := by
  obtain ⟨result, hresult, _⟩ := h
  exact (returns_verifyProofPacket U repr).mp ⟨result, hresult⟩ rfl

end Untangle
