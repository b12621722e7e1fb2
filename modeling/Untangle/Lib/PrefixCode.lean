import Mathlib.Data.List.Basic

/-!
# `Lib.PrefixCode` — texts written letter by letter

An escaping replaces every letter by a code word. If no code word begins another one, the letters can be read off the
text again, so different words are written differently (`PrefixCode.flatMap_injective`).
-/

namespace Lib

/-- Code words none of which is empty, and none of which begins another. -/
structure PrefixCode {α β : Type} (code : α → List β) : Prop where
  ne_nil : ∀ a, code a ≠ []
  eq_of_prefix : ∀ a b, code a <+: code b → a = b

namespace PrefixCode

variable {α β : Type} {code : α → List β}

/-- The first letter is read off what follows it. -/
theorem append_inj (h : PrefixCode code) {a b : α} {us vs : List β} (heq : code a ++ us = code b ++ vs) :
    a = b ∧ us = vs := by
  have hab : a = b := by
    -- of two beginnings of one text, one begins the other
    rcases List.prefix_or_prefix_of_prefix (List.prefix_append (code a) us)
      (heq ▸ List.prefix_append (code b) vs) with hpre | hpre
    · exact h.eq_of_prefix a b hpre
    · exact (h.eq_of_prefix b a hpre).symm
  subst hab
  exact ⟨rfl, List.append_cancel_left heq⟩

/-- **A prefix code is read unambiguously.** -/
theorem flatMap_injective (h : PrefixCode code) : Function.Injective (List.flatMap code) := by
  intro as
  induction as with
  | nil =>
      intro bs heq
      cases bs with
      | nil => rfl
      | cons b bs =>
          rw [List.flatMap_nil, List.flatMap_cons] at heq
          exact absurd (List.append_eq_nil_iff.mp heq.symm).1 (h.ne_nil b)
  | cons a as ih =>
      intro bs heq
      cases bs with
      | nil =>
          rw [List.flatMap_nil, List.flatMap_cons] at heq
          exact absurd (List.append_eq_nil_iff.mp heq).1 (h.ne_nil a)
      | cons b bs =>
          rw [List.flatMap_cons, List.flatMap_cons] at heq
          obtain ⟨rfl, htail⟩ := h.append_inj heq
          rw [ih htail]

end PrefixCode

end Lib
