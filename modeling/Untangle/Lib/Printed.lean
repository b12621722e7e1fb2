import Mathlib.Data.List.Basic
import Mathlib.Data.String.Basic

/-!
# `Lib.Printed` — reading printed numbers back

Texts are put together from fixed words and printed numbers. A number is a run of digits, so it can be read back
where the text beside it does not go on with a digit: what follows a number is determined
(`append_inj_of_number`), and so is a number at the end of a text (`number_suffix_inj`).
-/

namespace Lib

/-- The text does not go on with a digit. -/
def StopsNumber (t : String) : Prop := ∀ c ∈ t.toList.head?, c.isDigit = false

/-- **A run ends where the characters of its kind do.** -/
theorem append_inj_of_run {p : Char → Bool} {ds es cs cs' : List Char} (hds : ∀ d ∈ ds, p d = true)
    (hes : ∀ d ∈ es, p d = true) (hcs : ∀ c ∈ cs.head?, p c = false) (hcs' : ∀ c ∈ cs'.head?, p c = false)
    (h : ds ++ cs = es ++ cs') : ds = es ∧ cs = cs' := by
  induction ds generalizing es with
  | nil =>
      cases es with
      | nil => exact ⟨rfl, h⟩
      | cons e es =>
          -- the text would go on with a character of the other run
          rw [List.nil_append] at h
          rw [h] at hcs
          have hrun := hes e List.mem_cons_self
          rw [hcs e (by simp)] at hrun
          exact absurd hrun (by simp)
  | cons d ds ih =>
      cases es with
      | nil =>
          rw [List.nil_append] at h
          rw [← h] at hcs'
          have hrun := hds d List.mem_cons_self
          rw [hcs' d (by simp)] at hrun
          exact absurd hrun (by simp)
      | cons e es =>
          obtain ⟨rfl, hrest⟩ := List.cons.inj h
          obtain ⟨rfl, hcs⟩ := ih (fun x hx => hds x (List.mem_cons_of_mem _ hx))
            (fun x hx => hes x (List.mem_cons_of_mem _ hx)) hrest
          exact ⟨rfl, hcs⟩

theorem isDigit_of_mem_toString {n : Nat} {c : Char} (h : c ∈ (toString n).toList) : c.isDigit = true := by
  rw [Nat.toString_eq_repr, Nat.toList_repr] at h
  exact Nat.isDigit_of_mem_toDigits (by decide) (by decide) h

/-- What follows a printed number is determined. -/
theorem append_inj_of_number {n n' : Nat} {t t' : String} (ht : StopsNumber t) (ht' : StopsNumber t')
    (h : toString n ++ t = toString n' ++ t') : t = t' := by
  have hlist := congrArg String.toList h
  rw [String.toList_append, String.toList_append] at hlist
  exact String.toList_injective (append_inj_of_run (fun _ => isDigit_of_mem_toString)
    (fun _ => isDigit_of_mem_toString) ht ht' hlist).2

theorem stopsNumber_append {t t' : String} (h : StopsNumber t) (hne : t.toList ≠ []) : StopsNumber (t ++ t') := by
  intro c hc
  rw [String.toList_append, List.head?_append_of_ne_nil _ hne] at hc
  exact h c hc

/-- **A number at the end of a text** is determined, and so is the text before it. -/
theorem number_suffix_inj {t t' : String} {n n' : Nat} {c : Char} (hc : c.isDigit = false)
    (h : (t.push c) ++ toString n = (t'.push c) ++ toString n') : t = t' ∧ n = n' := by
  have hlist := congrArg (fun s => s.toList.reverse) h
  simp only [String.toList_append, String.toList_push, List.reverse_append, List.reverse_cons, List.reverse_nil,
    List.nil_append, List.singleton_append] at hlist
  have hstop : ∀ cs : List Char, ∀ d ∈ (c :: cs).head?, d.isDigit = false := by
    intro cs d hd
    rw [List.head?_cons, Option.mem_def, Option.some.injEq] at hd
    exact hd ▸ hc
  obtain ⟨hnumber, hhead⟩ := append_inj_of_run (fun _ hd => isDigit_of_mem_toString (List.mem_reverse.mp hd))
    (fun _ hd => isDigit_of_mem_toString (List.mem_reverse.mp hd)) (hstop _) (hstop _) hlist
  refine ⟨String.toList_injective (List.reverse_injective (List.cons.inj hhead).2), ?_⟩
  have hdigits := List.reverse_injective hnumber
  rw [Nat.toString_eq_repr, Nat.toString_eq_repr, Nat.toList_repr, Nat.toList_repr] at hdigits
  have hback := congrArg (fun ds => Nat.ofDigitChars 10 ds 0) hdigits
  simpa using hback

end Lib
