import Mathlib.Data.Finset.Card
import Mathlib.Data.List.Sort

/-!
# `Lib.Keyset` — pages of a list that changes

Rows with keys from a linear order are listed page by page, the largest key first: a request names the last row of the
page before, and asks for the rows below it, one more than fit so as to know whether there is a next page. Between two
requests rows may disappear, and rows above the first page may appear.

`Traversal.complete` is what a client relies on: the requests come to an end, the rows come in strictly decreasing
order, and a key that was offered at every request is among them.
-/

namespace Lib

namespace Keyset

variable {α γ κ : Type}

/-! ## Traversals -/

/-- The pages that come of following the cursors from a request on, `answers k cursor rows next` being the answer to
    the request number `k`. -/
inductive Traversal (answers : Nat → Option γ → List α → Option γ → Prop) : Nat → Option γ → List (List α) → Prop
  | last {k : Nat} {cursor : Option γ} {rows : List α} : answers k cursor rows none → Traversal answers k cursor [rows]
  | next {k : Nat} {cursor : Option γ} {rows : List α} {next : γ} {pages : List (List α)} :
      answers k cursor rows (some next) → Traversal answers (k + 1) (some next) pages →
      Traversal answers k cursor (rows :: pages)

/-- Cursors in another form. -/
theorem Traversal.map {γ' : Type} {answers : Nat → Option γ → List α → Option γ → Prop}
    {answers' : Nat → Option γ' → List α → Option γ' → Prop} {e : γ → γ'}
    (h : ∀ k cursor rows next, answers k cursor rows next → answers' k (cursor.map e) rows (next.map e)) {k : Nat}
    {cursor : Option γ} {pages : List (List α)} (ht : Traversal answers k cursor pages) :
    Traversal answers' k (cursor.map e) pages := by
  induction ht with
  | last ha => exact .last (h _ _ _ _ ha)
  | next ha _ ih => exact .next (h _ _ _ _ ha) ih

/-- One traversal at most. -/
theorem Traversal.unique {answers : Nat → Option γ → List α → Option γ → Prop}
    (h : ∀ k cursor rows next rows' next', answers k cursor rows next → answers k cursor rows' next' →
      rows = rows' ∧ next = next') {k : Nat} {cursor : Option γ} {pages pages' : List (List α)}
    (ht : Traversal answers k cursor pages) (ht' : Traversal answers k cursor pages') : pages = pages' := by
  induction ht generalizing pages' with
  | last ha =>
      cases ht' with
      | last ha' => rw [(h _ _ _ _ _ _ ha ha').1]
      | next ha' _ => cases (h _ _ _ _ _ _ ha ha').2
  | next ha _ ih =>
      cases ht' with
      | last ha' => cases (h _ _ _ _ _ _ ha ha').2
      | next ha' ht' =>
          obtain ⟨rfl, hnext⟩ := h _ _ _ _ _ _ ha ha'
          cases hnext
          rw [ih ht']

/-! ## Pages -/

section Page

variable [LinearOrder κ] (key : α → κ)

/-- The row comes after the last row of the page before. -/
def Below (after : Option α) (r : α) : Prop := ∀ a ∈ after, key r < key a

instance (after : Option α) (r : α) : Decidable (Below key after r) :=
  inferInstanceAs (Decidable (∀ a ∈ after, key r < key a))

/-- The rows that are left, the largest key first. -/
def remaining (after : Option α) (rows : List α) : List α :=
  (rows.filter fun r => Below key after r).insertionSort fun a b => key b ≤ key a

/-- A page and its last row, if a row is left after it. -/
def page (limit : Nat) (after : Option α) (rows : List α) : List α × Option α :=
  let found := (remaining key after rows).take (limit + 1)
  if limit < found.length then (found.take limit, (found.take limit).getLast?) else (found, none)

variable {key} {limit : Nat} {after : Option α} {rows found : List α}

theorem mem_remaining {r : α} : r ∈ remaining key after rows ↔ r ∈ rows ∧ Below key after r := by
  unfold remaining
  rw [List.mem_insertionSort, List.mem_filter, decide_eq_true_iff]

theorem pairwise_remaining (h : (rows.map key).Nodup) :
    (remaining key after rows).Pairwise fun a b => key b < key a := by
  have hsorted : (remaining key after rows).Pairwise fun a b => key b ≤ key a := by
    have : Std.Total fun a b : α => key b ≤ key a := ⟨fun a b => le_total (key b) (key a)⟩
    have : IsTrans α fun a b => key b ≤ key a := ⟨fun a b c hab hbc => hbc.trans hab⟩
    exact List.pairwise_insertionSort _ _
  have hdistinct : (remaining key after rows).Pairwise fun a b => key a ≠ key b := by
    have hperm : (remaining key after rows).Perm (rows.filter fun r => Below key after r) :=
      List.perm_insertionSort _ _
    rw [← List.pairwise_map]
    exact (hperm.map key).nodup_iff.mpr (h.sublist (List.filter_sublist.map key))
  refine (hsorted.and hdistinct).imp ?_
  rintro a b ⟨hle, hne⟩
  exact lt_of_le_of_ne hle hne.symm

/-- What a page is to its request. -/
structure Answer (key : α → κ) (after : Option α) (rows found : List α) (next : Option α) : Prop where
  descending : found.Pairwise fun a b => key b < key a
  offered : ∀ r ∈ found, r ∈ rows ∧ Below key after r
  /-- Without a next page nothing is left. -/
  final : next = none → ∀ r ∈ rows, Below key after r → r ∈ found
  /-- The cursor is the last row; nothing before it is left out. -/
  cursor : ∀ a ∈ next, a ∈ found ∧ (∀ r ∈ found, key a ≤ key r) ∧
    ∀ r ∈ rows, Below key after r → key a ≤ key r → r ∈ found

/-- The last row has the least key. -/
theorem le_of_getLast? {rows : List α} (h : rows.Pairwise fun a b => key b < key a) {a : α}
    (ha : rows.getLast? = some a) {r : α} (hr : r ∈ rows) : key a ≤ key r := by
  obtain ⟨before, rfl⟩ := List.getLast?_eq_some_iff.mp ha
  rw [List.pairwise_append] at h
  obtain hr | hr := List.mem_append.mp hr
  · exact (h.2.2 r hr a (List.mem_singleton_self a)).le
  · rw [List.mem_singleton.mp hr]

/-- **The spec of a page.** -/
theorem page_answer (hlimit : 1 ≤ limit) (h : (rows.map key).Nodup) {next : Option α}
    (hpage : page key limit after rows = (found, next)) : Answer key after rows found next := by
  have hdesc : (remaining key after rows).Pairwise fun a b => key b < key a := pairwise_remaining h
  unfold page at hpage
  dsimp only at hpage
  split at hpage
  · rename_i hlt
    rw [List.length_take] at hlt
    have hlong : limit < (remaining key after rows).length := by omega
    rw [List.take_take, min_eq_left (Nat.le_succ limit)] at hpage
    cases hpage
    have hoffered : ∀ r ∈ (remaining key after rows).take limit, r ∈ rows ∧ Below key after r :=
      fun r hr => mem_remaining.mp (List.mem_of_mem_take hr)
    have hsorted := hdesc.sublist (List.take_sublist limit _)
    refine ⟨hsorted, hoffered, ?_, ?_⟩
    · intro hnone
      rw [List.getLast?_eq_none_iff, List.take_eq_nil_iff] at hnone
      obtain hzero | hnil := hnone
      · omega
      · rw [hnil] at hlong
        cases hlong
    · intro a ha
      have hlast : a ∈ (remaining key after rows).take limit := List.mem_of_getLast? ha
      refine ⟨hlast, fun r hr => le_of_getLast? hsorted ha hr, ?_⟩
      intro r hr hbelow hle
      -- a row that is not on the page is listed after all of it
      have hsplit := List.take_append_drop limit (remaining key after rows)
      have hmem : r ∈ (remaining key after rows).take limit ++ (remaining key after rows).drop limit := by
        rw [hsplit]
        exact mem_remaining.mpr ⟨hr, hbelow⟩
      obtain hfound | hdrop := List.mem_append.mp hmem
      · exact hfound
      · rw [← hsplit, List.pairwise_append] at hdesc
        exact absurd (hdesc.2.2 a hlast r hdrop) (not_lt.mpr hle)
  · rename_i hlt
    rw [List.length_take] at hlt
    have hshort : (remaining key after rows).take (limit + 1) = remaining key after rows :=
      List.take_of_length_le (by omega)
    rw [hshort] at hpage
    cases hpage
    exact ⟨hdesc, fun r hr => mem_remaining.mp hr, fun _ r hr hbelow => mem_remaining.mpr ⟨hr, hbelow⟩,
      fun a ha => (by cases ha)⟩

end Page

/-! ## Whole traversals -/

section Complete

variable [LinearOrder κ] (key : α → κ) (limit : Nat) (offered : Nat → List α)

/-- The answers of the pages of a changing list. -/
def Answers (k : Nat) (after : Option α) (found : List α) (next : Option α) : Prop :=
  page key limit after (offered k) = (found, next)

/-- The pages from a request on, as they should be. -/
structure Complete (k : Nat) (after : Option α) (pages : List (List α)) : Prop where
  descending : pages.flatten.Pairwise fun a b => key b < key a
  below : ∀ r ∈ pages.flatten, Below key after r
  /-- A key that every request offers is listed. -/
  listed : ∀ x, (∀ r, key r = x → Below key after r) → (∀ j < pages.length, ∃ r ∈ offered (k + j), key r = x) →
    ∃ r ∈ pages.flatten, key r = x

variable {key limit offered} {top : κ}

theorem complete_last (h : ∀ k, ((offered k).map key).Nodup) (hlimit : 1 ≤ limit) {k : Nat} {after : Option α}
    {found : List α} (hpage : Answers key limit offered k after found none) :
    Complete key offered k after [found] := by
  have hanswer := page_answer hlimit (h k) hpage
  refine ⟨by rw [List.flatten_singleton]; exact hanswer.descending, ?_, ?_⟩
  · intro r hr
    rw [List.flatten_singleton] at hr
    exact (hanswer.offered r hr).2
  · intro x hbelow hoffered
    obtain ⟨r, hr, hx⟩ := hoffered 0 Nat.one_pos
    rw [List.flatten_singleton]
    exact ⟨r, hanswer.final rfl r hr (hbelow r hx), hx⟩

theorem complete_next (h : ∀ k, ((offered k).map key).Nodup) (hlimit : 1 ≤ limit) {k : Nat} {after : Option α}
    {found : List α} {a : α} {pages : List (List α)} (hpage : Answers key limit offered k after found (some a))
    (hrest : Complete key offered (k + 1) (some a) pages) : Complete key offered k after (found :: pages) := by
  have hanswer := page_answer hlimit (h k) hpage
  obtain ⟨hmem, hleast, hcomplete⟩ := hanswer.cursor a rfl
  have hbound := (hanswer.offered a hmem).2
  refine ⟨?_, ?_, ?_⟩
  · rw [List.flatten_cons, List.pairwise_append]
    refine ⟨hanswer.descending, hrest.descending, ?_⟩
    intro r hr r' hr'
    exact (hrest.below r' hr' a rfl).trans_le (hleast r hr)
  · intro r hr
    rw [List.flatten_cons] at hr
    obtain hr | hr := List.mem_append.mp hr
    · exact (hanswer.offered r hr).2
    · intro b hb
      exact (hrest.below r hr a rfl).trans (hbound b hb)
  · intro x hbelow hoffered
    rw [List.flatten_cons]
    obtain ⟨r, hr, hx⟩ := hoffered 0 (Nat.zero_lt_succ _)
    by_cases hle : key a ≤ x
    · exact ⟨r, List.mem_append_left _ (hcomplete r hr (hbelow r hx) (hx ▸ hle)), hx⟩
    · obtain ⟨r', hr', hx'⟩ := hrest.listed x (fun r' hx' b hb => by
        cases hb
        rw [hx']
        exact not_le.mp hle) fun j hj => by
          have hj' := hoffered (j + 1) (Nat.succ_lt_succ hj)
          rwa [Nat.add_comm j 1, ← Nat.add_assoc] at hj'
      exact ⟨r', List.mem_append_right _ hr', hx'⟩

/-- From a cursor on: what is stored below it becomes less with each page. -/
theorem complete_from {stored : Nat → Finset κ} (h : ∀ k, ((offered k).map key).Nodup) (hlimit : 1 ≤ limit)
    (hstored : ∀ k, ∀ r ∈ offered k, key r ∈ stored k)
    (hchange : ∀ k, ∀ x ∈ stored (k + 1), x ∈ stored k ∨ top < x) (n : Nat) :
    ∀ {k : Nat} {a : α}, ((stored k).filter (· < key a)).card ≤ n → key a ≤ top →
      ∃ pages, Traversal (Answers key limit offered) k (some a) pages ∧ Complete key offered k (some a) pages ∧
        ∀ r ∈ pages.flatten, key r ∈ stored k := by
  have hlast : ∀ {k : Nat} {after : Option α} {found : List α}, Answers key limit offered k after found none →
      ∀ r ∈ [found].flatten, key r ∈ stored k := by
    intro k after found hpage r hr
    rw [List.flatten_singleton] at hr
    exact hstored k r ((page_answer hlimit (h k) hpage).offered r hr).1
  induction n with
  | zero =>
      intro k a hcard _
      cases hpage : page key limit (some a) (offered k) with
      | mk found next =>
          cases next with
          | none => exact ⟨[found], .last hpage, complete_last h hlimit hpage, hlast hpage⟩
          | some b =>
              -- there is no row left that a page could hold
              have hanswer := page_answer hlimit (h k) hpage
              obtain ⟨hrow, hbelow⟩ := hanswer.offered b (hanswer.cursor b rfl).1
              have hempty := Finset.card_eq_zero.mp (Nat.le_zero.mp hcard)
              have hmem : key b ∈ (stored k).filter (· < key a) :=
                Finset.mem_filter.mpr ⟨hstored k b hrow, hbelow a rfl⟩
              rw [hempty] at hmem
              exact absurd hmem (Finset.notMem_empty _)
  | succ n ih =>
      intro k a hcard htop
      cases hpage : page key limit (some a) (offered k) with
      | mk found next =>
          cases next with
          | none => exact ⟨[found], .last hpage, complete_last h hlimit hpage, hlast hpage⟩
          | some b =>
              have hanswer := page_answer hlimit (h k) hpage
              obtain ⟨hrow, hbelow⟩ := hanswer.offered b (hanswer.cursor b rfl).1
              have hlt : key b < key a := hbelow a rfl
              have hless : ((stored (k + 1)).filter (· < key b)).card < ((stored k).filter (· < key a)).card := by
                apply Finset.card_lt_card
                rw [Finset.ssubset_iff_of_subset]
                · refine ⟨key b, Finset.mem_filter.mpr ⟨hstored k b hrow, hlt⟩, ?_⟩
                  intro hb
                  exact lt_irrefl _ (Finset.mem_filter.mp hb).2
                · intro x hx
                  obtain ⟨hmem, hxb⟩ := Finset.mem_filter.mp hx
                  refine Finset.mem_filter.mpr ⟨?_, hxb.trans hlt⟩
                  exact (hchange k x hmem).resolve_right fun hnew => lt_asymm hnew ((hxb.trans hlt).trans_le htop)
              obtain ⟨pages, ht, hpages, hkept⟩ := ih (k := k + 1) (a := b) (by omega) (hlt.le.trans htop)
              refine ⟨found :: pages, .next hpage ht, complete_next h hlimit hpage hpages, ?_⟩
              intro r hr
              rw [List.flatten_cons] at hr
              obtain hr | hr := List.mem_append.mp hr
              · exact hstored k r (hanswer.offered r hr).1
              · -- a row below the cursor is not one of the new ones
                have hbelow := (hpages.below r hr b rfl).trans_le (hlt.le.trans htop)
                exact (hchange k _ (hkept r hr)).resolve_right fun hnew => lt_asymm hnew hbelow

/-- **Every row once, in order, and an end to it.** The rows that are added are above the first page; any row may
    disappear, or be offered at some requests and not at others. What is listed was there at the first request. -/
theorem Traversal.complete (stored : Nat → Finset κ) (h : ∀ k, ((offered k).map key).Nodup) (hlimit : 1 ≤ limit)
    (hstored : ∀ k, ∀ r ∈ offered k, key r ∈ stored k)
    (hchange : ∀ newest ∈ (page key limit none (offered 0)).1.head?,
      ∀ k, ∀ x ∈ stored (k + 1), x ∈ stored k ∨ key newest < x) :
    ∃ pages, Traversal (Answers key limit offered) 0 none pages ∧ Complete key offered 0 none pages ∧
      ∀ r ∈ pages.flatten, key r ∈ stored 0 := by
  cases hpage : page key limit none (offered 0) with
  | mk found next =>
      cases next with
      | none =>
          refine ⟨[found], .last hpage, complete_last h hlimit hpage, ?_⟩
          intro r hr
          rw [List.flatten_singleton] at hr
          exact hstored 0 r ((page_answer hlimit (h 0) hpage).offered r hr).1
      | some a =>
          have hanswer := page_answer hlimit (h 0) hpage
          obtain ⟨hmem, hleast, _⟩ := hanswer.cursor a rfl
          obtain ⟨newest, rest, rfl⟩ := List.exists_cons_of_ne_nil (List.ne_nil_of_mem hmem)
          rw [hpage] at hchange
          have hnew := hchange newest rfl
          have htop := hleast newest List.mem_cons_self
          obtain ⟨pages, ht, hpages, hkept⟩ := complete_from h hlimit hstored hnew
            ((stored 1).filter (· < key a)).card (k := 1) (a := a) le_rfl htop
          refine ⟨(newest :: rest) :: pages, .next hpage ht, complete_next h hlimit hpage hpages, ?_⟩
          intro r hr
          rw [List.flatten_cons] at hr
          obtain hr | hr := List.mem_append.mp hr
          · exact hstored 0 r (hanswer.offered r hr).1
          · have hbelow := (hpages.below r hr a rfl).trans_le htop
            exact (hnew 0 _ (hkept r hr)).resolve_right fun h => lt_asymm h hbelow

end Complete

end Keyset

end Lib
