import Mathlib.Data.List.Induction

/-!
# `Lib.HashChain` — the last digest of a chain determines the chain

Every entry names the digest of the one before it, the first entry a genesis value that is no digest. `linked_concat`
and `head_concat` say what an entry at the end does. Two chains with the same last digest have the same entries
(`map_eq_of_head_eq`), as far as equal digests say: from the last entry backwards, equal digests give equal entries,
which name equal digests. Nothing is assumed of the digest of a text that neither chain has.
-/

namespace Lib

namespace HashChain

variable {α β δ : Type} (prev digest : α → δ)

/-- Every entry names the digest of the one before it. -/
def Linked : δ → List α → Prop
  | _, [] => True
  | g, a :: entries => prev a = g ∧ Linked (digest a) entries

/-- The digest of the last entry. -/
def head (g : δ) (entries : List α) : δ := (entries.getLast?.map digest).getD g

variable {prev digest}

theorem head_cons (g : δ) (a : α) (entries : List α) : head digest g (a :: entries) = head digest (digest a) entries := by
  unfold head
  cases entries with
  | nil => rfl
  | cons b entries =>
      rw [List.getLast?_cons_cons]
      cases hlast : (b :: entries).getLast? with
      | none => simp at hlast
      | some c => rfl

theorem head_concat (g : δ) (entries : List α) (a : α) : head digest g (entries ++ [a]) = digest a := by
  unfold head
  rw [List.getLast?_concat]
  rfl

/-- **An entry at the end** names the digest of the last one. -/
theorem linked_concat {g : δ} {entries : List α} {a : α} :
    Linked prev digest g (entries ++ [a]) ↔ Linked prev digest g entries ∧ prev a = head digest g entries := by
  induction entries generalizing g with
  | nil => simp [Linked, head]
  | cons b entries ih =>
      rw [List.cons_append, Linked, Linked, ih, head_cons, and_assoc]

/-- What an entry names is the genesis value or the digest of an entry. -/
theorem prev_of_linked {g : δ} {entries : List α} (h : Linked prev digest g entries) {a : α} (ha : a ∈ entries) :
    prev a = g ∨ ∃ b ∈ entries, prev a = digest b := by
  induction entries generalizing g with
  | nil => exact absurd ha List.not_mem_nil
  | cons b entries ih =>
      rcases List.mem_cons.mp ha with rfl | hmem
      · exact Or.inl h.1
      · rcases ih h.2 hmem with hfirst | ⟨c, hc, hprev⟩
        · exact Or.inr ⟨b, List.mem_cons_self, hfirst⟩
        · exact Or.inr ⟨c, List.mem_cons_of_mem b hc, hprev⟩

/-- A chain whose entries and digests are written another way is a chain. -/
theorem Linked.map {β' δ' : Type} {prev' digest' : β' → δ'} {f : α → β'} {code : δ → δ'} {g : δ} {entries : List α}
    (h : Linked prev digest g entries) (hprev : ∀ a, prev' (f a) = code (prev a))
    (hdigest : ∀ a, digest' (f a) = code (digest a)) : Linked prev' digest' (code g) (entries.map f) := by
  induction entries generalizing g with
  | nil => trivial
  | cons a entries ih =>
      refine ⟨?_, ?_⟩
      · rw [hprev, h.1]
      · rw [hdigest]
        exact ih h.2

/-- **The last digest determines the chain.** -/
theorem map_eq_of_head_eq {g : δ} {f : α → β} {entries entries' : List α} (h : Linked prev digest g entries)
    (h' : Linked prev digest g entries') (hhead : head digest g entries = head digest g entries')
    (hgenesis : ∀ a ∈ entries, digest a ≠ g) (hgenesis' : ∀ a ∈ entries', digest a ≠ g)
    (hsame : ∀ a ∈ entries, ∀ b ∈ entries', digest a = digest b → prev a = prev b ∧ f a = f b) :
    entries.map f = entries'.map f := by
  -- from the last entry backwards
  induction entries using List.reverseRecOn generalizing entries' with
  | nil =>
      obtain rfl | ⟨front, b, rfl⟩ := List.eq_nil_or_concat entries'
      · rfl
      · rw [List.concat_eq_append, head_concat] at hhead
        exact absurd hhead.symm (hgenesis' b (by simp))
  | append_singleton entries a ih =>
      obtain rfl | ⟨front, b, rfl⟩ := List.eq_nil_or_concat entries'
      · rw [head_concat] at hhead
        exact absurd hhead (hgenesis a (by simp))
      · rw [List.concat_eq_append] at h' hhead hgenesis' hsame ⊢
        rw [head_concat, head_concat] at hhead
        obtain ⟨hprev, hentry⟩ := hsame a (by simp) b (by simp) hhead
        obtain ⟨hfront, hlast⟩ := linked_concat.mp h
        obtain ⟨hfront', hlast'⟩ := linked_concat.mp h'
        have hheads : head digest g entries = head digest g front := by
          rw [← hlast, hprev, hlast']
        have hentries := ih hfront hfront' hheads (fun c hc => hgenesis c (List.mem_append_left _ hc))
          (fun c hc => hgenesis' c (List.mem_append_left _ hc))
          fun c hc d hd => hsame c (List.mem_append_left _ hc) d (List.mem_append_left _ hd)
        rw [List.map_append, List.map_append, hentries, List.map_singleton, List.map_singleton, hentry]

end HashChain

end Lib
