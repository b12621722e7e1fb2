import Mathlib.Data.List.Perm.Basic

/-!
# `Lib.Fallible` — a fallible step over every element of a list

A sequence of two steps succeeds exactly if both do (`bind_eq_ok`), and a traversal exactly if the step succeeds on
every element (`mapM_eq_ok`, `forM_eq_ok`). Whether it does depends on the elements alone, not on their order, and
reordering them reorders the answers (`mapM_perm`).
-/

namespace Lib

section Steps

variable {α β ε ε' : Type}

theorem bind_eq_ok {x : Except ε α} {f : α → Except ε β} {b : β} :
    (x >>= f) = .ok b ↔ ∃ a, x = .ok a ∧ f a = .ok b := by
  cases x with
  | error e =>
      constructor
      · intro h
        cases h
      · rintro ⟨a, h, _⟩
        cases h
  | ok a =>
      constructor
      · intro h
        exact ⟨a, rfl, h⟩
      · rintro ⟨a', h, hf⟩
        cases h
        exact hf

/-- A check before the rest: it passes. -/
theorem bind_unit_eq_ok {x : Except ε Unit} {f : Unit → Except ε β} {b : β} :
    (x >>= f) = .ok b ↔ x = .ok () ∧ f () = .ok b := by
  rw [bind_eq_ok]
  exact ⟨fun ⟨(), h⟩ => h, fun h => ⟨(), h⟩⟩

theorem bind_eq_error {x : Except ε α} {f : α → Except ε β} {e : ε} :
    (x >>= f) = .error e ↔ x = .error e ∨ ∃ a, x = .ok a ∧ f a = .error e := by
  cases x with
  | error e' =>
      constructor
      · intro h
        exact Or.inl (congrArg Except.error (Except.error.inj h))
      · rintro (h | ⟨a, h, _⟩)
        · exact congrArg Except.error (Except.error.inj h)
        · cases h
  | ok a =>
      constructor
      · intro h
        exact Or.inr ⟨a, rfl, h⟩
      · rintro (h | ⟨a', h, hf⟩)
        · cases h
        · cases h
          exact hf

theorem mapError_eq_error {x : Except ε α} {g : ε → ε'} {e : ε'} :
    x.mapError g = .error e ↔ ∃ e', x = .error e' ∧ g e' = e := by
  cases x with
  | error e' =>
      constructor
      · intro h
        exact ⟨e', rfl, Except.error.inj h⟩
      · rintro ⟨e'', h, rfl⟩
        cases h
        rfl
  | ok a =>
      constructor
      · intro h
        cases h
      · rintro ⟨e', h, _⟩
        cases h

theorem mapError_eq_ok {x : Except ε α} {g : ε → ε'} {a : α} : x.mapError g = .ok a ↔ x = .ok a := by
  cases x with
  | error e =>
      constructor
      · intro h
        cases h
      · intro h
        cases h
  | ok a' =>
      constructor
      · intro h
        cases h
        rfl
      · intro h
        cases h
        rfl

theorem map_eq_ok {x : Except ε α} {g : α → β} {b : β} : x.map g = .ok b ↔ ∃ a, x = .ok a ∧ g a = b := by
  cases x with
  | error e =>
      constructor
      · intro h
        cases h
      · rintro ⟨a, h, _⟩
        cases h
  | ok a =>
      constructor
      · intro h
        cases h
        exact ⟨a, rfl, rfl⟩
      · rintro ⟨a', h, rfl⟩
        cases h
        rfl

theorem map_eq_error {x : Except ε α} {g : α → β} {e : ε} : x.map g = .error e ↔ x = .error e := by
  cases x with
  | error e' =>
      constructor
      · intro h
        exact congrArg Except.error (Except.error.inj h)
      · rintro ⟨⟩
        rfl
  | ok a =>
      constructor
      · intro h
        cases h
      · intro h
        cases h

/-- What a computation raises is of a kind. -/
def Raises (K : ε → Prop) (x : Except ε α) : Prop := ∀ e, x = .error e → K e

theorem raises_ok {K : ε → Prop} {a : α} : Raises K (.ok a) := nofun

theorem raises_error {K : ε → Prop} {e : ε} (h : K e) : Raises K (.error e : Except ε α) := by
  intro e' he'
  cases he'
  exact h

theorem raises_bind {K : ε → Prop} {x : Except ε α} {f : α → Except ε β} (hx : Raises K x)
    (hf : ∀ a, Raises K (f a)) : Raises K (x >>= f) := by
  intro e he
  rcases bind_eq_error.mp he with he | ⟨a, _, he⟩
  · exact hx e he
  · exact hf a e he

theorem raises_mapError {K : ε' → Prop} {x : Except ε α} {g : ε → ε'} (h : ∀ e, K (g e)) :
    Raises K (x.mapError g) := by
  intro e he
  obtain ⟨e', _, rfl⟩ := mapError_eq_error.mp he
  exact h e'

/-- What a computation answers satisfies `P`, if it answers. -/
def Answers (P : α → Prop) (x : Except ε α) : Prop := ∀ a, x = .ok a → P a

theorem answers_ok {P : α → Prop} {a : α} (h : P a) : Answers P (.ok a : Except ε α) := by
  intro a' ha'
  cases ha'
  exact h

theorem answers_error {P : α → Prop} {e : ε} : Answers P (.error e : Except ε α) := nofun

theorem answers_bind {P : α → Prop} {Q : β → Prop} {x : Except ε α} {f : α → Except ε β} (hx : Answers P x)
    (hf : ∀ a, P a → Answers Q (f a)) : Answers Q (x >>= f) := by
  intro b hb
  obtain ⟨a, ha, hb⟩ := bind_eq_ok.mp hb
  exact hf a (hx a ha) b hb

theorem answers_map {P : α → Prop} {Q : β → Prop} {x : Except ε α} {g : α → β} (hx : Answers P x)
    (hg : ∀ a, P a → Q (g a)) : Answers Q (x.map g) := by
  intro b hb
  obtain ⟨a, ha, rfl⟩ := map_eq_ok.mp hb
  exact hg a (hx a ha)

/-- A computation that only raises. -/
theorem answers_throw {Q : β → Prop} {e : ε} (f : α → Except ε β) : Answers Q ((throw e : Except ε α) >>= f) := nofun

/-- The computation comes to an end without raising. -/
def Returns (x : Except ε α) : Prop := ∃ a, x = .ok a

theorem returns_ok {a : α} : Returns (.ok a : Except ε α) := ⟨a, rfl⟩

theorem not_returns_error {e : ε} : ¬ Returns (.error e : Except ε α) := by
  rintro ⟨a, h⟩
  cases h

theorem returns_map {x : Except ε α} {g : α → β} : Returns (x.map g) ↔ Returns x := by
  cases x with
  | error e => exact iff_of_false not_returns_error not_returns_error
  | ok a => exact iff_of_true returns_ok returns_ok

theorem returns_bind {x : Except ε α} {f : α → Except ε β} :
    Returns (x >>= f) ↔ ∃ a, x = .ok a ∧ Returns (f a) := by
  constructor
  · rintro ⟨b, h⟩
    obtain ⟨a, ha, hb⟩ := bind_eq_ok.mp h
    exact ⟨a, ha, b, hb⟩
  · rintro ⟨a, ha, b, hb⟩
    exact ⟨b, bind_eq_ok.mpr ⟨a, ha, hb⟩⟩

theorem returns_bind_pure {x : Except ε α} {g : α → β} : Returns (x >>= fun a => pure (g a)) ↔ Returns x := by
  rw [returns_bind]
  exact exists_congr fun a => and_iff_left returns_ok

/-- Where it does not depend on the answer whether the rest returns. -/
theorem returns_bind_iff {x : Except ε α} {f : α → Except ε β} {P : Prop} (h : ∀ a, Returns (f a) ↔ P) :
    Returns (x >>= f) ↔ Returns x ∧ P := by
  rw [returns_bind]
  constructor
  · rintro ⟨a, ha, hf⟩
    exact ⟨⟨a, ha⟩, (h a).mp hf⟩
  · rintro ⟨⟨a, ha⟩, hP⟩
    exact ⟨a, ha, (h a).mpr hP⟩

/-- A check of every element passes exactly if each passes. -/
theorem forM_eq_ok {f : α → Except ε Unit} {l : List α} : l.forM f = .ok () ↔ ∀ a ∈ l, f a = .ok () := by
  induction l with
  | nil => exact ⟨fun _ a ha => absurd ha List.not_mem_nil, fun _ => rfl⟩
  | cons a l ih =>
      rw [List.forM_eq_forM, List.forM_cons, bind_unit_eq_ok, ← List.forM_eq_forM, ih, List.forall_mem_cons]

end Steps

/-! ## Checks -/

/-- A check that refuses. -/
def refuseIf {ε : Type} (c : Prop) [Decidable c] (e : ε) : Except ε Unit := if c then .error e else .ok ()

theorem refuseIf_eq_ok {ε : Type} {c : Prop} [Decidable c] {e : ε} : refuseIf c e = .ok () ↔ ¬ c := by
  unfold refuseIf
  split
  · rename_i h
    exact iff_of_false nofun fun hnot => hnot h
  · rename_i h
    exact iff_of_true rfl h

theorem raises_refuseIf {ε : Type} {K : ε → Prop} {c : Prop} [Decidable c] {e : ε} (h : K e) :
    Raises K (refuseIf c e) := by
  unfold refuseIf
  split
  · exact raises_error h
  · exact raises_ok

variable {α β γ ε : Type} {f : α → Except ε β}

theorem mapM_eq_ok {l : List α} {bs : List β} : l.mapM f = .ok bs ↔ List.Forall₂ (fun a b => f a = .ok b) l bs := by
  induction l generalizing bs with
  | nil =>
      rw [List.forall₂_nil_left_iff, List.mapM_nil]
      constructor
      · intro h
        cases h
        rfl
      · rintro rfl
        rfl
  | cons a l ih =>
      rw [List.mapM_cons, List.forall₂_cons_left_iff]
      constructor
      · intro h
        cases hhead : f a with
        | error e =>
            rw [hhead] at h
            cases h
        | ok b =>
            rw [hhead] at h
            cases htail : l.mapM f with
            | error e =>
                rw [show l.mapM f = .error e from htail] at h
                cases h
            | ok rest =>
                rw [show l.mapM f = .ok rest from htail] at h
                cases h
                exact ⟨b, rest, rfl, ih.mp htail, rfl⟩
      · rintro ⟨b, rest, hhead, htail, rfl⟩
        rw [hhead, ih.mpr htail]
        rfl

/-- A traversal raises what the step raises. -/
theorem raises_mapM {K : ε → Prop} {l : List α} (h : ∀ a ∈ l, Raises K (f a)) : Raises K (l.mapM f) := by
  induction l with
  | nil =>
      rw [List.mapM_nil]
      exact raises_ok
  | cons a l ih =>
      rw [List.mapM_cons]
      apply raises_bind (h a List.mem_cons_self)
      intro b
      apply raises_bind (ih fun a' ha' => h a' (List.mem_cons_of_mem a ha'))
      intro bs
      exact raises_ok

theorem mapM_eq_ok_map {g : α → β} {l : List α} (h : ∀ a ∈ l, f a = .ok (g a)) : l.mapM f = .ok (l.map g) :=
  mapM_eq_ok.mpr (List.forall₂_map_right_iff.mpr (List.forall₂_same.mpr h))

theorem forall_ok_of_mapM {l : List α} {bs : List β} (h : l.mapM f = .ok bs) : ∀ a ∈ l, ∃ b, f a = .ok b := by
  have hsteps := mapM_eq_ok.mp h
  intro a ha
  obtain ⟨i, hi, rfl⟩ := List.getElem_of_mem ha
  exact ⟨_, (List.forall₂_iff_get.mp hsteps).2 i hi (hsteps.length_eq ▸ hi)⟩

/-- Every answer is the answer for an element. -/
theorem exists_of_mem_mapM {l : List α} {bs : List β} (h : l.mapM f = .ok bs) {b : β} (hb : b ∈ bs) :
    ∃ a ∈ l, f a = .ok b := by
  have hsteps := mapM_eq_ok.mp h
  obtain ⟨i, hi, rfl⟩ := List.getElem_of_mem hb
  have hlt : i < l.length := hsteps.length_eq ▸ hi
  exact ⟨_, List.getElem_mem hlt, (List.forall₂_iff_get.mp hsteps).2 i hlt hi⟩

/-- The step succeeds on every element, with answers of a kind. -/
theorem exists_mapM_eq_ok {P : β → Prop} {l : List α} (h : ∀ a ∈ l, ∃ b, f a = .ok b ∧ P b) :
    ∃ bs, l.mapM f = .ok bs ∧ ∀ b ∈ bs, P b := by
  induction l with
  | nil => exact ⟨[], rfl, fun b hb => absurd hb List.not_mem_nil⟩
  | cons a l ih =>
      obtain ⟨b, hb, hPb⟩ := h a List.mem_cons_self
      obtain ⟨bs, hbs, hPbs⟩ := ih fun a' ha' => h a' (List.mem_cons_of_mem a ha')
      refine ⟨b :: bs, ?_, List.forall_mem_cons.mpr ⟨hPb, hPbs⟩⟩
      rw [List.mapM_cons, hb, show l.mapM f = .ok bs from hbs]
      rfl

theorem exists_bind_ok {x : Except ε α} {f : α → Except ε β} (hx : ∃ a, x = .ok a)
    (hf : ∀ a, x = .ok a → ∃ b, f a = .ok b) : ∃ b, (x >>= f) = .ok b := by
  obtain ⟨a, ha⟩ := hx
  obtain ⟨b, hb⟩ := hf a ha
  exact ⟨b, bind_eq_ok.mpr ⟨a, ha, hb⟩⟩

theorem exists_mapM_ok {l : List α} (h : ∀ a ∈ l, ∃ b, f a = .ok b) : ∃ bs, l.mapM f = .ok bs := by
  obtain ⟨bs, hbs, _⟩ := exists_mapM_eq_ok (P := fun _ => True) fun a ha =>
    (h a ha).imp fun _ hb => ⟨hb, trivial⟩
  exact ⟨bs, hbs⟩

theorem returns_mapM {l : List α} : Returns (l.mapM f) ↔ ∀ a ∈ l, Returns (f a) := by
  constructor
  · rintro ⟨bs, h⟩
    exact forall_ok_of_mapM h
  · exact exists_mapM_ok

/-- Every element has its answer. -/
theorem exists_mem_of_mapM {l : List α} {bs : List β} (h : l.mapM f = .ok bs) {a : α} (ha : a ∈ l) :
    ∃ b ∈ bs, f a = .ok b := by
  have hsteps := mapM_eq_ok.mp h
  obtain ⟨i, hi, rfl⟩ := List.getElem_of_mem ha
  have hlt : i < bs.length := hsteps.length_eq ▸ hi
  exact ⟨_, List.getElem_mem hlt, (List.forall₂_iff_get.mp hsteps).2 i hi hlt⟩

/-- **The answers come in the order of the elements.** -/
theorem mapM_perm {key : γ → α} {g : γ → β} {l : List α} {cs : List γ} (hperm : l.Perm (cs.map key))
    (h : ∀ c ∈ cs, f (key c) = .ok (g c)) : ∃ bs, l.mapM f = .ok bs ∧ bs.Perm (cs.map g) := by
  have hsteps : List.Forall₂ (fun a b => f a = .ok b) (cs.map key) (cs.map g) :=
    List.forall₂_map_left_iff.mpr (List.forall₂_map_right_iff.mpr (List.forall₂_same.mpr h))
  obtain ⟨bs, hbs, hback⟩ := List.perm_comp_forall₂ hperm hsteps
  exact ⟨bs, mapM_eq_ok.mpr hbs, hback⟩

theorem mapM_eq_some {g : α → Option β} {l : List α} {bs : List β} :
    l.mapM g = some bs ↔ List.Forall₂ (fun a b => g a = some b) l bs := by
  induction l generalizing bs with
  | nil =>
      rw [List.forall₂_nil_left_iff, List.mapM_nil, Option.pure_def, Option.some.injEq]
      exact eq_comm
  | cons a l ih =>
      rw [List.mapM_cons, List.forall₂_cons_left_iff]
      simp only [Option.bind_eq_bind, Option.bind_eq_some_iff, Option.pure_def, Option.some.injEq]
      constructor
      · rintro ⟨b, hhead, rest, htail, rfl⟩
        exact ⟨b, rest, hhead, ih.mp htail, rfl⟩
      · rintro ⟨b, rest, hhead, htail, rfl⟩
        exact ⟨b, hhead, rest, ih.mpr htail, rfl⟩

/-- Every element has its answer, so the list has. -/
theorem exists_forall₂ {R : α → β → Prop} {l : List α} (h : ∀ a ∈ l, ∃ b, R a b) : ∃ bs, List.Forall₂ R l bs := by
  induction l with
  | nil => exact ⟨[], .nil⟩
  | cons a l ih =>
      obtain ⟨b, hb⟩ := h a List.mem_cons_self
      obtain ⟨bs, hbs⟩ := ih fun a' ha' => h a' (List.mem_cons_of_mem a ha')
      exact ⟨b :: bs, .cons hb hbs⟩

end Lib
