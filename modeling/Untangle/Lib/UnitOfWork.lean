import Untangle.Lib.Fallible

/-!
# `Lib.UnitOfWork` — a program that works on a database in a session

A session works on a copy of the database; `commit` makes the copy the database, and `rollback` forgets it. A program of
a session may raise, and what it committed before it raised stays. When it is over the session is closed, which forgets
what is not committed (`close`).

`Triple` says what holds when a program returns and when it raises, if something holds before it, and `Coupled` that it
does the same on two databases that are related. Their rules follow the constructs of a program.
-/

namespace Lib

/-- What a session holds: what is committed, and the copy that it works on. -/
structure Held (σ : Type) where
  committed : σ
  working : σ

/-- A program of a session. -/
def Work (σ ε α : Type) : Type := Held σ → Except ε α × Held σ

namespace Work

variable {σ ε ε' α β : Type}

def bind (m : Work σ ε α) (f : α → Work σ ε β) : Work σ ε β := fun s =>
  match m s with
  | (.ok a, s') => f a s'
  | (.error e, s') => (.error e, s')

instance : Monad (Work σ ε) where
  pure a := fun s => (.ok a, s)
  bind := bind

def raise (e : ε) : Work σ ε α := fun s => (.error e, s)

/-- A computation that does not touch the database. -/
def lift (x : Except ε α) : Work σ ε α := fun s => (x, s)

/-- The copy as it is. -/
def read : Work σ ε σ := fun s => (.ok s.working, s)

/-- A statement on the copy. One that fails leaves it as it is. -/
def execute (f : σ → Except ε (α × σ)) : Work σ ε α := fun s =>
  match f s.working with
  | .ok (a, working) => (.ok a, { s with working := working })
  | .error e => (.error e, s)

def commit : Work σ ε Unit := fun s => (.ok (), { s with committed := s.working })

def rollback : Work σ ε Unit := fun s => (.ok (), { s with working := s.committed })

/-- A step that is taken under a condition. -/
def whenever (c : Prop) [Decidable c] (m : Work σ ε Unit) : Work σ ε Unit := if c then m else pure ()

/-- A handler of what a program raises. -/
def handle (m : Work σ ε α) (handler : ε → Work σ ε α) : Work σ ε α := fun s =>
  match m s with
  | (.ok a, s') => (.ok a, s')
  | (.error e, s') => handler e s'

/-- What a program answers, and what it leaves in the database when its session is closed. -/
def close (m : Work σ ε α) (db : σ) : Except ε α × σ :=
  let outcome := m ⟨db, db⟩
  (outcome.1, outcome.2.committed)

theorem lift_bind {x : Except ε α} {a : α} (h : x = .ok a) (f : α → Work σ ε β) : (Work.lift x >>= f) = f a := by
  rw [h]
  rfl

theorem whenever_bind {c : Prop} [Decidable c] (h : ¬ c) (m : Work σ ε Unit) (f : Unit → Work σ ε β) :
    (Work.whenever c m >>= f) = f () := by
  rw [Work.whenever, if_neg h]
  rfl

theorem whenever_pos {c : Prop} [Decidable c] (h : c) (m : Work σ ε Unit) : Work.whenever c m = m := if_pos h

/-! ## Rules -/

/-- If `P` holds before the program, `Q` holds if it returns and `E` if it raises. -/
def Triple (P : Held σ → Prop) (m : Work σ ε α) (Q : α → Held σ → Prop) (E : ε → Held σ → Prop) : Prop :=
  ∀ s, P s → match m s with
    | (.ok a, s') => Q a s'
    | (.error e, s') => E e s'

variable {P P' : Held σ → Prop} {Q Q' : α → Held σ → Prop} {R : β → Held σ → Prop} {E E' : ε → Held σ → Prop}
  {m : Work σ ε α}

theorem Triple.consequence (h : Triple P' m Q' E') (hpre : ∀ s, P s → P' s) (hpost : ∀ a s, Q' a s → Q a s)
    (herror : ∀ e s, E' e s → E e s) : Triple P m Q E := by
  intro s hs
  have hm := h s (hpre s hs)
  revert hm
  rcases m s with ⟨⟨⟩ | ⟨⟩, s'⟩
  · exact herror _ _
  · exact hpost _ _

/-- A program that does the same where `P` holds. -/
theorem Triple.congr (m' : Work σ ε α) (h : ∀ s, P s → m s = m' s) (hm : Triple P m' Q E) : Triple P m Q E := by
  intro s hs
  rw [h s hs]
  exact hm s hs

theorem Triple.pure {a : α} (h : ∀ s, P s → Q a s) : Triple P (Pure.pure a : Work σ ε α) Q E := fun s hs => h s hs

theorem Triple.bind {f : α → Work σ ε β} (hm : Triple P m Q E) (hf : ∀ a, Triple (Q a) (f a) R E) :
    Triple P (m >>= f) R E := by
  intro s hs
  have hfirst := hm s hs
  show match Work.bind m f s with
    | (.ok b, s') => R b s'
    | (.error e, s') => E e s'
  unfold Work.bind
  revert hfirst
  rcases m s with ⟨⟨⟩ | ⟨⟩, s'⟩
  · exact id
  · exact hf _ _

theorem Triple.raise {e : ε} (h : ∀ s, P s → E e s) : Triple P (Work.raise e : Work σ ε α) Q E := fun s hs => h s hs

theorem Triple.lift {x : Except ε α} (hok : ∀ a, x = .ok a → ∀ s, P s → Q a s)
    (herror : ∀ e, x = .error e → ∀ s, P s → E e s) : Triple P (Work.lift x) Q E := by
  intro s hs
  cases x with
  | error e => exact herror e rfl s hs
  | ok a => exact hok a rfl s hs

theorem Triple.read {Q : σ → Held σ → Prop} (h : ∀ s, P s → Q s.working s) :
    Triple P (Work.read : Work σ ε σ) Q E := fun s hs => h s hs

theorem Triple.execute {f : σ → Except ε (α × σ)}
    (hok : ∀ s a working, P s → f s.working = .ok (a, working) → Q a { s with working := working })
    (herror : ∀ s e, P s → f s.working = .error e → E e s) : Triple P (Work.execute f) Q E := by
  intro s hs
  unfold Work.execute
  cases hf : f s.working with
  | error e => exact herror s e hs hf
  | ok p => exact hok s p.1 p.2 hs hf

theorem Triple.commit {Q : Unit → Held σ → Prop} (h : ∀ s, P s → Q () { s with committed := s.working }) :
    Triple P (Work.commit : Work σ ε Unit) Q E := fun s hs => h s hs

theorem Triple.rollback {Q : Unit → Held σ → Prop} (h : ∀ s, P s → Q () { s with working := s.committed }) :
    Triple P (Work.rollback : Work σ ε Unit) Q E := fun s hs => h s hs

theorem Triple.whenever {c : Prop} [Decidable c] {m : Work σ ε Unit} {Q : Unit → Held σ → Prop}
    (hm : c → Triple P m Q E) (hskip : ¬ c → ∀ s, P s → Q () s) : Triple P (Work.whenever c m) Q E := by
  unfold Work.whenever
  split
  · rename_i h
    exact hm h
  · rename_i h
    exact Triple.pure (hskip h)

theorem Triple.handle (E' : ε → Held σ → Prop) {handler : ε → Work σ ε α} (hm : Triple P m Q E')
    (hhandler : ∀ e, Triple (E' e) (handler e) Q E) : Triple P (Work.handle m handler) Q E := by
  intro s hs
  have hfirst := hm s hs
  unfold Work.handle
  revert hfirst
  rcases m s with ⟨⟨⟩ | ⟨⟩, s'⟩
  · exact hhandler _ _
  · exact id

/-- What a closed program leaves in the database, if that holds however it ends. -/
theorem Triple.close {C : Except ε α → σ → Prop} {db : σ}
    (h : Triple (fun s => s = ⟨db, db⟩) m (fun a s => C (.ok a) s.committed) (fun e s => C (.error e) s.committed)) :
    C (Work.close m db).1 (Work.close m db).2 := by
  have hm := h ⟨db, db⟩ rfl
  unfold Work.close
  revert hm
  rcases m ⟨db, db⟩ with ⟨⟨⟩ | ⟨⟩, s'⟩
  · exact id
  · exact id

/-! ## Two databases -/

/-- On related databases a program answers the same, and leaves related ones. -/
def Coupled (R : σ → σ → Prop) (m : Work σ ε α) : Prop :=
  ∀ s t : Held σ, R s.committed t.committed → R s.working t.working →
    (m s).1 = (m t).1 ∧ R (m s).2.committed (m t).2.committed ∧ R (m s).2.working (m t).2.working

section Coupled

variable {T : σ → σ → Prop}

theorem Coupled.pure (a : α) : Coupled T (Pure.pure a : Work σ ε α) := fun _ _ hc hw => ⟨rfl, hc, hw⟩

theorem Coupled.raise (e : ε) : Coupled T (Work.raise e : Work σ ε α) := fun _ _ hc hw => ⟨rfl, hc, hw⟩

theorem Coupled.lift (x : Except ε α) : Coupled T (Work.lift x) := fun _ _ hc hw => ⟨rfl, hc, hw⟩

theorem Coupled.commit : Coupled T (Work.commit : Work σ ε Unit) := fun _ _ _ hw => ⟨rfl, hw, hw⟩

theorem Coupled.rollback : Coupled T (Work.rollback : Work σ ε Unit) := fun _ _ hc _ => ⟨rfl, hc, hc⟩

theorem Coupled.bind {f : α → Work σ ε β} (hm : Coupled T m) (hf : ∀ a, Coupled T (f a)) : Coupled T (m >>= f) := by
  intro s t hc hw
  obtain ⟨hanswer, hc', hw'⟩ := hm s t hc hw
  show (Work.bind m f s).1 = (Work.bind m f t).1 ∧ T (Work.bind m f s).2.committed (Work.bind m f t).2.committed ∧
    T (Work.bind m f s).2.working (Work.bind m f t).2.working
  unfold Work.bind
  revert hanswer hc' hw'
  rcases m s with ⟨x, s'⟩
  rcases m t with ⟨y, t'⟩
  rintro (rfl : x = y) hc' hw'
  cases x with
  | error e => exact ⟨rfl, hc', hw'⟩
  | ok a => exact hf a s' t' hc' hw'

/-- What is read decides on the rest in the same way. -/
theorem Coupled.read {f : σ → Work σ ε β} (hsame : ∀ s t, T s t → f s = f t) (hf : ∀ s, Coupled T (f s)) :
    Coupled T (Work.read >>= f) := by
  intro s t hc hw
  have h := hf s.working s t hc hw
  show (f s.working s).1 = (f t.working t).1 ∧ T (f s.working s).2.committed (f t.working t).2.committed ∧
    T (f s.working s).2.working (f t.working t).2.working
  rw [← hsame _ _ hw]
  exact h

theorem Coupled.execute {f : σ → Except ε (α × σ)}
    (h : ∀ s t, T s t → (∃ e, f s = .error e ∧ f t = .error e) ∨
      ∃ a s' t', f s = .ok (a, s') ∧ f t = .ok (a, t') ∧ T s' t') : Coupled T (Work.execute f) := by
  intro s t hc hw
  unfold Work.execute
  rcases h s.working t.working hw with ⟨e, hs, ht⟩ | ⟨a, s', t', hs, ht, hw'⟩
  · rw [hs, ht]
    exact ⟨rfl, hc, hw⟩
  · rw [hs, ht]
    exact ⟨rfl, hc, hw'⟩

theorem Coupled.whenever {c : Prop} [Decidable c] {m : Work σ ε Unit} (hm : Coupled T m) :
    Coupled T (Work.whenever c m) := by
  unfold Work.whenever
  split
  · exact hm
  · exact Coupled.pure ()

theorem Coupled.handle {handler : ε → Work σ ε α} (hm : Coupled T m) (hhandler : ∀ e, Coupled T (handler e)) :
    Coupled T (Work.handle m handler) := by
  intro s t hc hw
  obtain ⟨hanswer, hc', hw'⟩ := hm s t hc hw
  unfold Work.handle
  revert hanswer hc' hw'
  rcases m s with ⟨x, s'⟩
  rcases m t with ⟨y, t'⟩
  rintro (rfl : x = y) hc' hw'
  cases x with
  | error e => exact hhandler e s' t' hc' hw'
  | ok a => exact ⟨rfl, hc', hw'⟩

/-- So does a closed program. -/
theorem Coupled.close (h : Coupled T m) {db db' : σ} (hdb : T db db') :
    (Work.close m db).1 = (Work.close m db').1 ∧ T (Work.close m db).2 (Work.close m db').2 := by
  obtain ⟨hanswer, hcommitted, -⟩ := h ⟨db, db⟩ ⟨db', db'⟩ hdb hdb
  exact ⟨hanswer, hcommitted⟩

end Coupled

end Work

end Lib
