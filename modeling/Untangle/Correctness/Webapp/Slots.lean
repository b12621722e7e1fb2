import Untangle.Lib.Locks
import Untangle.Lib.Permits
import Untangle.Webapp.Slots

/-!
# `Correctness.Webapp.Slots` — every slot comes back once

A request holds one slot from its admission on. Its worker, its handler and its middleware can each give the slot back,
and they race for it, but the state of the slot lets exactly one of them do so (`Accounted`). So no more than two
workers run at any time, nothing is ever given back twice, and a request that is over and has no worker running has
given its slot back.
-/

namespace Untangle

open Lib

/-- The request owns a slot. -/
def AdmittedRequest.occupies (r : AdmittedRequest) : Bool := r.slot ≠ .freed

/-- Its worker runs. -/
def AdmittedRequest.works (r : AdmittedRequest) : Bool := r.worker = .running

/-- What holds between the slot of a request, its handler and its worker. -/
structure AdmittedRequest.Consistent (reconcileBytes : UploadBytes → HandlerOutcome) (r : AdmittedRequest) : Prop where
  running : r.slot = .running ↔ r.worker = .running
  ended : r.worker = .finished ∨ r.worker = .declined → r.slot = .freed
  left : r.left = true → r.slot ≠ .held
  absent : r.handler = .handling → r.worker = .absent
  /-- Before the end of its handler, the slot is given back by the worker or by the middleware. -/
  underWay : (∀ outcome, r.handler ≠ .answered outcome) → r.slot = .freed → r.worker = .finished ∨ r.left = true
  answered : ∀ outcome, r.handler = .answered outcome → r.worker ≠ .absent → r.slot ≠ .held
  report : ∀ report, r.handler = .answered (.ok report) → reconcileBytes r.files = .ok report ∨ r.left = true

namespace Reconciliations

variable (D : DecimalDigits) (reconcileBytes : UploadBytes → HandlerOutcome)

/-- The slots are accounted for. -/
structure Accounted (s : Reconciliations) : Prop where
  raised : s.raised = []
  initialValue : s.semaphore.initialValue = reconcileSlots
  balanced : Balanced AdmittedRequest.occupies reconcileSlots s.semaphore.value s.requests
  consistent : ∀ (i : Nat) (r : AdmittedRequest), s.requests[i]? = some r → r.Consistent reconcileBytes

variable {D} {reconcileBytes} {s : Reconciliations} {index : Nat} {r r' : AdmittedRequest}

/-- A request goes on with the slot that it has. -/
theorem Accounted.put (h : Accounted reconcileBytes s) (hr : s.requests[index]? = some r)
    (hsame : r'.occupies = r.occupies) (hr' : r'.Consistent reconcileBytes) :
    Accounted reconcileBytes (s.put index r') where
  raised := h.raised
  initialValue := h.initialValue
  balanced := h.balanced.set hr hsame
  consistent := forall_set h.consistent hr' fun _ _ _ _ hq => hq

/-- A request gives its slot back. -/
theorem Accounted.giveBack (h : Accounted reconcileBytes s) (hr : s.requests[index]? = some r)
    (hold : r.occupies = true) (hnew : r'.occupies = false) (hr' : r'.Consistent reconcileBytes) :
    Accounted reconcileBytes (s.put index r').giveBack := by
  have hvalue : ¬ s.semaphore.initialValue < s.semaphore.value + 1 := by
    have hlt := h.balanced.lt_of_owns hr hold
    rw [h.initialValue]
    omega
  have hrelease : (s.put index r').semaphore.release =
      .ok { s.semaphore with value := s.semaphore.value + 1 } := by
    show BoundedSemaphore.release s.semaphore = _
    rw [BoundedSemaphore.release, if_neg hvalue]
  unfold Reconciliations.giveBack
  rw [hrelease]
  exact ⟨h.raised, h.initialValue, h.balanced.release hr hold hnew, forall_set h.consistent hr' fun _ _ _ _ hq => hq⟩

/-- `release_if_held`, where the request without its slot is as it should be. -/
theorem Accounted.releaseIfHeld (h : Accounted reconcileBytes s) (hr : s.requests[index]? = some r)
    (hslot : r'.slot = r.slot) (hheld : r.slot = .held → AdmittedRequest.Consistent reconcileBytes { r' with slot := .freed })
    (hkept : r.slot ≠ .held → r'.Consistent reconcileBytes) :
    Accounted reconcileBytes (s.releaseIfHeld index r') := by
  unfold Reconciliations.releaseIfHeld
  cases hs : r.slot with
  | held =>
      rw [hslot, hs]
      refine h.giveBack hr ?_ rfl (hheld hs)
      rw [AdmittedRequest.occupies, hs]
      rfl
  | running =>
      rw [hslot, hs]
      refine h.put hr ?_ (hkept (by rw [hs]; decide))
      rw [AdmittedRequest.occupies, AdmittedRequest.occupies, hslot]
  | freed =>
      rw [hslot, hs]
      refine h.put hr ?_ (hkept (by rw [hs]; decide))
      rw [AdmittedRequest.occupies, AdmittedRequest.occupies, hslot]

/-! ## Steps -/

theorem Accounted.refuse (h : Accounted reconcileBytes s) (hr : s.requests[index]? = some r)
    (hhandling : r.handler = .handling) (error : HandlerError) :
    Accounted reconcileBytes (s.put index { r with handler := .answered (.error error) }) := by
  obtain ⟨hrunning, hover, hleft, habsent, hunderWay, _, _⟩ := h.consistent index r hr
  refine h.put hr rfl ⟨hrunning, hover, hleft, by simp, by simp, ?_, by simp⟩
  intro _ _ hworker
  exact absurd (habsent hhandling) hworker

theorem Accounted.offload (h : Accounted reconcileBytes s) (hr : s.requests[index]? = some r)
    (hhandling : r.handler = .handling) :
    Accounted reconcileBytes (s.put index { r with handler := .awaiting, worker := .queued }) := by
  obtain ⟨hrunning, _, hleft, habsent, hunderWay, _, _⟩ := h.consistent index r hr
  have hworker := habsent hhandling
  refine h.put hr rfl ⟨?_, by simp, hleft, by simp, ?_, by simp, by simp⟩
  · simp [hrunning, hworker]
  · intro _ hfreed
    simpa [hworker] using hunderWay (by simp [hhandling]) hfreed

theorem Accounted.start (h : Accounted reconcileBytes s) (hr : s.requests[index]? = some r)
    (hqueued : r.worker = .queued) : Accounted reconcileBytes (s.markRunning index r) := by
  obtain ⟨hrunning, _, hleft, habsent, hunderWay, hanswered, hreport⟩ := h.consistent index r hr
  have hhandler : r.handler ≠ .handling := fun hhandling => by simp [habsent hhandling] at hqueued
  unfold markRunning
  cases hs : r.slot with
  | held =>
      -- Nobody has let go: neither the handler has been interrupted for good nor the middleware has left.
      have hstays : r.left = false := Bool.eq_false_iff.mpr fun hleft' => hleft hleft' hs
      have hgoes : ∀ outcome, r.handler ≠ .answered outcome :=
        fun outcome ho => hanswered outcome ho (by simp [hqueued]) hs
      refine h.put hr (by simp [AdmittedRequest.occupies, hs]) ⟨by simp, by simp, by simp, ?_, by simp, by simp, ?_⟩
      · exact fun hhandling => absurd hhandling hhandler
      · exact fun report ho => absurd ho (hgoes _)
  | running => exact absurd (hrunning.mp hs) (by simp [hqueued])
  | freed =>
      refine h.put hr (by simp [AdmittedRequest.occupies, hs]) ⟨by simp, by simp, by simp, ?_, ?_, by simp, hreport⟩
      · exact fun hhandling => absurd hhandling hhandler
      · intro hgoes _
        have := hunderWay hgoes hs
        simp only [hqueued, reduceCtorEq, false_or] at this
        exact Or.inr this

theorem Accounted.finish (h : Accounted reconcileBytes s) (hr : s.requests[index]? = some r)
    (hworks : r.worker = .running) :
    Accounted reconcileBytes (s.releaseFromWorker index { r with worker := .finished }) := by
  obtain ⟨hrunning, _, _, habsent, _, _, hreport⟩ := h.consistent index r hr
  have hslot := hrunning.mpr hworks
  unfold releaseFromWorker
  simp only [hslot]
  refine h.giveBack hr (by simp [AdmittedRequest.occupies, hslot]) (by simp [AdmittedRequest.occupies])
    ⟨by simp, by simp, by simp, ?_, by simp, by simp, hreport⟩
  exact fun hhandling => by simp [habsent hhandling] at hworks

theorem Accounted.drop (h : Accounted reconcileBytes s) (hr : s.requests[index]? = some r)
    (hqueued : r.worker = .queued) : Accounted reconcileBytes (s.put index { r with worker := .dropped }) := by
  obtain ⟨hrunning, _, hleft, habsent, hunderWay, hanswered, hreport⟩ := h.consistent index r hr
  refine h.put hr rfl ⟨?_, by simp, hleft, ?_, ?_, ?_, hreport⟩
  · simp [hrunning, hqueued]
  · exact fun hhandling => by simp [habsent hhandling] at hqueued
  · intro hgoes hfreed
    have := hunderWay hgoes hfreed
    simp only [hqueued, reduceCtorEq, false_or] at this
    exact Or.inr this
  · exact fun outcome ho _ => hanswered outcome ho (by simp [hqueued])

/-- The result of a worker that is over reaches the handler. -/
theorem Accounted.answer (h : Accounted reconcileBytes s) (hr : s.requests[index]? = some r)
    (hover : r.worker = .finished ∨ r.worker = .declined) {outcome : HandlerOutcome}
    (houtcome : outcome = reconcileBytes r.files ∨ r.left = true) :
    Accounted reconcileBytes (s.put index { r with handler := .answered outcome }) := by
  obtain ⟨hrunning, hfreed, hleft, _, _, _, _⟩ := h.consistent index r hr
  refine h.put hr rfl ⟨hrunning, hfreed, hleft, by simp, by simp, ?_, ?_⟩
  · intro _ _ _
    simp [hfreed hover]
  · intro report hreport
    obtain rfl := HandlerPhase.answered.inj hreport
    exact houtcome.imp Eq.symm id

theorem Accounted.interrupt (h : Accounted reconcileBytes s) (hr : s.requests[index]? = some r)
    (hawaiting : r.handler = .awaiting) (error : HandlerError) :
    Accounted reconcileBytes (s.put index { r with handler := .interrupted error }) := by
  obtain ⟨hrunning, hover, hleft, _, hunderWay, _, _⟩ := h.consistent index r hr
  refine h.put hr rfl ⟨hrunning, hover, hleft, by simp, ?_, by simp, by simp⟩
  exact fun _ hfreed => hunderWay (by simp [hawaiting]) hfreed

theorem Accounted.letGo (h : Accounted reconcileBytes s) (hr : s.requests[index]? = some r) (error : HandlerError) :
    Accounted reconcileBytes (s.releaseIfHeld index { r with handler := .answered (.error error) }) := by
  obtain ⟨hrunning, hover, hleft, _, _, _, _⟩ := h.consistent index r hr
  refine h.releaseIfHeld hr rfl (fun hheld => ?_) (fun hkept => ?_)
  · refine ⟨?_, by simp, by simp, by simp, by simp, by simp, by simp⟩
    simpa [hheld] using hrunning
  · exact ⟨hrunning, hover, hleft, by simp, by simp, fun _ _ _ => hkept, by simp⟩

theorem Accounted.leave (h : Accounted reconcileBytes s) (hr : s.requests[index]? = some r) :
    Accounted reconcileBytes (s.releaseIfHeld index { r with left := true }) := by
  obtain ⟨hrunning, hover, _, habsent, _, hanswered, _⟩ := h.consistent index r hr
  refine h.releaseIfHeld hr rfl (fun hheld => ?_) (fun hkept => ?_)
  · refine ⟨?_, by simp, by simp, habsent, by simp, by simp, by simp⟩
    simpa [hheld] using hrunning
  · exact ⟨hrunning, hover, fun _ => hkept, habsent, by simp, hanswered, by simp⟩

theorem accounted_perform (h : Accounted reconcileBytes s) (hr : s.requests[index]? = some r) (step : RequestStep) :
    Accounted reconcileBytes (s.perform reconcileBytes index r step) := by
  cases step with
  | refuse error =>
      rw [perform]
      split
      · rename_i hhandling
        exact h.refuse hr hhandling error
      · exact h
  | offload scheduled =>
      rw [perform]
      split
      · rename_i hhandling
        cases scheduled with
        | true => exact h.offload hr hhandling
        | false => exact h.refuse hr hhandling .exception
      · exact h
  | start =>
      rw [perform]
      split
      · rename_i hqueued
        exact h.start hr hqueued
      · exact h
  | finish =>
      rw [perform]
      split
      · rename_i hworks
        exact h.finish hr hworks
      · exact h
  | drop =>
      rw [perform]
      split
      · exact h
      · rename_i hqueued _
        exact h.drop hr hqueued
      · exact h
  | answer =>
      rw [perform]
      split
      · rename_i hworker
        exact h.answer hr (Or.inl hworker) (Or.inl rfl)
      · rename_i hhandler hworker
        have hc := h.consistent index r hr
        refine h.answer hr (Or.inr hworker) (Or.inr ?_)
        -- A worker finds the slot given back only after the middleware has left, if the handler still waits.
        have := hc.underWay (by simp [hhandler]) (hc.ended (Or.inr hworker))
        simpa [hworker] using this
      · exact h
  | interrupt timedOut =>
      rw [perform]
      split
      · rename_i hawaiting
        exact h.interrupt hr hawaiting _
      · exact h
  | letGo =>
      rw [perform]
      split
      · exact h.letGo hr _
      · exact h
  | leave =>
      rw [perform]
      split
      · exact h
      · exact h.leave hr

theorem Accounted.arrive (h : Accounted reconcileBytes s) {contentLength : Option String} {files : UploadBytes}
    {s' : Reconciliations} (harrive : s.arrive D contentLength files = .ok s') : Accounted reconcileBytes s' := by
  unfold Reconciliations.arrive BoundedSemaphore.acquire at harrive
  by_cases hlarge : declaredTooLarge D contentLength = true
  · rw [if_pos hlarge] at harrive
    cases harrive
  · rw [if_neg hlarge] at harrive
    by_cases hvalue : s.semaphore.value = 0
    · rw [if_pos hvalue] at harrive
      cases harrive
    · rw [if_neg hvalue] at harrive
      obtain rfl := Except.ok.inj harrive
      exact ⟨h.raised, h.initialValue, h.balanced.acquire hvalue rfl,
        forall_append h.consistent ⟨by simp, by simp, by simp, by simp, by simp, by simp, by simp⟩⟩

theorem accounted_step (h : Accounted reconcileBytes s) (action : AdmissionStep) :
    Accounted reconcileBytes (s.step D reconcileBytes action) := by
  cases action with
  | arrive contentLength files =>
      rw [Reconciliations.step]
      split
      · rename_i s' harrive
        exact h.arrive harrive
      · exact h
  | step index step =>
      rw [Reconciliations.step]
      split
      · exact h
      · rename_i r hr
        exact accounted_perform h hr step

theorem accounted_initial : Accounted reconcileBytes {} where
  raised := rfl
  initialValue := rfl
  balanced := balanced_nil
  consistent := fun _ _ hr => by cases hr

theorem accounted_run (actions : List AdmissionStep) :
    Accounted reconcileBytes (run (step D reconcileBytes) {} actions) :=
  run_keeps (I := Accounted reconcileBytes) (step D reconcileBytes) (fun _ action h => accounted_step h action)
    accounted_initial actions

/-! ## Whole runs -/

/-- What the slots are worth to the server. -/
structure SlotsComeBack (D : DecimalDigits) (reconcileBytes : UploadBytes → HandlerOutcome) (s : Reconciliations) :
    Prop where
  /-- Nothing is given back twice. -/
  raised : s.raised = []
  balance : s.semaphore.value + s.requests.countP AdmittedRequest.occupies = reconcileSlots
  working : s.requests.countP AdmittedRequest.works ≤ reconcileSlots
  /-- A request is turned away for lack of capacity exactly if every slot is occupied. -/
  busy : ∀ contentLength files, declaredTooLarge D contentLength = false →
    (s.arrive D contentLength files = .error (.http 503 "Reconciliation capacity is busy; please try again shortly.") ↔
      s.requests.countP AdmittedRequest.occupies = reconcileSlots)
  freed : ∀ r ∈ s.requests, r.left = true → r.works = false → r.occupies = false
  quiet : (∀ r ∈ s.requests, r.left = true ∧ r.works = false) → s.semaphore.value = reconcileSlots
  /-- As long as its middleware is there to send it, the answer of a request is the report on its own files. -/
  report : ∀ r ∈ s.requests, r.left = false → ∀ report, r.handler = .answered (.ok report) →
    reconcileBytes r.files = .ok report

theorem Accounted.comeBack (h : Accounted reconcileBytes s) : SlotsComeBack D reconcileBytes s := by
  have hfreed : ∀ r ∈ s.requests, r.left = true → r.works = false → r.occupies = false := by
    intro r hr hleft hworks
    obtain ⟨i, hi⟩ := List.mem_iff_getElem?.mp hr
    have hc := h.consistent i r hi
    have hheld := hc.left hleft
    have hrunning : r.slot ≠ .running := fun hs => by simp [AdmittedRequest.works, hc.running.mp hs] at hworks
    cases hs : r.slot with
    | held => exact absurd hs hheld
    | running => exact absurd hs hrunning
    | freed => simp [AdmittedRequest.occupies, hs]
  refine ⟨h.raised, h.balanced, ?_, ?_, hfreed, ?_, ?_⟩
  · refine h.balanced.countP_le fun r hr hworks => ?_
    obtain ⟨i, hi⟩ := List.mem_iff_getElem?.mp hr
    have hslot := (h.consistent i r hi).running.mpr (of_decide_eq_true hworks)
    simp [AdmittedRequest.occupies, hslot]
  · intro contentLength files hlarge
    have hbalance : s.semaphore.value + s.requests.countP AdmittedRequest.occupies = reconcileSlots := h.balanced
    unfold Reconciliations.arrive BoundedSemaphore.acquire
    rw [if_neg (by rw [hlarge]; exact Bool.false_ne_true)]
    by_cases hvalue : s.semaphore.value = 0
    · rw [if_pos hvalue]
      exact iff_of_true rfl (by omega)
    · rw [if_neg hvalue]
      exact iff_of_false (fun hok => by cases hok) (by omega)
  · exact fun hover => h.balanced.eq_capacity fun r hr => hfreed r hr (hover r hr).1 (hover r hr).2
  · intro r hr hleft report hreport
    obtain ⟨i, hi⟩ := List.mem_iff_getElem?.mp hr
    exact ((h.consistent i r hi).report report hreport).resolve_right (by simp [hleft])

/-- **Every slot comes back exactly once**, whichever of a worker, a handler that is cancelled or times out, and the
    middleware wins the race for it. -/
theorem slots_come_back (D : DecimalDigits) (reconcileBytes : UploadBytes → HandlerOutcome)
    (actions : List AdmissionStep) : SlotsComeBack D reconcileBytes (run (step D reconcileBytes) {} actions) :=
  (accounted_run actions).comeBack

end Reconciliations

end Untangle
