import Untangle.Engine.Conversions
import Untangle.Lib.Runs

/-!
# `Webapp.Slots` — admission to the reconciliation worker

Model of the admission in `safety_middleware`, of `_ReconciliationSlot` and of `_run_safely_bytes_async` in
`webapp/app.py`, as a machine of the admitted requests. The middleware of a request, its handler on the event loop and
its worker thread go on in any order, among themselves and with those of the other requests. The lock of a slot makes
a step of each of its methods. What `reconcile_bytes` makes of a request's files is a parameter, and so is which
characters are digits.
-/

namespace Untangle

open Lib

/-! ## The semaphore and the slots -/

/-- `"held"`, `"running"` (the worker owns the slot) and `"freed"`. -/
inductive SlotState
  | held
  | running
  | freed
deriving DecidableEq, Repr

def SlotState.name : SlotState → String
  | .held => "held"
  | .running => "running"
  | .freed => "freed"

/-- What giving a slot back raises. -/
inductive SlotError
  /-- `ValueError` of the semaphore. -/
  | releasedTooManyTimes
  /-- `RuntimeError` of `release_from_worker`. -/
  | invalidRelease (state : SlotState)
deriving DecidableEq, Repr

def SlotError.message : SlotError → String
  | .releasedTooManyTimes => "Semaphore released too many times"
  | .invalidRelease state => "invalid reconciliation slot release from state '" ++ state.name ++ "'"

/-- `_RECONCILE_SLOTS`. -/
def reconcileSlots : Nat := 2

/-- `threading.BoundedSemaphore`. -/
structure BoundedSemaphore where
  initialValue : Nat
  value : Nat
deriving DecidableEq, Repr

namespace BoundedSemaphore

/-- `acquire(timeout=0)`. -/
def acquire (s : BoundedSemaphore) : Option BoundedSemaphore :=
  if s.value = 0 then none else some { s with value := s.value - 1 }

def release (s : BoundedSemaphore) : Except SlotError BoundedSemaphore :=
  if s.initialValue < s.value + 1 then .error .releasedTooManyTimes else .ok { s with value := s.value + 1 }

end BoundedSemaphore

/-! ## Requests -/

/-- What a request is answered with instead of a report, or what ends its handler. -/
inductive HandlerError
  | http (status : Nat) (detail : String)
  /-- `asyncio.CancelledError`. -/
  | cancelled
  | exception
deriving DecidableEq, Repr

/-- The three uploaded files. -/
structure UploadBytes where
  bank : List UInt8
  recon : List UInt8
  ledger : List UInt8
deriving DecidableEq

abbrev HandlerOutcome := Except HandlerError Json

/-- The handler on the event loop. -/
inductive HandlerPhase
  /-- Up to the offload: the inner middleware, the parsing of the form, the reading of the uploads. -/
  | handling
  /-- In `await asyncio.wait_for(asyncio.to_thread(worker), …)`. -/
  | awaiting
  /-- The wait has raised `TimeoutError` or `CancelledError`. -/
  | interrupted (error : HandlerError)
  | answered (outcome : HandlerOutcome)

/-- `worker` on a thread of the pool. -/
inductive WorkerPhase
  | absent
  /-- Handed to the pool, before `mark_running`. -/
  | queued
  | running
  /-- `mark_running` has returned false, and the worker `{}`. -/
  | declined
  /-- After `release_from_worker`. -/
  | finished
  /-- The pool has taken it out of its queue. -/
  | dropped
deriving DecidableEq, Repr

/-- A request that has been admitted. -/
structure AdmittedRequest where
  files : UploadBytes
  slot : SlotState := .held
  handler : HandlerPhase := .handling
  worker : WorkerPhase := .absent
  /-- The `finally` of `safety_middleware` is over. -/
  left : Bool := false

/-- The semaphore, the admitted requests, and what giving slots back has raised. -/
structure Reconciliations where
  semaphore : BoundedSemaphore := ⟨reconcileSlots, reconcileSlots⟩
  requests : List AdmittedRequest := []
  raised : List SlotError := []

inductive RequestStep
  /-- The handler, or a middleware before it, ends the request before the offload. -/
  | refuse (error : HandlerError)
  /-- `asyncio.to_thread`, which raises an exception if no thread can be started. -/
  | offload (scheduled : Bool)
  /-- `slot.mark_running()`. -/
  | start
  /-- The end of `worker`, with `slot.release_from_worker()`. -/
  | finish
  /-- The pool has not begun with the worker, and the future is cancelled. -/
  | drop
  /-- The result of the worker reaches the handler. -/
  | answer
  | interrupt (timedOut : Bool)
  /-- `slot.release_if_held()` in the handler. -/
  | letGo
  /-- `slot.release_if_held()` in `safety_middleware`. It can come before the end of a handler that is cancelled. -/
  | leave
deriving DecidableEq, Repr

inductive AdmissionStep
  | arrive (contentLength : Option String) (files : UploadBytes)
  | step (index : Nat) (step : RequestStep)

/-- `_MAX_BYTES`. -/
def maxBytes : Nat := 15 * 1024 * 1024

/-- `_MAX_AGGREGATE_BYTES`, the limit of the three reconciliation paths. -/
def maxAggregateBytes : Nat := 3 * maxBytes + 1024 * 1024

namespace Reconciliations

variable (D : DecimalDigits) (reconcileBytes : UploadBytes → HandlerOutcome)

/-- The declared length is not a number, or out of range. -/
def declaredTooLarge (contentLength : Option String) : Bool :=
  contentLength.any fun text =>
    let declared := (readInt D text).getD (-1)
    declared < 0 || (maxAggregateBytes : ℤ) < declared

/-- The admission of a request to a reconciliation path. -/
def arrive (s : Reconciliations) (contentLength : Option String) (files : UploadBytes) :
    Except HandlerError Reconciliations :=
  if declaredTooLarge D contentLength then .error (.http 413 "Request body is too large.")
  else
    match s.semaphore.acquire with
    | none => .error (.http 503 "Reconciliation capacity is busy; please try again shortly.")
    | some semaphore => .ok { s with semaphore := semaphore, requests := s.requests ++ [{ files := files }] }

/-- The request goes on. -/
def put (s : Reconciliations) (index : Nat) (r : AdmittedRequest) : Reconciliations :=
  { s with requests := s.requests.set index r }

/-- `_RECONCILE_SEMAPHORE.release()`. -/
def giveBack (s : Reconciliations) : Reconciliations :=
  match s.semaphore.release with
  | .ok semaphore => { s with semaphore := semaphore }
  | .error error => { s with raised := s.raised ++ [error] }

/-- `release_if_held`, of a request that goes on as `r`. -/
def releaseIfHeld (s : Reconciliations) (index : Nat) (r : AdmittedRequest) : Reconciliations :=
  match r.slot with
  | .held => (s.put index { r with slot := .freed }).giveBack
  | _ => s.put index r

/-- `release_from_worker`. -/
def releaseFromWorker (s : Reconciliations) (index : Nat) (r : AdmittedRequest) : Reconciliations :=
  match r.slot with
  | .running => (s.put index { r with slot := .freed }).giveBack
  | state => { s.put index r with raised := s.raised ++ [.invalidRelease state] }

/-- `mark_running` in the worker. -/
def markRunning (s : Reconciliations) (index : Nat) (r : AdmittedRequest) : Reconciliations :=
  match r.slot with
  | .held => s.put index { r with slot := .running, worker := .running }
  | _ => s.put index { r with worker := .declined }

/-- What the wait raises, and the handler in place of it. -/
def interruption (timedOut : Bool) : HandlerError :=
  if timedOut then .http 504 "Reconciliation timed out; no result was committed." else .cancelled

/-- A step of a request; one that is not possible does nothing. -/
def perform (s : Reconciliations) (index : Nat) (r : AdmittedRequest) : RequestStep → Reconciliations
  | .refuse error =>
    match r.handler with
    | .handling => s.put index { r with handler := .answered (.error error) }
    | _ => s
  | .offload scheduled =>
    match r.handler with
    | .handling =>
      if scheduled then s.put index { r with handler := .awaiting, worker := .queued }
      else s.put index { r with handler := .answered (.error .exception) }
    | _ => s
  | .start =>
    match r.worker with
    | .queued => s.markRunning index r
    | _ => s
  | .finish =>
    match r.worker with
    | .running => s.releaseFromWorker index { r with worker := .finished }
    | _ => s
  | .drop =>
    match r.handler, r.worker with
    | .awaiting, _ => s
    | _, .queued => s.put index { r with worker := .dropped }
    | _, _ => s
  | .answer =>
    match r.handler, r.worker with
    | .awaiting, .finished => s.put index { r with handler := .answered (reconcileBytes r.files) }
    | .awaiting, .declined => s.put index { r with handler := .answered (.ok (.obj [])) }
    | _, _ => s
  | .interrupt timedOut =>
    match r.handler with
    | .awaiting => s.put index { r with handler := .interrupted (interruption timedOut) }
    | _ => s
  | .letGo =>
    match r.handler with
    | .interrupted error => s.releaseIfHeld index { r with handler := .answered (.error error) }
    | _ => s
  | .leave => if r.left then s else s.releaseIfHeld index { r with left := true }

def step (s : Reconciliations) : AdmissionStep → Reconciliations
  | .arrive contentLength files =>
    match s.arrive D contentLength files with
    | .ok s' => s'
    | .error _ => s
  | .step index step =>
    match s.requests[index]? with
    | none => s
    | some r => s.perform reconcileBytes index r step

end Reconciliations

end Untangle
