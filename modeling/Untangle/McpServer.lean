import Mathlib.Logic.Function.Basic
import Mathlib.Order.Lattice
import Untangle.Engine.Certificate
import Untangle.Lib.Lru
import Untangle.Lib.Runs

/-!
# `McpServer` — the tools that read files

Model of the sandbox, the snapshots and the caches of `mcp_server.py`, with `read_input_snapshot` of
`engine/service.py`. The calls of tools run side by side. What the operating system answers is up to it: where a path
leads, and what is read of a file, which may be written meanwhile. What a report, or the journal entries, are made of
the bytes is a parameter, and so are the digest and the demo dataset.
-/

namespace Untangle

open Lib

/-- The bytes of a file. -/
abbrev Content := List UInt8


/-- What a tool answers of an exception. -/
structure ToolError where
  errorType : String
  error : String
deriving DecidableEq, Repr

/-! ## The sandbox -/

/-- A path as `os.path.realpath` answers it. -/
structure RealPath where
  components : List (List Char)
  normal : ∀ c ∈ components, c ≠ [] ∧ c ≠ ['.'] ∧ '/' ∉ c

def RealPath.text (path : RealPath) : List Char := '/' :: ['/'].intercalate path.components

def pathComponents (text : List Char) : List (List Char) := (text.splitOn '/').filter fun c => c ≠ [] ∧ c ≠ ['.']

def commonPrefix : List (List Char) → List (List Char) → List (List Char)
  | c :: s1, c' :: s2 => if c = c' then c :: commonPrefix s1 s2 else []
  | _, _ => []

/-- `os.path.commonpath`, of two paths. -/
def commonpath (a b : List Char) : Except ToolError (List Char) :=
  if a.head? = some '/' ↔ b.head? = some '/' then
    let s1 := min (pathComponents a) (pathComponents b)
    let s2 := max (pathComponents a) (pathComponents b)
    let root := if a.head? = some '/' then ['/'] else []
    .ok (root ++ ['/'].intercalate (commonPrefix s1 s2))
  else .error ⟨"ValueError", "Can't mix absolute and relative paths"⟩

structure McpSandbox where
  sandboxed : Bool
  dataDir : RealPath

namespace McpSandbox

def outside : ToolError where
  errorType := "ValueError"
  error := "path is outside the allowed data directory — the remote MCP is sandboxed to the bundled " ++
    "demo dataset; upload your own files through the web app instead."

/-- `_safe_path`. -/
def safePath (sandbox : McpSandbox) (realpath : String → RealPath) (p : String) : Except ToolError String :=
  if !sandbox.sandboxed then .ok p
  else
    let rp := realpath p
    match commonpath rp.text sandbox.dataDir.text with
    | .error error => .error error
    | .ok common => if common ≠ sandbox.dataDir.text then .error outside else .ok (String.ofList rp.text)

end McpSandbox

/-! ## Snapshots -/

/-- What the operating system answers to the calls of a reader. -/
inductive ReadReply
  | opened (regular : Bool)
  /-- `FileNotFoundError`. -/
  | notFound
  /-- Another `OSError`, or a `ValueError`. -/
  | failed
  | chunk (bytes : Content)
deriving DecidableEq, Repr

def maxInputBytes : Nat := 15 * 1024 * 1024

def snapshotChunkBytes : Nat := 64 * 1024

/-- An input of `_snapshot_inputs`. -/
structure McpInput where
  path : String
  label : String
  option : String
deriving DecidableEq, Repr

namespace McpInput

variable (input : McpInput)

def notRegular : ToolError := ⟨"InputError", input.label ++ " is not a regular file: " ++ input.path ++ "."⟩

def tooLarge (total : Nat) : ToolError :=
  ⟨"InputError", input.label ++ " is too large (" ++ groupedNat total ++ " bytes read); maximum supported size is " ++
    groupedNat maxInputBytes ++ " bytes."⟩

def notFound : ToolError :=
  ⟨"InputError", input.label ++ " not found: " ++ input.path ++ ". Check the " ++ input.option ++ " path."⟩

def notRead : ToolError :=
  ⟨"InputError", input.label ++ " could not be read: " ++ input.path ++ ". Check permissions and file accessibility."⟩

/-- The loop of `read_input_snapshot`, with the replies that are left. A reply that the system cannot give, or none,
    brings it to no end. -/
def readChunks (chunks : List Content) (total : Nat) : List ReadReply → Option (Except ToolError Content × List ReadReply)
  | .chunk piece :: replies =>
    if piece.length ≤ min snapshotChunkBytes (maxInputBytes + 1 - total) then
      if piece = [] then some (.ok chunks.flatten, replies)
      else if total + piece.length > maxInputBytes then some (.error (input.tooLarge (total + piece.length)), replies)
      else readChunks (chunks ++ [piece]) (total + piece.length) replies
    else none
  | .failed :: replies => some (.error input.notRead, replies)
  | _ => none

/-- `read_input_snapshot`. -/
def readInputSnapshot : List ReadReply → Option (Except ToolError Content × List ReadReply)
  | .opened true :: replies => input.readChunks [] 0 replies
  | .opened false :: replies => some (.error input.notRegular, replies)
  | .notFound :: replies => some (.error input.notFound, replies)
  | .failed :: replies => some (.error input.notRead, replies)
  | _ => none

end McpInput

/-- The contents that `_snapshot_inputs` reads. -/
def snapshotInputs : List McpInput → List ReadReply → Option (Except ToolError (List Content))
  | [], _ => some (.ok [])
  | input :: inputs, replies =>
    match input.readInputSnapshot replies with
    | none => none
    | some (.error error, _) => some (.error error)
    | some (.ok content, replies) => (snapshotInputs inputs replies).map fun contents => contents.map (content :: ·)

/-! ## Calls -/

inductive McpCache
  | reports
  | journals
deriving DecidableEq, Repr

/-- A call of a tool, with where the paths lead at the time. -/
inductive McpRequest
  /-- `_get_report`, and `reconcile_files`. -/
  | report (bankPath reconPath ledgerPath : String) (realpath : String → RealPath)
  /-- `_get_journal_entries`. -/
  | journal (bankPath reconPath : String) (realpath : String → RealPath)
  /-- `_demo_report`. -/
  | demo

def McpRequest.cache : McpRequest → McpCache
  | .report .. | .demo => .reports
  | .journal .. => .journals

/-- What is read, on paths that are safe. -/
def McpRequest.inputs (sandbox : McpSandbox) : McpRequest → Except ToolError (List McpInput)
  | .report bankPath reconPath ledgerPath realpath => do
    let bankPath ← sandbox.safePath realpath bankPath
    let reconPath ← sandbox.safePath realpath reconPath
    let ledgerPath ← sandbox.safePath realpath ledgerPath
    return [⟨bankPath, "Bank statement", "--bank"⟩, ⟨reconPath, "Recon report", "--recon"⟩,
      ⟨ledgerPath, "Order ledger", "--ledger"⟩]
  | .journal bankPath reconPath realpath => do
    let bankPath ← sandbox.safePath realpath bankPath
    let reconPath ← sandbox.safePath realpath reconPath
    return [⟨bankPath, "Bank statement", "--bank"⟩, ⟨reconPath, "Recon report", "--recon"⟩]
  | .demo => .ok []

inductive ToolPhase (ν : Type)
  | reading
  | lookingUp (snapshots : List Content)
  | computing (snapshots : List Content)
  | storing (snapshots : List Content) (value : ν)
  | answered (answer : Except ToolError ν)

structure ToolCall (ν : McpCache → Type) where
  request : McpRequest
  replies : List ReadReply := []
  phase : ToolPhase (ν request.cache)

/-- `_REPORT_CACHE` and `_JOURNAL_CACHE`, and the calls. -/
structure McpServer (ν : McpCache → Type) where
  caches : (cache : McpCache) → Lru (List String) (ν cache) := fun _ => {}
  calls : List (ToolCall ν) := []

inductive McpAction
  | call (request : McpRequest)
  /-- The call reads its inputs, and the system answers so. -/
  | read (index : Nat) (replies : List ReadReply)
  | lookUp (index : Nat)
  | compute (index : Nat)
  | store (index : Nat)

/-- `_CACHE_MAX_ENTRIES`. -/
def cacheMaxEntries : Nat := 16

namespace McpServer

variable {ν : McpCache → Type}

def put (s : McpServer ν) (index : Nat) (call : ToolCall ν) : McpServer ν :=
  { s with calls := s.calls.set index call }

def setCache (s : McpServer ν) (cache : McpCache) (c : Lru (List String) (ν cache)) : McpServer ν :=
  { s with caches := Function.update s.caches cache c }

variable (sandbox : McpSandbox) (sha256 : Content → String)
  (compute : (cache : McpCache) → List Content → Except ToolError (ν cache))
  (demoSnapshots : Except ToolError (List Content))

/-- What is in the inputs of a call, when the system answers so. -/
def contentsOf (request : McpRequest) (replies : List ReadReply) : Option (Except ToolError (List Content)) :=
  match request with
  | .demo => some demoSnapshots
  | _ =>
    match request.inputs sandbox with
    | .error error => some (.error error)
    | .ok inputs => snapshotInputs inputs replies

/-- The step of a call that is where the action is for. -/
def perform (s : McpServer ν) (index : Nat) (call : ToolCall ν) : McpAction → McpServer ν
  | .read _ replies =>
    match call.phase, contentsOf sandbox demoSnapshots call.request replies with
    | .reading, some (.ok snapshots) =>
      s.put index { call with replies := replies, phase := .lookingUp snapshots }
    | .reading, some (.error error) =>
      s.put index { call with replies := replies, phase := .answered (.error error) }
    | _, _ => s
  | .lookUp _ =>
    match call.phase with
    | .lookingUp snapshots =>
      -- `_cache_get` holds the lock.
      match (s.caches call.request.cache).get (snapshots.map sha256) with
      | (some value, cache) =>
        (s.setCache call.request.cache cache).put index { call with phase := .answered (.ok value) }
      | (none, _) => s.put index { call with phase := .computing snapshots }
    | _ => s
  | .compute _ =>
    match call.phase with
    | .computing snapshots =>
      match compute call.request.cache snapshots with
      | .ok value => s.put index { call with phase := .storing snapshots value }
      | .error error => s.put index { call with phase := .answered (.error error) }
    | _ => s
  | .store _ =>
    match call.phase with
    | .storing snapshots value =>
      -- So does `_cache_put`.
      let cache := (s.caches call.request.cache).put cacheMaxEntries (snapshots.map sha256) value
      (s.setCache call.request.cache cache).put index { call with phase := .answered (.ok value) }
    | _ => s
  | .call _ => s

/-- A step. An action that is not possible changes nothing. -/
def step (s : McpServer ν) (action : McpAction) : McpServer ν :=
  match action with
  | .call request => { s with calls := s.calls ++ [⟨request, [], .reading⟩] }
  | .read index _ | .lookUp index | .compute index | .store index =>
    match s.calls[index]? with
    | some call => s.perform sandbox sha256 compute demoSnapshots index call action
    | none => s

end McpServer

end Untangle
