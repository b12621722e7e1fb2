import Untangle.Engine.Packs
import Untangle.Lib.Json

/-!
# `Engine.Provenance` — the registry of evidence packs, and hashes

The identity half of `engine/packs.py`: what a report says about the pack it was made with, and how that is checked
against the registry. Beside it stand the two operations that give a document its hash (`json.dumps` with sorted
keys, and SHA-256), which are taken as given.
-/

namespace Untangle

open Lib

/-! ## Packs -/

structure PackProvenance where
  packId : String
  version : String
  schemaVersion : String
  description : String
deriving DecidableEq, Repr

def PackProvenance.toDict (p : PackProvenance) : Json :=
  .obj
    [("pack_id", .str p.packId),
      ("version", .str p.version),
      ("schema_version", .str p.schemaVersion),
      ("description", .str p.description)]

/-- A pack with its identity. -/
structure EvidencePack where
  provenance : PackProvenance
  rules : NarrationEvidencePack

/-- `DEFAULT_NARRATION_PACK`. -/
def defaultEvidencePack : EvidencePack where
  provenance :=
    { packId := "in.untangle.narration.default"
      version := "1.0.0"
      schemaVersion := "1.0.0"
      description := "Built-in default multi-rail narration evidence rules from existing origin/main." }
  rules := defaultNarrationPack

/-- `PACK_REGISTRY`. -/
def packRegistry : List EvidencePack := [defaultEvidencePack]

structure PackError where
  message : String
deriving DecidableEq, Repr

/-- The keys are exactly these, in any order. -/
def hasKeys (keys : List String) (fields : List (String × Json)) : Bool :=
  (fields.map Prod.fst).all (· ∈ keys) && keys.all (· ∈ fields.map Prod.fst)

/-- Resolve serialized pack provenance and reject unknown or malformed identities. -/
def resolvePackProvenance (value : Json) : Except PackError EvidencePack :=
  let shapeError : PackError := ⟨"Invalid evidence-pack provenance shape"⟩
  match value.asObj? with
  | none => .error shapeError
  | some fields =>
    if !hasKeys ["pack_id", "version", "schema_version", "description"] fields then .error shapeError
    else
      match (value.get "pack_id").asStr?, (value.get "version").asStr?, (value.get "schema_version").asStr?,
        (value.get "description").asStr? with
      | some packId, some version, some schemaVersion, some description =>
        match packRegistry.find? fun p => p.provenance.packId = packId ∧ p.provenance.version = version with
        | none => .error ⟨"Unknown or non-canonical evidence-pack identity"⟩
        | some pack =>
          if schemaVersion ≠ pack.provenance.schemaVersion then
            .error ⟨"Evidence-pack schema version does not match registry"⟩
          else if description ≠ pack.provenance.description then
            .error ⟨"Evidence-pack description does not match registry"⟩
          else .ok pack
      | _, _, _, _ => .error ⟨"Evidence-pack provenance fields must be strings"⟩

/-- A registered pack resolves to itself. -/
theorem resolvePackProvenance_toDict {pack : EvidencePack} (h : pack ∈ packRegistry) :
    resolvePackProvenance pack.provenance.toDict = .ok pack := by
  rw [packRegistry, List.mem_singleton] at h
  subst h
  rfl

/-! ## Hashes -/

/-- The characters of a hexadecimal digest. -/
def hexDigits : List Char := "0123456789abcdef".toList

/-- `json.dumps(obj, sort_keys=True, separators=(",", ":"))` and the hexadecimal SHA-256 of a text. -/
structure Hashing where
  canonical : Json → String
  sha256 : String → String
  length_sha256 : ∀ text, (sha256 text).length = 64
  hex_sha256 : ∀ text, ∀ c ∈ (sha256 text).toList, c ∈ hexDigits

/-- `GENESIS`. -/
def genesis : String := String.ofList (List.replicate 64 '0')

/-! ## The audit ledger -/

structure AuditEntry where
  seq : Nat
  event : String
  payload : Json
  prev : String
  hash : String

/-- The chain of `engine/audit.py`: the entries so far and the hash of the last one. -/
structure AuditLedger where
  entries : List AuditEntry := []
  root : String := genesis

/-- What an entry's hash is taken over. -/
def auditBody (seq : Nat) (event : String) (payload : Json) (prev : String) : Json :=
  .obj [("seq", .int seq), ("event", .str event), ("payload", payload), ("prev", .str prev)]

/-- `_hash`. -/
def auditHash (H : Hashing) (prev : String) (payload : Json) : String := H.sha256 (prev ++ "|" ++ H.canonical payload)

def AuditLedger.append (H : Hashing) (ledger : AuditLedger) (event : String) (payload : Json) : AuditLedger :=
  let seq := ledger.entries.length
  let hash := auditHash H ledger.root (auditBody seq event payload ledger.root)
  { entries := ledger.entries ++ [⟨seq, event, payload, ledger.root, hash⟩]
    root := hash }

/-- The ledger of a list of events. -/
def AuditLedger.ofEvents (H : Hashing) (events : List (String × Json)) : AuditLedger :=
  events.foldl (fun ledger e => ledger.append H e.1 e.2) {}

end Untangle
