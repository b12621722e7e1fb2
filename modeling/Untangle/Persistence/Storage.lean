import Mathlib.Data.List.Infix
import Untangle.Engine.Text
import Untangle.Lib.Files
import Untangle.Persistence.Idempotency

/-!
# `Persistence.Storage` — object keys and the local backend

Model of the key generators and of `LocalStorageBackend` in `persistence/storage.py`. A path is the list of its
components below the root, and the directory is the map of its files. A stream is what its reads return, one after
another. SHA-256 is a parameter.
-/

namespace Untangle

open Lib

abbrev Bytes := List UInt8

/-- The components of a path below the root. -/
abbrev Path := List String

/-- The errors of a backend, and the `ValueError` of a path without a name. -/
inductive StorageError
  | securityViolation (message : String)
  | payloadTooLarge (message : String)
  | objectNotFound (message : String)
  | emptyName
deriving DecidableEq, Repr

structure StoredObjectMetadata where
  key : String
  sizeBytes : Nat
  sha256Checksum : String
  contentType : String
  etag : Option String
  versionId : Option String := none
  backend : String := "local"
deriving DecidableEq, Repr

/-! ## Keys -/

/-- What stands between the slashes of a text. -/
def components (text : String) : List String := (text.toList.splitOn '/').map String.ofList

/-- `Path(filename).name`. -/
def pathName (filename : String) : String := ((components filename).filter fun c => c ≠ "" ∧ c ≠ ".").getLastD ""

/-- `[A-Za-z0-9._-]`. -/
def keptInName (c : Char) : Bool := c.isAlphanum ∨ c ∈ ['.', '_', '-']

/-- `sanitize_filename`. -/
def sanitizeFilename (filename : String) : String :=
  let clean := (pathName filename).toList.map fun c => if keptInName c then c else '_'
  if clean.take 128 = [] then "file" else String.ofList (clean.take 128)

/-- `content_sha256[:16]`. -/
def hashPrefix (contentSha256 : String) : String := String.ofList (contentSha256.toList.take 16)

/-- `re.sub(r"[^A-Za-z0-9]", "", ext)`. -/
def cleanExt (ext : String) : String := String.ofList (ext.toList.filter Char.isAlphanum)

def generateInputObjectKey (tenantPublicId runPublicId fileRole contentSha256 originalFilename : String) : String :=
  "tenants/" ++ tenantPublicId ++ "/runs/" ++ runPublicId ++ "/inputs/" ++ fileRole ++ "_" ++
    hashPrefix contentSha256 ++ "_" ++ sanitizeFilename originalFilename

def generateArtifactObjectKey (tenantPublicId runPublicId artifactType contentSha256 ext : String) : String :=
  "tenants/" ++ tenantPublicId ++ "/runs/" ++ runPublicId ++ "/artifacts/" ++ artifactType ++ "_" ++
    hashPrefix contentSha256 ++ "." ++ cleanExt ext

def generateStagingUploadKey (tenantPublicId uploadToken fileRole : String) : String :=
  "tenants/" ++ tenantPublicId ++ "/staging/uploads/" ++ uploadToken ++ "/" ++ fileRole

def generateAttemptArtifactKey (tenantPublicId runPublicId attemptToken artifactType ext : String) : String :=
  "tenants/" ++ tenantPublicId ++ "/runs/" ++ runPublicId ++ "/staging/attempts/" ++ attemptToken ++ "/" ++
    artifactType ++ "." ++ cleanExt ext

/-! ## Paths -/

/-- One component further, where `.` stays and `..` goes back. -/
def visit (path : Path) (component : String) : Path :=
  if component = "" ∨ component = "." then path else if component = ".." then path.dropLast else path ++ [component]

/-- `(base / key).resolve()`: an absolute key replaces the base. There are no symbolic links below it. -/
def joinResolved (base : Path) (key : String) : Path :=
  (components key).foldl visit (if (components key).head? = some "" ∧ key ≠ "" then [] else base)

/-- A name without its suffix. What starts with its last dot is a suffix if something stands before and behind it. -/
def stemOf (name : List Char) : List Char :=
  let behind := name.reverse.takeWhile (· ≠ '.')
  let before := (name.reverse.dropWhile (· ≠ '.')).drop 1
  if behind ≠ [] ∧ before ≠ [] then before.reverse else name

/-- `path.with_suffix(".tmp")`, unless the name is empty. -/
def withTmpSuffix (path : Path) : Option Path :=
  path.getLast?.map fun name => path.dropLast ++ [String.ofList (stemOf name.toList ++ ".tmp".toList)]

/-! ## The backend -/

/-- The loop over the chunks of a stream: what is written, and whether the limit is kept. -/
def writeChunks (maxBytes : Nat) (written : Bytes) : List Bytes → Bytes × Bool
  | [] => (written, true)
  | chunk :: chunks =>
    if chunk = [] then (written, true)
    else if maxBytes < written.length + chunk.length then (written, false)
    else writeChunks maxBytes (written ++ chunk) chunks

/-- The reads of `io.BytesIO(data)`, 64 KiB each, with as much fuel as there are bytes. -/
def bytesReads (chunkSize : Nat) : Nat → Bytes → List Bytes
  | 0, _ => []
  | fuel + 1, data => data.take chunkSize :: bytesReads chunkSize fuel (data.drop chunkSize)

section Backend

variable (sha : Sha256) (base : Path)

/-- `_resolve_safe_path`. -/
def resolveSafePath (key : String) : Except StorageError Path :=
  if base <+: joinResolved base key then .ok (joinResolved base key)
  else .error (.securityViolation ("Path traversal detected: " ++ key))

/-- The metadata of what is stored. -/
def metadataOf (key : String) (data : Bytes) (contentType : String) : StoredObjectMetadata where
  key
  sizeBytes := data.length
  sha256Checksum := hexText (sha.digest data)
  contentType
  etag := some ("\"" ++ String.ofList ((hexText (sha.digest data)).toList.take 32) ++ "\"")

/-- A stream is written to a temporary file that takes the place of the object; the clean-up removes it. -/
def storeStream (files : Files Path Bytes) (key : String) (chunks : List Bytes) (maxBytes : Nat)
    (contentType : String) : Files Path Bytes × Except StorageError StoredObjectMetadata :=
  match resolveSafePath base key with
  | .error e => (files, .error e)
  | .ok target =>
    match withTmpSuffix target with
    | none => (files, .error .emptyName)
    | some tmpTarget =>
      match writeChunks maxBytes [] chunks with
      | (written, false) =>
        ((files.write tmpTarget written).unlink tmpTarget,
          .error (.payloadTooLarge ("Uploaded stream exceeded limit of " ++ toString maxBytes ++ " bytes")))
      | (written, true) =>
        (((files.write tmpTarget written).rename tmpTarget target).unlink tmpTarget,
          .ok (metadataOf sha key written contentType))

def storeBytes (files : Files Path Bytes) (key : String) (data : Bytes) (contentType : String) :
    Files Path Bytes × Except StorageError StoredObjectMetadata :=
  storeStream sha base files key (bytesReads (64 * 1024) data.length data) (data.length + 1) contentType

def retrieveBytes (files : Files Path Bytes) (key : String) : Except StorageError Bytes := do
  let target ← resolveSafePath base key
  match Dict.get? files target with
  | none => .error (.objectNotFound ("Object not found: " ++ key))
  | some data => .ok data

def copyObject (files : Files Path Bytes) (sourceKey destKey : String) :
    Files Path Bytes × Except StorageError StoredObjectMetadata :=
  match resolveSafePath base sourceKey, resolveSafePath base destKey with
  | .error e, _ => (files, .error e)
  | .ok _, .error e => (files, .error e)
  | .ok src, .ok dst =>
    match Dict.get? files src with
    | none => (files, .error (.objectNotFound ("Source object not found: " ++ sourceKey)))
    | some data => (files.write dst data, .ok (metadataOf sha destKey data "application/octet-stream"))

def deleteObject (files : Files Path Bytes) (key : String) : Files Path Bytes × Except StorageError Bool :=
  match resolveSafePath base key with
  | .error e => (files, .error e)
  | .ok target =>
    match Dict.get? files target with
    | none => (files, .ok false)
    | some _ => (files.unlink target, .ok true)

end Backend

end Untangle
