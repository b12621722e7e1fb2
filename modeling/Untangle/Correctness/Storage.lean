import Mathlib.Data.List.TakeWhile
import Untangle.Lib.Fallible
import Untangle.Lib.Runs
import Untangle.Persistence.Storage

/-!
# `Correctness.Storage` — the local backend as a store of objects

Generated keys are paths below the base directory, and different keys are different paths. A copy and a deletion touch
the file of their key only. A store goes through a temporary file beside the object that is removed afterwards: it is
the store of its key precisely if that file is neither another object nor, for a stream that is not too large, the
object itself (`local_storage_faithful_iff`).
-/

namespace Untangle

open Lib

/-! ## Keys -/

/-- A text within one component. -/
def NoSlash (text : String) : Prop := '/' ∉ text.toList

instance (text : String) : Decidable (NoSlash text) := inferInstanceAs (Decidable (¬ _))

/-- A component that is a name. -/
structure Segment (text : String) : Prop where
  noSlash : NoSlash text
  ne_empty : text ≠ ""
  ne_dot : text ≠ "."
  ne_dots : text ≠ ".."

/-- What the key generators produce, from any file name and extension. -/
inductive GeneratedKey : String → Prop
  | input {tenant run role hash : String} (filename : String) (htenant : Segment tenant) (hrun : Segment run)
      (hrole : NoSlash role) (hhash : NoSlash hash) :
      GeneratedKey (generateInputObjectKey tenant run role hash filename)
  | artifact {tenant run artifactType hash : String} (ext : String) (htenant : Segment tenant) (hrun : Segment run)
      (htype : NoSlash artifactType) (hhash : NoSlash hash) :
      GeneratedKey (generateArtifactObjectKey tenant run artifactType hash ext)
  | stagingUpload {tenant token role : String} (htenant : Segment tenant) (htoken : Segment token)
      (hrole : Segment role) : GeneratedKey (generateStagingUploadKey tenant token role)
  | attemptArtifact {tenant run token artifactType : String} (ext : String) (htenant : Segment tenant)
      (hrun : Segment run) (htoken : Segment token) (htype : Segment artifactType) :
      GeneratedKey (generateAttemptArtifactKey tenant run token artifactType ext)

/-- All components are names. -/
def Proper (key : String) : Prop := ∀ c ∈ components key, c ≠ "" ∧ c ≠ "." ∧ c ≠ ".."

theorem components_slash (s t : String) : components (s ++ ("/" ++ t)) = components s ++ components t := by
  have hslash : "/".toList = ['/'] := by decide
  unfold components
  rw [String.toList_append, String.toList_append, hslash, List.singleton_append, List.splitOn_append_cons_self,
    List.map_append]

theorem components_of_noSlash {s : String} (h : NoSlash s) : components s = [s] := by
  unfold components
  rw [List.splitOn_eq_singleton h, List.map_singleton, String.ofList_toList]

theorem components_ne_nil (key : String) : components key ≠ [] := fun h =>
  List.splitOn_ne_nil '/' key.toList (List.map_eq_nil_iff.mp h)

/-- A text is what stands between its slashes. -/
theorem components_injective : Function.Injective components := by
  intro s t h
  have hsplit : s.toList.splitOn '/' = t.toList.splitOn '/' :=
    List.map_injective_iff.mpr (fun _ _ => String.ofList_injective) h
  have hjoin := congrArg (List.intercalate ['/']) hsplit
  rw [List.intercalate_splitOn, List.intercalate_splitOn] at hjoin
  exact String.toList_injective hjoin

theorem Segment.proper {s : String} (h : Segment s) : Proper s := by
  unfold Proper
  rw [components_of_noSlash h.noSlash, List.forall_mem_singleton]
  exact ⟨h.ne_empty, h.ne_dot, h.ne_dots⟩

theorem proper_slash {s t : String} (hs : Proper s) (ht : Proper t) : Proper (s ++ ("/" ++ t)) := by
  unfold Proper
  rw [components_slash]
  intro c hc
  rcases List.mem_append.mp hc with hc | hc
  · exact hs c hc
  · exact ht c hc

theorem noSlash_append {s t : String} (hs : NoSlash s) (ht : NoSlash t) : NoSlash (s ++ t) := by
  unfold NoSlash
  rw [String.toList_append, List.mem_append, not_or]
  exact ⟨hs, ht⟩

theorem noSlash_hashPrefix {hash : String} (h : NoSlash hash) : NoSlash (hashPrefix hash) := by
  unfold NoSlash hashPrefix
  rw [String.toList_ofList]
  exact fun hmem => h (List.mem_of_mem_take hmem)

theorem noSlash_cleanExt (ext : String) : NoSlash (cleanExt ext) := by
  unfold NoSlash cleanExt
  rw [String.toList_ofList]
  exact fun hmem => absurd (List.mem_filter.mp hmem).2 (by decide)

/-- **A file name is cleaned of slashes.** -/
theorem noSlash_sanitizeFilename (filename : String) : NoSlash (sanitizeFilename filename) := by
  unfold NoSlash sanitizeFilename
  dsimp only
  split
  · decide
  · rw [String.toList_ofList]
    intro hmem
    obtain ⟨c, _, hc⟩ := List.mem_map.mp (List.mem_of_mem_take hmem)
    split at hc
    · rename_i hkept
      rw [hc] at hkept
      exact absurd hkept (by decide)
    · exact absurd hc (by decide)

/-- A component with more than dots in it is a name. -/
theorem segment_of_mem {s : String} (hslash : NoSlash s) {c : Char} (hc : c ∈ s.toList) (hdot : c ≠ '.') :
    Segment s where
  noSlash := hslash
  ne_empty := by
    rintro rfl
    rw [String.toList_empty] at hc
    exact absurd hc List.not_mem_nil
  ne_dot := by
    rintro rfl
    have hlist : ".".toList = ['.'] := by decide
    rw [hlist, List.mem_singleton] at hc
    exact hdot hc
  ne_dots := by
    rintro rfl
    have hlist : "..".toList = ['.', '.'] := by decide
    rw [hlist, List.mem_cons, List.mem_singleton, or_self] at hc
    exact hdot hc

/-- A name with an extension is a name. -/
theorem Segment.extend {s t : String} (hs : Segment s) (ht : NoSlash t) : Segment (s ++ ("." ++ t)) := by
  have hdot : ".".toList = ['.'] := by decide
  have hlist : (s ++ ("." ++ t)).toList = s.toList ++ '.' :: t.toList := by
    rw [String.toList_append, String.toList_append, hdot, List.singleton_append]
  have hne : s.toList ≠ [] := fun h => hs.ne_empty (String.toList_injective (by rw [h, String.toList_empty]))
  refine ⟨noSlash_append hs.noSlash (noSlash_append (by decide) ht), fun h => ?_, fun h => ?_, fun h => ?_⟩
  · rw [h, String.toList_empty] at hlist
    exact hne (List.append_eq_nil_iff.mp hlist.symm).1
  · rw [h, hdot] at hlist
    have hlength := congrArg List.length hlist
    rw [List.length_append, List.length_cons, List.length_cons, List.length_nil] at hlength
    exact hne (List.eq_nil_of_length_eq_zero (by omega))
  · have hdots : "..".toList = ['.', '.'] := by decide
    rw [h, hdots] at hlist
    -- two dots are a dot with an empty extension
    obtain ⟨d, tail, hcons⟩ := List.exists_cons_of_ne_nil hne
    rw [hcons, List.cons_append] at hlist
    obtain ⟨rfl, htail⟩ := List.cons.inj hlist
    have hlength := congrArg List.length htail
    rw [List.length_append, List.length_cons, List.length_cons, List.length_nil] at hlength
    obtain rfl : tail = [] := List.eq_nil_of_length_eq_zero (by omega)
    exact hs.ne_dot (String.toList_injective (by rw [hcons, hdot]))

/-- **A generated key is a path of names.** -/
theorem GeneratedKey.proper {key : String} (h : GeneratedKey key) : Proper key := by
  have hliteral : ∀ text, Segment text → Proper text := fun text h => h.proper
  have htenants : Segment "tenants" := segment_of_mem (by decide) (c := 't') (by decide) (by decide)
  have hruns : Segment "runs" := segment_of_mem (by decide) (c := 'r') (by decide) (by decide)
  have hstaging : Segment "staging" := segment_of_mem (by decide) (c := 's') (by decide) (by decide)
  have hmark : ∀ {s t : String}, NoSlash s → NoSlash t → Segment (s ++ ("_" ++ t)) := by
    intro s t hs ht
    refine segment_of_mem (noSlash_append hs (noSlash_append (by decide) ht)) (c := '_') ?_ (by decide)
    rw [String.toList_append, String.toList_append]
    exact List.mem_append_right _ (List.mem_append_left _ (by decide))
  cases h with
  | @input tenant run role hash filename htenant hrun hrole hhash =>
      have hname : Segment (role ++ ("_" ++ (hashPrefix hash ++ ("_" ++ sanitizeFilename filename)))) :=
        hmark hrole (noSlash_append (noSlash_hashPrefix hhash)
          (noSlash_append (by decide) (noSlash_sanitizeFilename filename)))
      have hinputs : Segment "inputs" := segment_of_mem (by decide) (c := 'i') (by decide) (by decide)
      have hkey : generateInputObjectKey tenant run role hash filename =
          "tenants" ++ ("/" ++ (tenant ++ ("/" ++ ("runs" ++ ("/" ++ (run ++ ("/" ++ ("inputs" ++ ("/" ++
            (role ++ ("_" ++ (hashPrefix hash ++ ("_" ++ sanitizeFilename filename))))))))))))) := by
        unfold generateInputObjectKey
        rw [show "tenants/" = "tenants" ++ "/" by decide, show "/runs/" = "/" ++ ("runs" ++ "/") by decide,
          show "/inputs/" = "/" ++ ("inputs" ++ "/") by decide]
        simp only [String.append_assoc]
      rw [hkey]
      exact proper_slash htenants.proper (proper_slash htenant.proper (proper_slash hruns.proper
        (proper_slash hrun.proper (proper_slash hinputs.proper hname.proper))))
  | @artifact tenant run artifactType hash ext htenant hrun htype hhash =>
      have hname : Segment (artifactType ++ ("_" ++ (hashPrefix hash ++ ("." ++ cleanExt ext)))) :=
        hmark htype (noSlash_append (noSlash_hashPrefix hhash) (noSlash_append (by decide) (noSlash_cleanExt ext)))
      have hartifacts : Segment "artifacts" := segment_of_mem (by decide) (c := 'a') (by decide) (by decide)
      have hkey : generateArtifactObjectKey tenant run artifactType hash ext =
          "tenants" ++ ("/" ++ (tenant ++ ("/" ++ ("runs" ++ ("/" ++ (run ++ ("/" ++ ("artifacts" ++ ("/" ++
            (artifactType ++ ("_" ++ (hashPrefix hash ++ ("." ++ cleanExt ext))))))))))))) := by
        unfold generateArtifactObjectKey
        rw [show "tenants/" = "tenants" ++ "/" by decide, show "/runs/" = "/" ++ ("runs" ++ "/") by decide,
          show "/artifacts/" = "/" ++ ("artifacts" ++ "/") by decide]
        simp only [String.append_assoc]
      rw [hkey]
      exact proper_slash htenants.proper (proper_slash htenant.proper (proper_slash hruns.proper
        (proper_slash hrun.proper (proper_slash hartifacts.proper hname.proper))))
  | @stagingUpload tenant token role htenant htoken hrole =>
      have huploads : Segment "uploads" := segment_of_mem (by decide) (c := 'u') (by decide) (by decide)
      have hkey : generateStagingUploadKey tenant token role =
          "tenants" ++ ("/" ++ (tenant ++ ("/" ++ ("staging" ++ ("/" ++ ("uploads" ++ ("/" ++
            (token ++ ("/" ++ role))))))))) := by
        unfold generateStagingUploadKey
        rw [show "tenants/" = "tenants" ++ "/" by decide,
          show "/staging/uploads/" = "/" ++ ("staging" ++ ("/" ++ ("uploads" ++ "/"))) by decide]
        simp only [String.append_assoc]
      rw [hkey]
      exact proper_slash htenants.proper (proper_slash htenant.proper (proper_slash hstaging.proper
        (proper_slash huploads.proper (proper_slash htoken.proper hrole.proper))))
  | @attemptArtifact tenant run token artifactType ext htenant hrun htoken htype =>
      have hattempts : Segment "attempts" := segment_of_mem (by decide) (c := 'a') (by decide) (by decide)
      have hname : Segment (artifactType ++ ("." ++ cleanExt ext)) := htype.extend (noSlash_cleanExt ext)
      have hkey : generateAttemptArtifactKey tenant run token artifactType ext =
          "tenants" ++ ("/" ++ (tenant ++ ("/" ++ ("runs" ++ ("/" ++ (run ++ ("/" ++ ("staging" ++ ("/" ++
            ("attempts" ++ ("/" ++ (token ++ ("/" ++ (artifactType ++ ("." ++ cleanExt ext))))))))))))))) := by
        unfold generateAttemptArtifactKey
        rw [show "tenants/" = "tenants" ++ "/" by decide, show "/runs/" = "/" ++ ("runs" ++ "/") by decide,
          show "/staging/attempts/" = "/" ++ ("staging" ++ ("/" ++ ("attempts" ++ "/"))) by decide]
        simp only [String.append_assoc]
      rw [hkey]
      exact proper_slash htenants.proper (proper_slash htenant.proper (proper_slash hruns.proper
        (proper_slash hrun.proper (proper_slash hstaging.proper (proper_slash hattempts.proper
          (proper_slash htoken.proper hname.proper))))))

/-! ## Paths -/

/-- The path of a key. -/
def pathOf (base : Path) (key : String) : Path := base ++ components key

theorem pathOf_injective (base : Path) : Function.Injective (pathOf base) := fun _ _ h =>
  components_injective (List.append_cancel_left h)

section Resolved

variable {base : Path} {key : String}

theorem foldl_visit {names : List String} (h : ∀ c ∈ names, c ≠ "" ∧ c ≠ "." ∧ c ≠ "..") (path : Path) :
    names.foldl visit path = path ++ names := by
  induction names generalizing path with
  | nil => exact (List.append_nil path).symm
  | cons c names ih =>
      obtain ⟨hempty, hdot, hdots⟩ := h c List.mem_cons_self
      have hvisit : visit path c = path ++ [c] := by
        unfold visit
        rw [if_neg (not_or.mpr ⟨hempty, hdot⟩), if_neg hdots]
      rw [List.foldl_cons, hvisit, ih fun c' hc' => h c' (List.mem_cons_of_mem _ hc'), List.append_assoc,
        List.singleton_append]

theorem joinResolved_of_proper (h : Proper key) : joinResolved base key = pathOf base key := by
  have hhead : ¬ ((components key).head? = some "" ∧ key ≠ "") := fun hhead =>
    (h "" (List.mem_of_head? hhead.1)).1 rfl
  unfold joinResolved
  rw [if_neg hhead, foldl_visit h]
  rfl

theorem resolveSafePath_of_proper (h : Proper key) : resolveSafePath base key = .ok (pathOf base key) := by
  have hbelow : base <+: pathOf base key := List.prefix_append base (components key)
  unfold resolveSafePath
  rw [joinResolved_of_proper h, if_pos hbelow]

/-- Beside every key there is a path for its temporary file. -/
theorem withTmpSuffix_pathOf (base : Path) (key : String) :
    ∃ tmpTarget, withTmpSuffix (pathOf base key) = some tmpTarget := by
  have hne : pathOf base key ≠ [] := fun h => components_ne_nil key (List.append_eq_nil_iff.mp h).2
  unfold withTmpSuffix
  rw [List.getLast?_eq_some_getLast hne]
  exact ⟨_, rfl⟩

end Resolved

/-! ## Streams -/

/-- What a stream says: it ends with the first empty read. -/
def streamContent (chunks : List Bytes) : Bytes := (chunks.takeWhile fun chunk => decide (chunk ≠ [])).flatten

theorem streamContent_cons {chunk : Bytes} (h : chunk ≠ []) (chunks : List Bytes) :
    streamContent (chunk :: chunks) = chunk ++ streamContent chunks := by
  unfold streamContent
  rw [List.takeWhile_cons_of_pos (by simpa using h), List.flatten_cons]

theorem streamContent_nil_cons (chunks : List Bytes) : streamContent ([] :: chunks) = [] := by
  unfold streamContent
  rw [List.takeWhile_cons_of_neg (by decide)]
  rfl

/-- A stream is written as a whole if it is within the limit, ... -/
theorem writeChunks_within {maxBytes : Nat} {written : Bytes} {chunks : List Bytes}
    (h : written.length + (streamContent chunks).length ≤ maxBytes) :
    writeChunks maxBytes written chunks = (written ++ streamContent chunks, true) := by
  induction chunks generalizing written with
  | nil =>
      unfold writeChunks streamContent
      rw [List.takeWhile_nil, List.flatten_nil, List.append_nil]
  | cons chunk chunks ih =>
      unfold writeChunks
      by_cases hchunk : chunk = []
      · subst hchunk
        rw [if_pos rfl, streamContent_nil_cons, List.append_nil]
      · rw [streamContent_cons hchunk, List.length_append] at h
        rw [if_neg hchunk, if_neg (by omega), ih (by rw [List.length_append]; omega), streamContent_cons hchunk,
          List.append_assoc]

/-- ... and given up otherwise. -/
theorem writeChunks_beyond {maxBytes : Nat} {written : Bytes} {chunks : List Bytes}
    (hwritten : written.length ≤ maxBytes) (h : maxBytes < written.length + (streamContent chunks).length) :
    (writeChunks maxBytes written chunks).2 = false := by
  induction chunks generalizing written with
  | nil =>
      unfold streamContent at h
      rw [List.takeWhile_nil, List.flatten_nil, List.length_nil] at h
      omega
  | cons chunk chunks ih =>
      unfold writeChunks
      by_cases hchunk : chunk = []
      · subst hchunk
        rw [streamContent_nil_cons, List.length_nil] at h
        omega
      · rw [streamContent_cons hchunk, List.length_append] at h
        rw [if_neg hchunk]
        by_cases hlimit : maxBytes < written.length + chunk.length
        · rw [if_pos hlimit]
        · rw [if_neg hlimit]
          exact ih (by rw [List.length_append]; omega) (by rw [List.length_append]; omega)

/-- The reads of an array of bytes say the bytes. -/
theorem streamContent_bytesReads {chunkSize fuel : Nat} (hsize : 0 < chunkSize) {data : Bytes}
    (hfuel : data.length ≤ fuel) : streamContent (bytesReads chunkSize fuel data) = data := by
  induction fuel generalizing data with
  | zero =>
      obtain rfl : data = [] := List.eq_nil_of_length_eq_zero (by omega)
      rfl
  | succ fuel ih =>
      unfold bytesReads
      by_cases hdata : data = []
      · subst hdata
        rw [List.take_nil, streamContent_nil_cons]
      · have htake : data.take chunkSize ≠ [] := by
          rw [ne_eq, List.take_eq_nil_iff, not_or]
          exact ⟨by omega, hdata⟩
        have hdrop : (data.drop chunkSize).length ≤ fuel := by
          have hpos := List.length_pos_of_ne_nil hdata
          rw [List.length_drop]
          omega
        rw [streamContent_cons htake, ih hdrop, List.take_append_drop]

/-! ## One operation -/

section Operations

variable (sha : Sha256) {base : Path} {key : String} {tmpTarget : Path}

/-- **A store answers its object and no temporary file**, ... -/
theorem storeStream_within (hkey : Proper key) (htmp : withTmpSuffix (pathOf base key) = some tmpTarget)
    {chunks : List Bytes} {maxBytes : Nat} (hlimit : (streamContent chunks).length ≤ maxBytes)
    (files : Files Path Bytes) (contentType : String) :
    (∃ metadata, (storeStream sha base files key chunks maxBytes contentType).2 = .ok metadata) ∧
      ∀ path, Dict.get? (storeStream sha base files key chunks maxBytes contentType).1 path =
        if path = tmpTarget then none else if path = pathOf base key then some (streamContent chunks)
        else Dict.get? files path := by
  have hwritten : writeChunks maxBytes [] chunks = (streamContent chunks, true) :=
    writeChunks_within (by rw [List.length_nil]; omega)
  unfold storeStream
  rw [resolveSafePath_of_proper hkey]
  dsimp only
  rw [htmp]
  dsimp only
  rw [hwritten]
  refine ⟨⟨_, rfl⟩, fun path => ?_⟩
  dsimp only
  rw [Files.get?_unlink]
  by_cases hpath : path = tmpTarget
  · rw [if_pos hpath, if_pos hpath]
  · rw [if_neg hpath, if_neg hpath]
    by_cases hself : tmpTarget = pathOf base key
    · unfold Files.rename
      rw [if_pos hself, Files.get?_write, if_neg hpath, if_neg (hself ▸ hpath)]
    · rw [Files.get?_rename_write _ hself, if_neg hpath]

/-- ... and one that is given up removes the temporary file only. -/
theorem storeStream_beyond (hkey : Proper key) (htmp : withTmpSuffix (pathOf base key) = some tmpTarget)
    {chunks : List Bytes} {maxBytes : Nat} (hlimit : maxBytes < (streamContent chunks).length)
    (files : Files Path Bytes) (contentType : String) :
    (∃ message, (storeStream sha base files key chunks maxBytes contentType).2 =
        .error (.payloadTooLarge message)) ∧
      ∀ path, Dict.get? (storeStream sha base files key chunks maxBytes contentType).1 path =
        if path = tmpTarget then none else Dict.get? files path := by
  have hgiven : (writeChunks maxBytes [] chunks).2 = false :=
    writeChunks_beyond (Nat.zero_le _) (by rw [List.length_nil]; omega)
  unfold storeStream
  rw [resolveSafePath_of_proper hkey]
  dsimp only
  rw [htmp]
  dsimp only
  cases hchunks : writeChunks maxBytes [] chunks with
  | mk written kept =>
      rw [hchunks] at hgiven
      obtain rfl : kept = false := hgiven
      refine ⟨⟨_, rfl⟩, fun path => ?_⟩
      dsimp only
      rw [Files.get?_unlink, Files.get?_write]
      by_cases hpath : path = tmpTarget
      · rw [if_pos hpath, if_pos hpath]
      · rw [if_neg hpath, if_neg hpath, if_neg hpath]

/-- What is retrieved is the file at the path of the key. -/
theorem retrieveBytes_of_proper (hkey : Proper key) (files : Files Path Bytes) :
    retrieveBytes base files key =
      match Dict.get? files (pathOf base key) with
      | none => .error (.objectNotFound ("Object not found: " ++ key))
      | some data => .ok data := by
  unfold retrieveBytes
  rw [resolveSafePath_of_proper hkey]
  rfl

variable (base) in
theorem copyObject_of_proper {sourceKey destKey : String} (hsource : Proper sourceKey) (hdest : Proper destKey)
    (files : Files Path Bytes) :
    copyObject sha base files sourceKey destKey =
      match Dict.get? files (pathOf base sourceKey) with
      | none => (files, .error (.objectNotFound ("Source object not found: " ++ sourceKey)))
      | some data => (files.write (pathOf base destKey) data,
          .ok (metadataOf sha destKey data "application/octet-stream")) := by
  cases hfile : Dict.get? files (pathOf base sourceKey) with
  | none => simp only [copyObject, resolveSafePath_of_proper hsource, resolveSafePath_of_proper hdest, hfile]
  | some data => simp only [copyObject, resolveSafePath_of_proper hsource, resolveSafePath_of_proper hdest, hfile]

variable (base) in
/-- **A deletion succeeds, and removes the file of its key only.** -/
theorem deleteObject_of_proper (hkey : Proper key) (files : Files Path Bytes) :
    (∃ found, (deleteObject base files key).2 = .ok found) ∧
      ∀ path, Dict.get? (deleteObject base files key).1 path =
        if path = pathOf base key then none else Dict.get? files path := by
  unfold deleteObject
  rw [resolveSafePath_of_proper hkey]
  dsimp only
  cases hfile : Dict.get? files (pathOf base key) with
  | none =>
      refine ⟨⟨_, rfl⟩, fun path => ?_⟩
      dsimp only
      by_cases hpath : path = pathOf base key
      · rw [if_pos hpath, hpath, hfile]
      · rw [if_neg hpath]
  | some data => exact ⟨⟨_, rfl⟩, Files.get?_unlink files (pathOf base key)⟩

end Operations

/-! ## Runs of calls -/

/-- A call of the backend that writes or removes. -/
inductive StorageCall
  | storeBytes (key : String) (data : Bytes) (contentType : String)
  | storeStream (key : String) (chunks : List Bytes) (maxBytes : Nat) (contentType : String)
  | copyObject (sourceKey destKey : String)
  | deleteObject (key : String)

/-- The call is about generated keys. -/
def StorageCall.Generated : StorageCall → Prop
  | .storeBytes key _ _ => GeneratedKey key
  | .storeStream key _ _ _ => GeneratedKey key
  | .copyObject sourceKey destKey => GeneratedKey sourceKey ∧ GeneratedKey destKey
  | .deleteObject key => GeneratedKey key

/-- What is stored under every key. -/
abbrev Objects := String → Option Bytes

/-- What a call that succeeds means for the objects. -/
def StorageCall.record (objects : Objects) : StorageCall → Objects
  | .storeBytes key data _ => Function.update objects key (some data)
  | .storeStream key chunks _ _ => Function.update objects key (some (streamContent chunks))
  | .copyObject sourceKey destKey => Function.update objects destKey (objects sourceKey)
  | .deleteObject key => Function.update objects key none

/-- The files of the directory, and the objects that they are to be. -/
structure StorageState where
  files : Files Path Bytes
  objects : Objects

def StorageState.initial : StorageState := ⟨Dict.empty, fun _ => none⟩

section Machine

variable (sha : Sha256) (base : Path)

/-- The files after a call, and whether it succeeds. -/
def performCall (files : Files Path Bytes) : StorageCall → Files Path Bytes × Bool
  | .storeBytes key data contentType => (storeBytes sha base files key data contentType).map id Except.toBool
  | .storeStream key chunks maxBytes contentType =>
    (storeStream sha base files key chunks maxBytes contentType).map id Except.toBool
  | .copyObject sourceKey destKey => (copyObject sha base files sourceKey destKey).map id Except.toBool
  | .deleteObject key => (deleteObject base files key).map id Except.toBool

def storageStep (s : StorageState) (call : StorageCall) : StorageState where
  files := (performCall sha base s.files call).1
  objects := if (performCall sha base s.files call).2 then call.record s.objects else s.objects

/-- **The directory is the store of its objects**: what is retrieved for a key is its object, or that there is none. -/
def Faithful (s : StorageState) : Prop :=
  ∀ key, GeneratedKey key → retrieveBytes base s.files key =
    match s.objects key with
    | none => .error (.objectNotFound ("Object not found: " ++ key))
    | some data => .ok data

/-- There is no file at the temporary path of a key. -/
def TemporaryFree (files : Files Path Bytes) (key : String) : Prop :=
  ∀ tmpTarget ∈ withTmpSuffix (joinResolved base key), Dict.get? files tmpTarget = none

/-- A key is its own temporary path. -/
def OwnTemporary (key : String) : Prop := withTmpSuffix (joinResolved base key) = some (joinResolved base key)

/-- A store finds its temporary path free, and does not remove its own object with it. -/
def CallSafe (s : StorageState) : StorageCall → Prop
  | .storeBytes key _ _ => TemporaryFree base s.files key ∧ ¬ OwnTemporary base key
  | .storeStream key chunks maxBytes _ =>
    TemporaryFree base s.files key ∧ ((streamContent chunks).length ≤ maxBytes → ¬ OwnTemporary base key)
  | .copyObject _ _ => True
  | .deleteObject _ => True

/-- The files are the objects of generated keys. -/
structure Represented (s : StorageState) : Prop where
  object : ∀ key, GeneratedKey key → Dict.get? s.files (pathOf base key) = s.objects key
  generated : ∀ path ∈ s.files.keys, ∃ key, GeneratedKey key ∧ path = pathOf base key

end Machine

section Steps

variable {sha : Sha256} {base : Path} {s : StorageState}

theorem faithful_iff :
    Faithful base s ↔ ∀ key, GeneratedKey key → Dict.get? s.files (pathOf base key) = s.objects key := by
  refine forall₂_congr fun key hkey => ?_
  rw [retrieveBytes_of_proper hkey.proper]
  cases Dict.get? s.files (pathOf base key) with
  | none =>
      cases s.objects key with
      | none => exact iff_of_true rfl rfl
      | some data => exact iff_of_false (by rintro ⟨⟩) (by rintro ⟨⟩)
  | some found =>
      cases s.objects key with
      | none => exact iff_of_false (by rintro ⟨⟩) (by rintro ⟨⟩)
      | some data =>
          dsimp only
          rw [Except.ok.injEq, Option.some.injEq]

/-- A call that leaves every file to its object keeps the representation. -/
theorem represented_of_lookup {s' : StorageState} (hs : Represented base s)
    (h : ∀ path, Dict.get? s'.files path = Dict.get? s.files path ∨ ∃ key, GeneratedKey key ∧ path = pathOf base key)
    (hobject : ∀ key, GeneratedKey key → Dict.get? s'.files (pathOf base key) = s'.objects key) :
    Represented base s' where
  object := hobject
  generated := by
    intro path hpath
    rcases h path with hsame | hkey
    · obtain ⟨content, hcontent⟩ := Dict.exists_get?_of_mem_keys hpath
      exact hs.generated path (Dict.mem_keys_of_get? (hsame ▸ hcontent))
    · exact hkey

/-- A store of bytes is the store of a stream within its limit. -/
theorem storageStep_storeBytes (key : String) (data : Bytes) (contentType : String) :
    storageStep sha base s (.storeBytes key data contentType) =
      storageStep sha base s
        (.storeStream key (bytesReads (64 * 1024) data.length data) (data.length + 1) contentType) := by
  have hcontent : streamContent (bytesReads (64 * 1024) data.length data) = data :=
    streamContent_bytesReads (by decide) (Nat.le_refl _)
  have hrecord : StorageCall.record s.objects (.storeBytes key data contentType) =
      StorageCall.record s.objects (.storeStream key (bytesReads (64 * 1024) data.length data) (data.length + 1)
        contentType) :=
    congrArg (fun content => Function.update s.objects key (some content)) hcontent.symm
  unfold storageStep
  rw [hrecord]
  rfl

theorem callSafe_storeBytes (key : String) (data : Bytes) (contentType : String) :
    CallSafe base s (.storeBytes key data contentType) ↔
      CallSafe base s (.storeStream key (bytesReads (64 * 1024) data.length data) (data.length + 1) contentType) := by
  have hlimit : (streamContent (bytesReads (64 * 1024) data.length data)).length ≤ data.length + 1 := by
    rw [streamContent_bytesReads (by decide) (Nat.le_refl _)]
    exact Nat.le_succ _
  exact and_congr_right fun _ => ⟨fun h _ => h, fun h => h hlimit⟩

theorem storageStep_eq {call : StorageCall} {files : Files Path Bytes} {succeeds : Bool}
    (h : performCall sha base s.files call = (files, succeeds)) :
    storageStep sha base s call = ⟨files, if succeeds then call.record s.objects else s.objects⟩ := by
  unfold storageStep
  rw [h]

theorem represented_copyObject (hs : Represented base s) {sourceKey destKey : String} (hsource : GeneratedKey sourceKey)
    (hdest : GeneratedKey destKey) : Represented base (storageStep sha base s (.copyObject sourceKey destKey)) := by
  have hcopy := copyObject_of_proper sha base hsource.proper hdest.proper s.files
  have hobject := hs.object sourceKey hsource
  cases hfile : Dict.get? s.files (pathOf base sourceKey) with
  | none =>
      rw [hfile] at hcopy
      have hperform : performCall sha base s.files (.copyObject sourceKey destKey) = (s.files, false) :=
        congrArg (Prod.map id Except.toBool) hcopy
      rw [storageStep_eq hperform]
      exact hs
  | some data =>
      rw [hfile] at hcopy hobject
      have hperform : performCall sha base s.files (.copyObject sourceKey destKey) =
          (s.files.write (pathOf base destKey) data, true) := congrArg (Prod.map id Except.toBool) hcopy
      have hrecord : StorageCall.record s.objects (.copyObject sourceKey destKey) =
          Function.update s.objects destKey (some data) := congrArg (Function.update s.objects destKey) hobject.symm
      rw [storageStep_eq hperform, if_pos rfl, hrecord]
      refine represented_of_lookup hs (fun path => ?_) fun key hkey => ?_
      · dsimp only
        rw [Files.get?_write]
        by_cases hpath : path = pathOf base destKey
        · exact Or.inr ⟨destKey, hdest, hpath⟩
        · exact Or.inl (if_neg hpath)
      · dsimp only
        rw [Files.get?_write, Function.update_apply, hs.object key hkey]
        exact if_congr (pathOf_injective base).eq_iff rfl rfl

theorem represented_deleteObject (hs : Represented base s) {key : String} (hkey : GeneratedKey key) :
    Represented base (storageStep sha base s (.deleteObject key)) := by
  obtain ⟨⟨found, hfound⟩, hlookup⟩ := deleteObject_of_proper base hkey.proper s.files
  have hsucceeds : (performCall sha base s.files (.deleteObject key)).2 = true := congrArg Except.toBool hfound
  have hobjects : (storageStep sha base s (.deleteObject key)).objects = Function.update s.objects key none :=
    if_pos hsucceeds
  refine represented_of_lookup hs (fun path => ?_) fun key' hkey' => ?_
  · rw [show (storageStep sha base s (.deleteObject key)).files = (deleteObject base s.files key).1 from rfl, hlookup]
    by_cases hpath : path = pathOf base key
    · exact Or.inr ⟨key, hkey, hpath⟩
    · exact Or.inl (if_neg hpath)
  · rw [show (storageStep sha base s (.deleteObject key)).files = (deleteObject base s.files key).1 from rfl, hlookup,
      hobjects, Function.update_apply, hs.object key' hkey']
    exact if_congr (pathOf_injective base).eq_iff rfl rfl

/-- What a store of a stream leaves: without the temporary file, and with the object if it is within the limit. -/
theorem storageStep_storeStream (sha : Sha256) (s : StorageState) {key : String} (hkey : GeneratedKey key)
    {tmpTarget : Path} (htmp : withTmpSuffix (pathOf base key) = some tmpTarget) (chunks : List Bytes) (maxBytes : Nat)
    (contentType : String) :
    (storageStep sha base s (.storeStream key chunks maxBytes contentType)).objects =
        (if (streamContent chunks).length ≤ maxBytes then Function.update s.objects key (some (streamContent chunks))
        else s.objects) ∧
      ∀ path, Dict.get? (storageStep sha base s (.storeStream key chunks maxBytes contentType)).files path =
        if path = tmpTarget then none
        else if (streamContent chunks).length ≤ maxBytes ∧ path = pathOf base key then some (streamContent chunks)
        else Dict.get? s.files path := by
  by_cases hlimit : (streamContent chunks).length ≤ maxBytes
  · obtain ⟨⟨metadata, hmetadata⟩, hlookup⟩ :=
      storeStream_within sha hkey.proper htmp hlimit s.files contentType
    have hsucceeds : (performCall sha base s.files (.storeStream key chunks maxBytes contentType)).2 = true :=
      congrArg Except.toBool hmetadata
    refine ⟨?_, fun path => (hlookup path).trans ?_⟩
    · rw [if_pos hlimit]
      exact if_pos hsucceeds
    · simp only [hlimit, true_and]
  · obtain ⟨⟨message, hmessage⟩, hlookup⟩ :=
      storeStream_beyond sha hkey.proper htmp (Nat.lt_of_not_le hlimit) s.files contentType
    have hfails : (performCall sha base s.files (.storeStream key chunks maxBytes contentType)).2 = false :=
      congrArg Except.toBool hmessage
    refine ⟨?_, fun path => (hlookup path).trans ?_⟩
    · rw [if_neg hlimit]
      exact if_neg (by rw [hfails]; exact Bool.false_ne_true)
    · rw [if_neg fun h : (streamContent chunks).length ≤ maxBytes ∧ path = pathOf base key => hlimit h.1]

/-- **A store that is safe keeps the representation**, ... -/
theorem represented_storeStream (hs : Represented base s) {key : String} (hkey : GeneratedKey key) {chunks : List Bytes}
    {maxBytes : Nat} {contentType : String} (hsafe : CallSafe base s (.storeStream key chunks maxBytes contentType)) :
    Represented base (storageStep sha base s (.storeStream key chunks maxBytes contentType)) := by
  obtain ⟨tmpTarget, htmp⟩ := withTmpSuffix_pathOf base key
  obtain ⟨hobjects, hlookup⟩ :=
    storageStep_storeStream sha s hkey htmp chunks maxBytes contentType
  obtain ⟨hfree, hown⟩ := hsafe
  unfold TemporaryFree at hfree
  unfold OwnTemporary at hown
  rw [joinResolved_of_proper hkey.proper, htmp] at hfree hown
  have hunused : Dict.get? s.files tmpTarget = none := hfree tmpTarget rfl
  refine represented_of_lookup hs (fun path => ?_) fun key' hkey' => ?_
  · rw [hlookup]
    by_cases hpath : path = pathOf base key
    · exact Or.inr ⟨key, hkey, hpath⟩
    · refine Or.inl ?_
      by_cases htemporary : path = tmpTarget
      · rw [if_pos htemporary, htemporary, hunused]
      · rw [if_neg htemporary, if_neg fun h => hpath h.2]
  · rw [hlookup, hobjects]
    by_cases hlimit : (streamContent chunks).length ≤ maxBytes
    · rw [if_pos hlimit, Function.update_apply]
      by_cases hsame : key' = key
      · have hne : pathOf base key' ≠ tmpTarget := fun h =>
          hown hlimit (congrArg some (h.symm.trans (congrArg _ hsame)))
        rw [if_neg hne, if_pos ⟨hlimit, congrArg (pathOf base) hsame⟩, if_pos hsame]
      · rw [if_neg hsame, ← hs.object key' hkey',
          if_neg fun h : (streamContent chunks).length ≤ maxBytes ∧ pathOf base key' = pathOf base key =>
            hsame (pathOf_injective base h.2)]
        split
        · rename_i htemporary
          rw [htemporary, hunused]
        · rfl
    · rw [if_neg hlimit, ← hs.object key' hkey',
        if_neg fun h : (streamContent chunks).length ≤ maxBytes ∧ pathOf base key' = pathOf base key => hlimit h.1]
      split
      · rename_i htemporary
        rw [htemporary, hunused]
      · rfl

/-- ... and one that is not loses an object. -/
theorem not_faithful_storeStream (hs : Represented base s) {key : String} (hkey : GeneratedKey key)
    {chunks : List Bytes} {maxBytes : Nat} {contentType : String}
    (hrisky : ¬ CallSafe base s (.storeStream key chunks maxBytes contentType)) :
    ¬ Faithful base (storageStep sha base s (.storeStream key chunks maxBytes contentType)) := by
  obtain ⟨tmpTarget, htmp⟩ := withTmpSuffix_pathOf base key
  obtain ⟨hobjects, hlookup⟩ :=
    storageStep_storeStream sha s hkey htmp chunks maxBytes contentType
  -- whatever object is at the temporary path, it is not retrieved
  have hlost : ∀ key', GeneratedKey key' → pathOf base key' = tmpTarget →
      (storageStep sha base s (.storeStream key chunks maxBytes contentType)).objects key' ≠ none →
      ¬ Faithful base (storageStep sha base s (.storeStream key chunks maxBytes contentType)) := by
    intro key' hkey' hpath hobject hfaithful
    have hfile := faithful_iff.mp hfaithful key' hkey'
    rw [hlookup, if_pos hpath] at hfile
    exact hobject hfile.symm
  by_cases hfree : TemporaryFree base s.files key
  · have hown : (streamContent chunks).length ≤ maxBytes ∧ OwnTemporary base key := by
      by_contra hown
      exact hrisky ⟨hfree, fun hlimit h => hown ⟨hlimit, h⟩⟩
    obtain ⟨hlimit, hown⟩ := hown
    unfold OwnTemporary at hown
    rw [joinResolved_of_proper hkey.proper, htmp] at hown
    refine hlost key hkey (Option.some.inj hown).symm ?_
    rw [hobjects, if_pos hlimit, Function.update_self]
    exact Option.some_ne_none _
  · have hused : Dict.get? s.files tmpTarget ≠ none := by
      intro hunused
      refine hfree ?_
      unfold TemporaryFree
      rw [joinResolved_of_proper hkey.proper, htmp]
      intro tmpTarget' h
      exact Option.some.inj h ▸ hunused
    have hmem : tmpTarget ∈ s.files.keys := by
      by_contra hmem
      exact hused (Dict.get?_eq_none.mpr hmem)
    obtain ⟨key', hkey', hpath⟩ := hs.generated tmpTarget hmem
    have hobject : s.objects key' ≠ none := by
      rw [← hs.object key' hkey', ← hpath]
      exact hused
    refine hlost key' hkey' hpath.symm ?_
    rw [hobjects]
    split
    · rw [Function.update_apply]
      split
      · exact Option.some_ne_none _
      · exact hobject
    · exact hobject

theorem represented_initial (base : Path) : Represented base StorageState.initial where
  object := fun _ _ => rfl
  generated := fun _ h => absurd h List.not_mem_nil

/-- A safe call keeps the representation. -/
theorem represented_storageStep {call : StorageCall} (hcall : call.Generated) (hs : Represented base s)
    (hsafe : CallSafe base s call) : Represented base (storageStep sha base s call) := by
  cases call with
  | storeBytes key data contentType =>
      rw [storageStep_storeBytes]
      exact represented_storeStream hs hcall ((callSafe_storeBytes key data contentType).mp hsafe)
  | storeStream key chunks maxBytes contentType => exact represented_storeStream hs hcall hsafe
  | copyObject sourceKey destKey => exact represented_copyObject hs hcall.1 hcall.2
  | deleteObject key => exact represented_deleteObject hs hcall

theorem not_faithful_storageStep {call : StorageCall} (hcall : call.Generated) (hs : Represented base s)
    (hrisky : ¬ CallSafe base s call) : ¬ Faithful base (storageStep sha base s call) := by
  cases call with
  | storeBytes key data contentType =>
      rw [storageStep_storeBytes]
      exact not_faithful_storeStream hs hcall fun h => hrisky ((callSafe_storeBytes key data contentType).mpr h)
  | storeStream key chunks maxBytes contentType => exact not_faithful_storeStream hs hcall hrisky
  | copyObject sourceKey destKey => exact absurd trivial hrisky
  | deleteObject key => exact absurd trivial hrisky

end Steps

/-- **The directory is the store of its objects in every state of a run precisely if every store of the run is safe**:
    its temporary path is free, and is not the path of an object that is stored. -/
theorem local_storage_faithful_iff (sha : Sha256) (base : Path) (calls : List StorageCall)
    (hcalls : ∀ call ∈ calls, call.Generated) :
    (∀ before after, calls = before ++ after →
        Faithful base (run (storageStep sha base) StorageState.initial before)) ↔
      Meets (storageStep sha base) (CallSafe base) StorageState.initial calls :=
  always_iff_meets (storageStep sha base) (I := Represented base) (A := StorageCall.Generated)
    (fun _ hs => faithful_iff.mpr hs.object) (fun _ _ hcall hs hsafe => represented_storageStep hcall hs hsafe)
    (fun _ _ hcall hs hrisky => not_faithful_storageStep hcall hs hrisky) (represented_initial base) hcalls

/-! ## Statements under their file names -/

/-- The digest is said in the metadata only. -/
def blankSha : Sha256 := ⟨fun _ => List.replicate 32 0, fun _ => List.length_replicate⟩

def storageRoot : Path := ["srv", "storage"]

/-- The key of a statement that is uploaded under a name, and the key it is staged under. -/
def statementKey (filename : String) : String :=
  generateInputObjectKey "org_1" "run_1" "bank_statement"
    "9f86d081884c7d659a2feaa0c55ad015a3bf4f1b2b0b822cd15d6c15b0f00a08" filename
def uploadKey : String := generateStagingUploadKey "org_1" "stg_1" "bank_statement"

theorem segment_org : Segment "org_1" := segment_of_mem (by decide) (c := 'o') (by decide) (by decide)

theorem generated_statementKey (filename : String) : GeneratedKey (statementKey filename) :=
  .input filename segment_org (segment_of_mem (by decide) (c := 'r') (by decide) (by decide)) (by decide) (by decide)

theorem generated_uploadKey : GeneratedKey uploadKey :=
  .stagingUpload segment_org (segment_of_mem (by decide) (c := 's') (by decide) (by decide))
    (segment_of_mem (by decide) (c := 'b') (by decide) (by decide))

/-- An upload is stored, promoted to a statement, and removed. -/
def promotion (filename : String) : List StorageCall :=
  [.storeBytes uploadKey [1] "text/csv", .copyObject uploadKey (statementKey filename), .deleteObject uploadKey]

theorem generated_promotion (filename : String) : ∀ call ∈ promotion filename, call.Generated := by
  refine List.forall_mem_cons.mpr ⟨generated_uploadKey, List.forall_mem_cons.mpr ⟨⟨generated_uploadKey,
    generated_statementKey filename⟩, List.forall_mem_cons.mpr ⟨generated_uploadKey, ?_⟩⟩⟩
  exact fun call hcall => absurd hcall List.not_mem_nil

theorem local_storage_faithful_iff_promotion :
    (∀ call ∈ promotion "statement.csv", call.Generated) ∧
      ∀ before after, promotion "statement.csv" = before ++ after →
        Faithful storageRoot (run (storageStep blankSha storageRoot) StorageState.initial before) := by
  refine ⟨generated_promotion _, (local_storage_faithful_iff blankSha storageRoot _ (generated_promotion _)).mpr ?_⟩
  refine ⟨⟨fun _ _ => rfl, ?_⟩, trivial, trivial, trivial⟩
  unfold OwnTemporary
  decide +kernel

/-- A statement whose name ends in `.tmp` is lost as it is stored, and one that is promoted is lost with the store of a
    statement of the same stem, even one that is given up. -/
theorem local_storage_not_faithful :
    (retrieveBytes storageRoot (run (storageStep blankSha storageRoot) StorageState.initial
        [.storeBytes (statementKey "statement.tmp") [1] "text/csv"]).files (statementKey "statement.tmp") =
        .error (.objectNotFound ("Object not found: " ++ statementKey "statement.tmp")) ∧
      ¬ Faithful storageRoot (run (storageStep blankSha storageRoot) StorageState.initial
        [.storeBytes (statementKey "statement.tmp") [1] "text/csv"])) ∧
    ¬ Faithful storageRoot (run (storageStep blankSha storageRoot) StorageState.initial
        (promotion "statement.tmp" ++ [.storeBytes (statementKey "statement.csv") [2] "text/csv"])) ∧
    ¬ Faithful storageRoot (run (storageStep blankSha storageRoot) StorageState.initial
        (promotion "statement.tmp" ++ [.storeStream (statementKey "statement.csv") [[2]] 0 "text/csv"])) := by
  -- in each run the object is there and its file is not
  have hlost : ∀ calls, Dict.get? (run (storageStep blankSha storageRoot) StorageState.initial calls).files
        (pathOf storageRoot (statementKey "statement.tmp")) = none →
      (run (storageStep blankSha storageRoot) StorageState.initial calls).objects (statementKey "statement.tmp") =
        some [1] →
      ¬ Faithful storageRoot (run (storageStep blankSha storageRoot) StorageState.initial calls) := by
    intro calls hfile hobject hfaithful
    have h := faithful_iff.mp hfaithful _ (generated_statementKey "statement.tmp")
    rw [hfile, hobject] at h
    cases h
  exact ⟨⟨by decide +kernel, hlost _ (by decide +kernel) (by decide +kernel)⟩,
    hlost _ (by decide +kernel) (by decide +kernel), hlost _ (by decide +kernel) (by decide +kernel)⟩

end Untangle
