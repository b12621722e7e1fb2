import Untangle.Lib.Fallible
import Untangle.McpServer

/-!
# `Correctness.McpServer` — a cached answer is the answer

What a step of a call does is `Change`. An entry of a cache is what is made of contents that a call has read, under
their digests (`Sound`), so an answer from the cache is what is made of the contents that the call itself has read,
unless two contents have the same digest. The cache holds what was used last, and a path in the sandbox leads nowhere
outside the data directory.
-/

namespace Untangle

open Lib

/-! ## The sandbox -/

theorem pathComponents_text (path : RealPath) : pathComponents path.text = path.components := by
  have hall : path.components.filter (fun c => c ≠ [] ∧ c ≠ ['.']) = path.components :=
    List.filter_eq_self.mpr fun c hc => by simp [(path.normal c hc).1, (path.normal c hc).2.1]
  unfold pathComponents RealPath.text
  rw [show '/' :: ['/'].intercalate path.components = [] ++ '/' :: ['/'].intercalate path.components from rfl,
    List.splitOn_append_cons_self_of_not_mem (by simp), List.filter_cons_of_neg (by simp)]
  by_cases hempty : path.components = []
  · rw [hempty]
    rfl
  · rw [List.splitOn_intercalate '/' (fun c hc => (path.normal c hc).2.2) hempty, hall]

theorem text_injective {path path' : RealPath} (h : path.text = path'.text) : path.components = path'.components := by
  rw [← pathComponents_text path, h, pathComponents_text]

theorem commonPrefix_comm (a b : List (List Char)) : commonPrefix a b = commonPrefix b a := by
  induction a, b using commonPrefix.induct with
  | case1 c s1 s2 ih => rw [commonPrefix, commonPrefix, if_pos rfl, if_pos rfl, ih]
  | case2 c s1 c' s2 h => rw [commonPrefix, commonPrefix, if_neg h, if_neg (Ne.symm h)]
  | case3 a b h => cases a <;> cases b <;> first | rfl | exact absurd rfl (h _ _ _ _ rfl)

theorem commonPrefix_le (a b : List (List Char)) : commonPrefix a b <+: a := by
  induction a, b using commonPrefix.induct with
  | case1 c s1 s2 ih =>
      rw [commonPrefix, if_pos rfl]
      exact List.cons_prefix_cons.mpr ⟨rfl, ih⟩
  | case2 c s1 c' s2 h =>
      rw [commonPrefix, if_neg h]
      exact List.nil_prefix
  | case3 a b h => cases a <;> cases b <;> first | exact List.nil_prefix | exact absurd rfl (h _ _ _ _ rfl)

theorem commonPrefix_eq_iff (a b : List (List Char)) : commonPrefix a b = b ↔ b <+: a := by
  constructor
  · intro h
    exact h ▸ commonPrefix_le a b
  · rintro ⟨rest, rfl⟩
    induction b with
    | nil => cases rest <;> rfl
    | cons c b ih => rw [List.cons_append, commonPrefix, if_pos rfl, ih]

theorem commonpath_text (a b : RealPath) :
    ∃ common : RealPath, commonpath a.text b.text = .ok common.text ∧
      common.components = commonPrefix a.components b.components := by
  have hnormal : ∀ c ∈ commonPrefix a.components b.components, c ≠ [] ∧ c ≠ ['.'] ∧ '/' ∉ c :=
    fun c hc => a.normal c ((commonPrefix_le _ _).subset hc)
  refine ⟨⟨_, hnormal⟩, ?_, rfl⟩
  unfold commonpath
  rw [if_pos (by simp [RealPath.text]), pathComponents_text, pathComponents_text]
  have hsorted : commonPrefix (min a.components b.components) (max a.components b.components) =
      commonPrefix a.components b.components := by
    rcases le_total a.components b.components with h | h
    · rw [min_eq_left h, max_eq_right h]
    · rw [min_eq_right h, max_eq_left h, commonPrefix_comm]
  dsimp only
  rw [hsorted]
  rfl

/-- A path is safe if it lies in the data directory, component by component. -/
theorem McpSandbox.safePath_eq {sandbox : McpSandbox} (hsandboxed : sandbox.sandboxed = true)
    (realpath : String → RealPath) (p : String) :
    sandbox.safePath realpath p =
      if sandbox.dataDir.components <+: (realpath p).components then .ok (String.ofList (realpath p).text)
      else .error outside := by
  obtain ⟨common, hcommon, hcomponents⟩ := commonpath_text (realpath p) sandbox.dataDir
  have hiff : common.text = sandbox.dataDir.text ↔ sandbox.dataDir.components <+: (realpath p).components := by
    rw [← commonPrefix_eq_iff, ← hcomponents]
    refine ⟨text_injective, fun h => ?_⟩
    unfold RealPath.text
    rw [h]
  unfold safePath
  simp only [hsandboxed, Bool.not_true, Bool.false_eq_true, if_false, hcommon, ite_not, hiff]

def McpSandbox.Inside (sandbox : McpSandbox) (text : String) : Prop :=
  ∃ path : RealPath, text = String.ofList path.text ∧ sandbox.dataDir.components <+: path.components

theorem McpSandbox.safePath_inside {sandbox : McpSandbox} {realpath : String → RealPath} {p safe : String}
    (hsandboxed : sandbox.sandboxed = true) (h : sandbox.safePath realpath p = .ok safe) : sandbox.Inside safe := by
  rw [safePath_eq hsandboxed] at h
  split at h
  · rename_i hinside
    exact ⟨realpath p, (Except.ok.inj h).symm, hinside⟩
  · cases h

/-- **No call of the sandbox reads outside the data directory.** -/
theorem McpRequest.inputs_inside {sandbox : McpSandbox} {request : McpRequest} {inputs : List McpInput}
    (hsandboxed : sandbox.sandboxed = true) (h : request.inputs sandbox = .ok inputs) :
    ∀ input ∈ inputs, sandbox.Inside input.path := by
  cases request with
  | report bankPath reconPath ledgerPath realpath =>
      obtain ⟨bank, hbank, h⟩ := bind_eq_ok.mp h
      obtain ⟨recon, hrecon, h⟩ := bind_eq_ok.mp h
      obtain ⟨ledger, hledger, h⟩ := bind_eq_ok.mp h
      obtain rfl := Except.ok.inj h
      simp only [List.forall_mem_cons, List.not_mem_nil, false_imp_iff, implies_true, and_true]
      exact ⟨McpSandbox.safePath_inside hsandboxed hbank, McpSandbox.safePath_inside hsandboxed hrecon,
        McpSandbox.safePath_inside hsandboxed hledger⟩
  | journal bankPath reconPath realpath =>
      obtain ⟨bank, hbank, h⟩ := bind_eq_ok.mp h
      obtain ⟨recon, hrecon, h⟩ := bind_eq_ok.mp h
      obtain rfl := Except.ok.inj h
      simp only [List.forall_mem_cons, List.not_mem_nil, false_imp_iff, implies_true, and_true]
      exact ⟨McpSandbox.safePath_inside hsandboxed hbank, McpSandbox.safePath_inside hsandboxed hrecon⟩
  | demo =>
      obtain rfl := Except.ok.inj h
      exact fun _ hmem => absurd hmem List.not_mem_nil

/-! ## Snapshots -/

namespace McpInput

variable (input : McpInput)

/-- The replies to a reader of a file that is not written meanwhile, from a place on: every read gives some of what is
    left. The replies after the last one are for other files. -/
inductive Serves (content : Content) : Nat → List ReadReply → List ReadReply → Prop
  | last (rest : List ReadReply) : Serves content content.length (.chunk [] :: rest) rest
  | more {total : Nat} {piece : Content} {replies rest : List ReadReply} (hpiece : piece ≠ [])
      (hasked : piece.length ≤ min snapshotChunkBytes (maxInputBytes + 1 - total)) (hleft : piece <+: content.drop total)
      (h : Serves content (total + piece.length) replies rest) : Serves content total (.chunk piece :: replies) rest

theorem readChunks_length {chunks : List Content} {total : Nat} {replies replies' : List ReadReply} {content : Content}
    (htotal : chunks.flatten.length = total) (hroom : total ≤ maxInputBytes)
    (h : input.readChunks chunks total replies = some (.ok content, replies')) : content.length ≤ maxInputBytes := by
  induction replies generalizing chunks total with
  | nil => cases h
  | cons reply replies ih =>
      cases reply with
      | chunk piece =>
          rw [readChunks] at h
          split at h
          · split at h
            · obtain rfl := Except.ok.inj (Prod.mk.inj (Option.some.inj h)).1
              omega
            · split at h
              · cases h
              · refine ih ?_ (by omega) h
                rw [List.flatten_append, List.length_append, htotal]
                simp
          · cases h
      | failed => cases h
      | opened => cases h
      | notFound => cases h

/-- **A file that is not written while it is read is read as it is**, in whatever pieces, unless it is too large. -/
theorem readChunks_serves {content : Content} {chunks : List Content} {total : Nat} {replies rest : List ReadReply}
    (hserves : Serves content total replies rest) (hchunks : chunks.flatten = content.take total)
    (hroom : total ≤ maxInputBytes) :
    (content.length ≤ maxInputBytes → input.readChunks chunks total replies = some (.ok content, rest)) ∧
      (maxInputBytes < content.length →
        ∃ left, input.readChunks chunks total replies = some (.error (input.tooLarge (maxInputBytes + 1)), left)) := by
  induction hserves generalizing chunks with
  | last rest =>
      have hread : input.readChunks chunks content.length (.chunk [] :: rest) = some (.ok content, rest) := by
        rw [readChunks, if_pos (by simp), if_pos rfl, hchunks, List.take_length]
      exact ⟨fun _ => hread, fun hlarge => absurd hroom (by omega)⟩
  | @more total piece replies rest hpiece hasked hleft hmore ih =>
      rw [readChunks, if_pos hasked, if_neg hpiece]
      have hlength : total + piece.length ≤ content.length := by
        have hle := hleft.length_le
        rw [List.length_drop] at hle
        have hpos := List.length_pos_iff.mpr hpiece
        omega
      by_cases hlarge : total + piece.length > maxInputBytes
      · have hexact : total + piece.length = maxInputBytes + 1 := by
          have := (le_min_iff.mp hasked).2
          omega
        rw [if_pos hlarge, hexact]
        exact ⟨fun hsmall => absurd hlength (by omega), fun _ => ⟨replies, rfl⟩⟩
      · rw [if_neg hlarge]
        refine ih ?_ (by omega)
        have htake : piece = (content.drop total).take piece.length := List.prefix_iff_eq_take.mp hleft
        rw [List.flatten_append, hchunks, List.flatten_singleton, List.take_add, ← htake]

/-- The replies to a reader of several files that are not written meanwhile. -/
inductive ServesAll : List Content → List ReadReply → Prop
  | nil (replies : List ReadReply) : ServesAll [] replies
  | cons {content : Content} {contents : List Content} {replies rest : List ReadReply}
      (hsmall : content.length ≤ maxInputBytes) (h : Serves content 0 replies rest) (hrest : ServesAll contents rest) :
      ServesAll (content :: contents) (.opened true :: replies)

end McpInput

theorem snapshotInputs_servesAll {inputs : List McpInput} {contents : List Content} {replies : List ReadReply}
    (hlength : inputs.length = contents.length) (h : McpInput.ServesAll contents replies) :
    snapshotInputs inputs replies = some (.ok contents) := by
  induction h generalizing inputs with
  | nil replies =>
      obtain rfl := List.eq_nil_of_length_eq_zero hlength
      rfl
  | @cons content contents replies rest hsmall hserves hrest ih =>
      cases inputs with
      | nil => cases hlength
      | cons input inputs =>
          have hread : input.readInputSnapshot (.opened true :: replies) = some (.ok content, rest) :=
            (input.readChunks_serves hserves rfl (Nat.zero_le _)).1 hsmall
          rw [snapshotInputs, hread]
          dsimp only
          rw [ih (Nat.succ.inj hlength)]
          rfl

theorem snapshotInputs_length {inputs : List McpInput} {contents : List Content} {replies : List ReadReply}
    (h : snapshotInputs inputs replies = some (.ok contents)) : ∀ content ∈ contents, content.length ≤ maxInputBytes := by
  induction inputs generalizing contents replies with
  | nil =>
      obtain rfl := Except.ok.inj (Option.some.inj h)
      exact fun _ hmem => absurd hmem List.not_mem_nil
  | cons input inputs ih =>
      rw [snapshotInputs] at h
      split at h
      · cases h
      · cases h
      · rename_i content rest hread
        obtain ⟨answer, hanswer, hmap⟩ := Option.map_eq_some_iff.mp h
        obtain ⟨others, rfl, rfl⟩ := map_eq_ok.mp hmap
        refine List.forall_mem_cons.mpr ⟨?_, ih hanswer⟩
        unfold McpInput.readInputSnapshot at hread
        split at hread
        · exact input.readChunks_length rfl (Nat.zero_le _) hread
        all_goals cases hread

/-! ## Steps -/

def ToolPhase.hasRead {α : Type} : ToolPhase α → Bool
  | .reading => false
  | _ => true

namespace McpServer

variable {ν : McpCache → Type} (sandbox : McpSandbox) (sha256 : Content → String)
  (compute : (cache : McpCache) → List Content → Except ToolError (ν cache))
  (demoSnapshots : Except ToolError (List Content))

/-- What a step does, with the entry of a cache that it uses. -/
inductive Change (s : McpServer ν) : Option (McpCache × List String) → McpServer ν → Prop
  | idle : Change s none s
  | call (request : McpRequest) : Change s none { s with calls := s.calls ++ [⟨request, [], .reading⟩] }
  | read {index : Nat} {call : ToolCall ν} {replies : List ReadReply} {snapshots : List Content}
      (hcall : s.calls[index]? = some call) (hphase : call.phase = .reading)
      (hcontents : contentsOf sandbox demoSnapshots call.request replies = some (.ok snapshots)) :
      Change s none (s.put index { call with replies := replies, phase := .lookingUp snapshots })
  | notRead {index : Nat} {call : ToolCall ν} {replies : List ReadReply} {error : ToolError}
      (hcall : s.calls[index]? = some call) (hphase : call.phase = .reading)
      (hcontents : contentsOf sandbox demoSnapshots call.request replies = some (.error error)) :
      Change s none (s.put index { call with replies := replies, phase := .answered (.error error) })
  | hit {index : Nat} {call : ToolCall ν} {snapshots : List Content} {value : ν call.request.cache}
      (hcall : s.calls[index]? = some call) (hphase : call.phase = .lookingUp snapshots)
      (hentry : (snapshots.map sha256, value) ∈ (s.caches call.request.cache).items) :
      Change s (some (call.request.cache, snapshots.map sha256))
        ((s.setCache call.request.cache ((s.caches call.request.cache).toEnd (snapshots.map sha256) value)).put index
          { call with phase := .answered (.ok value) })
  | miss {index : Nat} {call : ToolCall ν} {snapshots : List Content}
      (hcall : s.calls[index]? = some call) (hphase : call.phase = .lookingUp snapshots) :
      Change s none (s.put index { call with phase := .computing snapshots })
  | computed {index : Nat} {call : ToolCall ν} {snapshots : List Content} {value : ν call.request.cache}
      (hcall : s.calls[index]? = some call) (hphase : call.phase = .computing snapshots)
      (hvalue : compute call.request.cache snapshots = .ok value) :
      Change s none (s.put index { call with phase := .storing snapshots value })
  | raised {index : Nat} {call : ToolCall ν} {snapshots : List Content} {error : ToolError}
      (hcall : s.calls[index]? = some call) (hphase : call.phase = .computing snapshots)
      (herror : compute call.request.cache snapshots = .error error) :
      Change s none (s.put index { call with phase := .answered (.error error) })
  | stored {index : Nat} {call : ToolCall ν} {snapshots : List Content} {value : ν call.request.cache}
      (hcall : s.calls[index]? = some call) (hphase : call.phase = .storing snapshots value) :
      Change s (some (call.request.cache, snapshots.map sha256))
        ((s.setCache call.request.cache
            ((s.caches call.request.cache).put cacheMaxEntries (snapshots.map sha256) value)).put index
          { call with phase := .answered (.ok value) })

/-- The entry that a step uses: one that is found, or one that is stored. -/
def used (s : McpServer ν) : McpAction → Option (McpCache × List String)
  | .lookUp index =>
    match s.calls[index]? with
    | some ⟨request, _, .lookingUp snapshots⟩ =>
      if snapshots.map sha256 ∈ (s.caches request.cache).keys then some (request.cache, snapshots.map sha256) else none
    | _ => none
  | .store index =>
    match s.calls[index]? with
    | some ⟨request, _, .storing snapshots _⟩ => some (request.cache, snapshots.map sha256)
    | _ => none
  | _ => none

theorem change_step (s : McpServer ν) (action : McpAction) :
    Change sandbox sha256 compute demoSnapshots s (used sha256 s action)
      (step sandbox sha256 compute demoSnapshots s action) := by
  cases action with
  | call request => exact .call request
  | read index replies =>
      show Change _ _ _ _ s none _
      dsimp only [step]
      cases hcall : s.calls[index]? with
      | none => exact .idle
      | some call =>
          dsimp only [perform]
          split
          · exact .read hcall ‹_› ‹_›
          · exact .notRead hcall ‹_› ‹_›
          · exact .idle
  | compute index =>
      show Change _ _ _ _ s none _
      dsimp only [step]
      cases hcall : s.calls[index]? with
      | none => exact .idle
      | some call =>
          dsimp only [perform]
          split
          · split
            · exact .computed hcall ‹_› ‹_›
            · exact .raised hcall ‹_› ‹_›
          · exact .idle
  | lookUp index =>
      dsimp only [step, used]
      cases hcall : s.calls[index]? with
      | none => exact .idle
      | some call =>
          obtain ⟨request, replies, phase⟩ := call
          cases phase with
          | lookingUp snapshots =>
              dsimp only [perform]
              cases hget : (s.caches request.cache).get (snapshots.map sha256) with
              | mk found cache =>
                  cases found with
                  | some value =>
                      obtain ⟨hentry, rfl⟩ := Lru.get_some hget
                      have hkey : snapshots.map sha256 ∈ (s.caches request.cache).keys := List.mem_map.mpr ⟨_, hentry, rfl⟩
                      rw [if_pos hkey]
                      exact .hit hcall rfl hentry
                  | none =>
                      rw [if_neg (Lru.get_none hget).1]
                      exact .miss hcall rfl
          | _ => exact .idle
  | store index =>
      dsimp only [step, used]
      cases hcall : s.calls[index]? with
      | none => exact .idle
      | some call =>
          obtain ⟨request, replies, phase⟩ := call
          cases phase with
          | storing snapshots value => exact .stored hcall rfl
          | _ => exact .idle

/-! ## What is known -/

/-- The contents that a call of a cache has read. -/
def Known (s : McpServer ν) (cache : McpCache) (contents : List Content) : Prop :=
  ∃ call ∈ s.calls, call.phase.hasRead = true ∧ call.request.cache = cache ∧
    contentsOf sandbox demoSnapshots call.request call.replies = some (.ok contents)

/-- What a phase of a call says, where some contents are known. -/
def PhaseSound (known : List Content → Prop) (request : McpRequest) (replies : List ReadReply) :
    ToolPhase (ν request.cache) → Prop
  | .reading => True
  | .lookingUp snapshots | .computing snapshots =>
    contentsOf sandbox demoSnapshots request replies = some (.ok snapshots)
  | .storing snapshots value =>
    contentsOf sandbox demoSnapshots request replies = some (.ok snapshots) ∧
      compute request.cache snapshots = .ok value
  | .answered answer =>
    (∃ error, contentsOf sandbox demoSnapshots request replies = some (.error error) ∧ answer = .error error) ∨
      ∃ snapshots, contentsOf sandbox demoSnapshots request replies = some (.ok snapshots) ∧
        ∃ contents, known contents ∧ contents.map sha256 = snapshots.map sha256 ∧
          compute request.cache contents = answer

/-- An entry is what is made of known contents, and so is what a call answers. -/
structure Sound (s : McpServer ν) : Prop where
  entries : ∀ cache, ∀ entry ∈ (s.caches cache).items, ∃ contents, Known sandbox demoSnapshots s cache contents ∧
    entry.1 = contents.map sha256 ∧ compute cache contents = .ok entry.2
  calls : ∀ call ∈ s.calls, PhaseSound sandbox sha256 compute demoSnapshots
    (Known sandbox demoSnapshots s call.request.cache) call.request call.replies call.phase

variable {sandbox sha256 compute demoSnapshots}

theorem PhaseSound.mono {known known' : List Content → Prop} {request : McpRequest} {replies : List ReadReply}
    {phase : ToolPhase (ν request.cache)} (hmono : ∀ contents, known contents → known' contents)
    (h : PhaseSound sandbox sha256 compute demoSnapshots known request replies phase) :
    PhaseSound sandbox sha256 compute demoSnapshots known' request replies phase := by
  cases phase with
  | answered answer =>
      rcases h with herror | ⟨snapshots, hcontents, contents, hknown, hdigest, hanswer⟩
      · exact Or.inl herror
      · exact Or.inr ⟨snapshots, hcontents, contents, hmono contents hknown, hdigest, hanswer⟩
  | _ => exact h

section Put

variable {s : McpServer ν} {index : Nat} {call call' : ToolCall ν}

theorem caches_setCache_self {cache : McpCache} (c : Lru (List String) (ν cache)) :
    (s.setCache cache c).caches cache = c := by
  simp [setCache]

theorem caches_setCache_ne {cache cache' : McpCache} (h : cache' ≠ cache) (c : Lru (List String) (ν cache)) :
    (s.setCache cache c).caches cache' = s.caches cache' := by
  simp [setCache, h]

theorem mem_put {c : ToolCall ν} (h : c ∈ (s.put index call').calls) :
    c = call' ∨ c ∈ s.calls := (List.mem_or_eq_of_mem_set h).symm

/-- A call that goes on knows what it knew. -/
theorem Known.put (hcall : s.calls[index]? = some call) (hrequest : call'.request = call.request)
    (hread : call.phase.hasRead = true → call'.phase.hasRead = true ∧ call'.replies = call.replies) {cache : McpCache}
    {contents : List Content} (h : Known sandbox demoSnapshots s cache contents) :
    Known sandbox demoSnapshots (s.put index call') cache contents := by
  obtain ⟨c, hc, hhas, hcache, hcontents⟩ := h
  obtain ⟨i, hi⟩ := List.mem_iff_getElem?.mp hc
  by_cases hindex : index = i
  · subst hindex
    obtain rfl := Option.some.inj (hcall.symm.trans hi)
    obtain ⟨hhas', hreplies⟩ := hread hhas
    refine ⟨call', List.mem_set (List.getElem?_eq_some_iff.mp hcall).1 call', hhas', hrequest ▸ hcache, ?_⟩
    rw [hrequest, hreplies, hcontents]
  · refine ⟨c, List.mem_iff_getElem?.mpr ⟨i, ?_⟩, hhas, hcache, hcontents⟩
    exact (List.getElem?_set_ne hindex).trans hi

/-- A call that goes on, with what is in the caches as sound as before. -/
theorem Sound.put (h : Sound sandbox sha256 compute demoSnapshots s) (hcall : s.calls[index]? = some call)
    (hrequest : call'.request = call.request)
    (hread : call.phase.hasRead = true → call'.phase.hasRead = true ∧ call'.replies = call.replies)
    (hsound : PhaseSound sandbox sha256 compute demoSnapshots (Known sandbox demoSnapshots s call'.request.cache)
      call'.request call'.replies call'.phase) :
    Sound sandbox sha256 compute demoSnapshots (s.put index call') where
  entries := by
    intro cache entry hentry
    obtain ⟨contents, hknown, hkey, hvalue⟩ := h.entries cache entry hentry
    exact ⟨contents, hknown.put hcall hrequest hread, hkey, hvalue⟩
  calls := by
    intro c hc
    rcases mem_put hc with rfl | hmem
    · exact hsound.mono fun contents hknown => hknown.put hcall hrequest hread
    · exact (h.calls c hmem).mono fun contents hknown => hknown.put hcall hrequest hread

theorem Known.own (hcall : s.calls[index]? = some call) (hread : call.phase.hasRead = true) {contents : List Content}
    (h : contentsOf sandbox demoSnapshots call.request call.replies = some (.ok contents)) :
    Known sandbox demoSnapshots s call.request.cache contents := ⟨call, List.mem_of_getElem? hcall, hread, rfl, h⟩

/-- A cache that gets an entry of what a call has made. -/
theorem Sound.setCache (h : Sound sandbox sha256 compute demoSnapshots s) {cache : McpCache}
    {c : Lru (List String) (ν cache)}
    (hentries : ∀ entry ∈ c.items, entry ∈ (s.caches cache).items ∨
      ∃ contents, Known sandbox demoSnapshots s cache contents ∧ entry.1 = contents.map sha256 ∧
        compute cache contents = .ok entry.2) :
    Sound sandbox sha256 compute demoSnapshots (s.setCache cache c) where
  entries := by
    intro cache' entry hentry
    by_cases hsame : cache' = cache
    · subst hsame
      rw [caches_setCache_self] at hentry
      rcases hentries entry hentry with hold | hnew
      · exact h.entries cache' entry hold
      · exact hnew
    · rw [caches_setCache_ne hsame] at hentry
      exact h.entries cache' entry hentry
  calls := h.calls

end Put

theorem Sound.change {s s' : McpServer ν} {use : Option (McpCache × List String)}
    (h : Sound sandbox sha256 compute demoSnapshots s) (hchange : Change sandbox sha256 compute demoSnapshots s use s') :
    Sound sandbox sha256 compute demoSnapshots s' := by
  cases hchange with
  | idle => exact h
  | call request =>
      have hmono : ∀ cache contents, Known sandbox demoSnapshots s cache contents →
          Known sandbox demoSnapshots { s with calls := s.calls ++ [⟨request, [], .reading⟩] } cache contents := by
        rintro cache contents ⟨c, hc, hrest⟩
        exact ⟨c, List.mem_append_left _ hc, hrest⟩
      refine ⟨fun cache entry hentry => ?_, fun c hc => ?_⟩
      · obtain ⟨contents, hknown, hrest⟩ := h.entries cache entry hentry
        exact ⟨contents, hmono _ _ hknown, hrest⟩
      · rcases List.mem_append.mp hc with hold | hnew
        · exact (h.calls c hold).mono (hmono _)
        · obtain rfl := List.mem_singleton.mp hnew
          exact trivial
  | @read index call _ _ hcall hphase hcontents =>
      exact h.put hcall rfl (fun hread => by rw [hphase] at hread; cases hread) hcontents
  | @notRead index call _ error hcall hphase hcontents =>
      exact h.put hcall rfl (fun hread => by rw [hphase] at hread; cases hread) (Or.inl ⟨error, hcontents, rfl⟩)
  | @miss index call snapshots hcall hphase =>
      have hsound := h.calls call (List.mem_of_getElem? hcall)
      rw [hphase] at hsound
      exact h.put hcall rfl (fun _ => ⟨rfl, rfl⟩) hsound
  | @computed index call snapshots value hcall hphase hvalue =>
      have hsound := h.calls call (List.mem_of_getElem? hcall)
      rw [hphase] at hsound
      exact h.put hcall rfl (fun _ => ⟨rfl, rfl⟩) ⟨hsound, hvalue⟩
  | @raised index call snapshots error hcall hphase herror =>
      have hsound := h.calls call (List.mem_of_getElem? hcall)
      rw [hphase] at hsound
      have hknown := Known.own hcall (by rw [hphase]; rfl) hsound
      exact h.put hcall rfl (fun _ => ⟨rfl, rfl⟩) (Or.inr ⟨snapshots, hsound, snapshots, hknown, rfl, herror⟩)
  | @hit index call snapshots value hcall hphase hentry =>
      have hsound := h.calls call (List.mem_of_getElem? hcall)
      rw [hphase] at hsound
      obtain ⟨contents, hknown, hdigest, hvalue⟩ := h.entries _ _ hentry
      have hcache := h.setCache (c := (s.caches call.request.cache).toEnd (snapshots.map sha256) value) fun entry hmem => by
        rcases Lru.mem_toEnd hmem with hold | rfl
        · exact Or.inl hold
        · exact Or.inl hentry
      exact hcache.put hcall rfl (fun _ => ⟨rfl, rfl⟩)
        (Or.inr ⟨snapshots, hsound, contents, hknown, hdigest.symm, hvalue⟩)
  | @stored index call snapshots value hcall hphase =>
      have hsound := h.calls call (List.mem_of_getElem? hcall)
      rw [hphase] at hsound
      have hknown := Known.own hcall (by rw [hphase]; rfl) hsound.1
      have hcache := h.setCache (c := (s.caches call.request.cache).put cacheMaxEntries (snapshots.map sha256) value)
        fun entry hmem => by
          rcases Lru.mem_put hmem with hold | rfl
          · exact Or.inl hold
          · exact Or.inr ⟨snapshots, hknown, rfl, hsound.2⟩
      exact hcache.put hcall rfl (fun _ => ⟨rfl, rfl⟩)
        (Or.inr ⟨snapshots, hsound.1, snapshots, hknown, rfl, hsound.2⟩)

/-! ## What is remembered -/

theorem Change.remembers {s s' : McpServer ν} {use : Option (McpCache × List String)}
    (hchange : Change sandbox sha256 compute demoSnapshots s use s') (cache : McpCache) {uses : List (List String)}
    (h : (s.caches cache).Remembers cacheMaxEntries uses) :
    (s'.caches cache).Remembers cacheMaxEntries
      (uses ++ (use.toList.filter fun use => use.1 = cache).map Prod.snd) := by
  cases hchange with
  | @hit index call snapshots value hcall hphase hentry =>
      show ((s.setCache call.request.cache _).caches cache).Remembers _ _
      by_cases hcache : call.request.cache = cache
      · subst hcache
        rw [caches_setCache_self]
        simpa using h.hit (List.mem_map.mpr ⟨_, hentry, rfl⟩) value
      · rw [caches_setCache_ne (Ne.symm hcache)]
        simpa [hcache] using h
  | @stored index call snapshots value hcall hphase =>
      show ((s.setCache call.request.cache _).caches cache).Remembers _ _
      by_cases hcache : call.request.cache = cache
      · subst hcache
        rw [caches_setCache_self]
        simpa using h.put _ value
      · rw [caches_setCache_ne (Ne.symm hcache)]
        simpa [hcache] using h
  | _ => exact (List.append_nil uses).symm ▸ h

variable (sandbox sha256 compute demoSnapshots)

/-- The entries of a cache that a run uses, each when it is found or stored. -/
def usesIn (cache : McpCache) : McpServer ν → List McpAction → List (List String)
  | _, [] => []
  | s, action :: actions =>
    ((used sha256 s action).toList.filter fun use => use.1 = cache).map Prod.snd ++
      usesIn cache (step sandbox sha256 compute demoSnapshots s action) actions

theorem remembers_run (cache : McpCache) {s : McpServer ν} {uses : List (List String)}
    (h : (s.caches cache).Remembers cacheMaxEntries uses) (actions : List McpAction) :
    ((run (step sandbox sha256 compute demoSnapshots) s actions).caches cache).Remembers cacheMaxEntries
      (uses ++ usesIn sandbox sha256 compute demoSnapshots cache s actions) := by
  induction actions generalizing s uses with
  | nil => exact (List.append_nil uses).symm ▸ h
  | cons action actions ih =>
      rw [run_cons, usesIn, ← List.append_assoc]
      exact ih ((change_step sandbox sha256 compute demoSnapshots s action).remembers cache h)

/-- What a call answers without a cache, when the system answers so. -/
def plainAnswer (request : McpRequest) (replies : List ReadReply) : Option (Except ToolError (ν request.cache)) :=
  (contentsOf sandbox demoSnapshots request replies).map fun contents => contents.bind (compute request.cache)

/-- Two contents that were read have the same digest. -/
def Collision (s : McpServer ν) : Prop :=
  ∃ cache contents contents', Known sandbox demoSnapshots s cache contents ∧
    Known sandbox demoSnapshots s cache contents' ∧
      ∃ x ∈ contents, ∃ y ∈ contents', x ≠ y ∧ sha256 x = sha256 y

theorem eq_or_collision {contents contents' : List Content} (h : contents.map sha256 = contents'.map sha256) :
    contents = contents' ∨ ∃ x ∈ contents, ∃ y ∈ contents', x ≠ y ∧ sha256 x = sha256 y := by
  induction contents generalizing contents' with
  | nil => exact Or.inl (List.map_eq_nil_iff.mp h.symm).symm
  | cons x contents ih =>
      cases contents' with
      | nil => cases h
      | cons y contents' =>
          obtain ⟨hfirst, hrest⟩ := List.cons.inj h
          by_cases hxy : x = y
          · rcases ih hrest with rfl | ⟨x', hx', y', hy', hcollision⟩
            · exact Or.inl (hxy ▸ rfl)
            · exact Or.inr ⟨x', List.mem_cons_of_mem _ hx', y', List.mem_cons_of_mem _ hy', hcollision⟩
          · exact Or.inr ⟨x, List.mem_cons_self, y, List.mem_cons_self, hxy, hfirst⟩

end McpServer

open McpServer in
/-- **The cache is not seen.** In any run of calls of tools, side by side, over files that may be written meanwhile, a
    call answers what it would answer without a cache on what it has read, unless two contents that were read have the
    same digest; what it has read is what was in the files, if they were not written meanwhile, and is none of a file
    outside the data directory of a sandbox. A cache holds the sixteen entries that were used last. -/
theorem mcp_answers {ν : McpCache → Type} (sandbox : McpSandbox) (sha256 : Content → String)
    (compute : (cache : McpCache) → List Content → Except ToolError (ν cache))
    (demoSnapshots : Except ToolError (List Content)) (actions : List McpAction) :
    let s := run (step sandbox sha256 compute demoSnapshots) {} actions
    (∀ call ∈ s.calls, ∀ answer, call.phase = .answered answer →
      plainAnswer sandbox compute demoSnapshots call.request call.replies = some answer ∨
        Collision sandbox sha256 demoSnapshots s) ∧
      (∀ call ∈ s.calls, ∀ inputs, call.request.inputs sandbox = .ok inputs →
        (sandbox.sandboxed = true → ∀ input ∈ inputs, sandbox.Inside input.path) ∧
          (∀ contents, snapshotInputs inputs call.replies = some (.ok contents) →
            ∀ content ∈ contents, content.length ≤ maxInputBytes) ∧
          ∀ contents, inputs.length = contents.length → McpInput.ServesAll contents call.replies →
            snapshotInputs inputs call.replies = some (.ok contents)) ∧
      ∀ cache, (s.caches cache).items.length ≤ cacheMaxEntries ∧
        (s.caches cache).keys =
          (usesIn sandbox sha256 compute demoSnapshots cache {} actions).dedup.rtake cacheMaxEntries := by
  have hsound : Sound sandbox sha256 compute demoSnapshots (run (step sandbox sha256 compute demoSnapshots) {} actions) := by
    refine run_keeps _ (fun s action h => h.change (change_step sandbox sha256 compute demoSnapshots s action)) ?_ actions
    exact ⟨fun _ _ h => absurd h List.not_mem_nil, fun _ h => absurd h List.not_mem_nil⟩
  refine ⟨fun call hcall answer hanswer => ?_, fun call hcall inputs hinputs => ?_, fun cache => ?_⟩
  · have hphase := hsound.calls call hcall
    rw [hanswer] at hphase
    rcases hphase with ⟨error, hcontents, rfl⟩ | ⟨snapshots, hcontents, contents, hknown, hdigest, rfl⟩
    · left
      rw [plainAnswer, hcontents]
      rfl
    · rcases eq_or_collision sha256 hdigest with rfl | hcollision
      · left
        rw [plainAnswer, hcontents]
        rfl
      · right
        have hown : Known sandbox demoSnapshots _ call.request.cache snapshots :=
          ⟨call, hcall, by rw [hanswer]; rfl, rfl, hcontents⟩
        exact ⟨_, contents, snapshots, hknown, hown, hcollision⟩
  · exact ⟨fun hsandboxed => McpRequest.inputs_inside hsandboxed hinputs, fun contents => snapshotInputs_length,
      fun contents hlength => snapshotInputs_servesAll hlength⟩
  · have hremembers := remembers_run sandbox sha256 compute demoSnapshots cache (Lru.Remembers.empty cacheMaxEntries) actions
      (s := {})
    exact ⟨hremembers.length_le, hremembers⟩

end Untangle
