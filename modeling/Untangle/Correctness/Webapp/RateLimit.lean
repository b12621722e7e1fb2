import Mathlib.Data.Finset.Card
import Untangle.Lib.Runs
import Untangle.Webapp.RateLimit

/-!
# `Correctness.Webapp.RateLimit` — the rate limit is a sliding window

The plain sliding window remembers every visit and lets a client through if fewer than `rateLimit` of its visits were
let through in the last minute. The buckets remember less: a visit that has left the window is dropped when its client
comes again, and the client that was let through longest ago is forgotten when there are too many. What has been
forgotten (`Tracked.remembers`) has left the window, or so many other clients have been let through since then as there
are buckets. So the answers are those of the sliding window, unless that many other clients were let through in the
last minute; and a client is never refused that the sliding window lets through.
-/

namespace Untangle

open Lib

/-! ## Visits -/

/-- A visit to a limited path, with the time at which it is looked at. -/
structure Visit where
  client : String
  time : ℚ
deriving DecidableEq

/-- The buckets, with every visit so far and whether it was let through. -/
structure RateState where
  buckets : RateBuckets := Dict.empty
  log : List (Visit × Bool) := []
  raised : Bool := false

/-- The middleware on a visit. -/
def RateState.visit (s : RateState) (v : Visit) : RateState :=
  match s.buckets.letThrough v.client v.time with
  | some (buckets, admitted) => { s with buckets := buckets, log := s.log ++ [(v, admitted)] }
  | none => { s with raised := true }

section Log

variable (log : List (Visit × Bool))

/-- When a client was let through. -/
def admittedTimes (client : String) : List ℚ := (log.filter fun e => e.2 && e.1.client = client).map fun e => e.1.time

/-- The plain sliding window. -/
def slidingWindow (v : Visit) : Bool := ((admittedTimes log v.client).filter (inWindow v.time)).length < rateLimit

/-- The other clients that were let through at some times. -/
def othersAt (client : String) (during : ℚ → Bool) : Finset String :=
  ((log.filter fun e => e.2 && e.1.client ≠ client && during e.1.time).map fun e => e.1.client).toFinset

/-- As many other clients as there are buckets were let through in the last minute. -/
def Crowded (v : Visit) : Prop := maxBuckets ≤ (othersAt log v.client (inWindow v.time)).card

end Log

section Lemmas

variable {log : List (Visit × Bool)} {client : String} {s : RateState} {v : Visit} {clock now t t' : ℚ}

/-! ## Windows -/

/-- What is in the window is in every earlier one, and so is what came after it. -/
theorem inWindow_mono {now' : ℚ} (ht : t ≤ t') (ht' : t' ≤ now) (hnow : now ≤ now') (h : inWindow now' t = true) :
    inWindow now t' = true := by
  have hround : nearest (now - t') ≤ nearest (now' - t) := nearest_mono (by linarith) (by linarith)
  exact decide_eq_true (hround.trans_lt (of_decide_eq_true h))

/-- Of times in order, those in a window are the last ones. -/
theorem exists_expired {p : ℚ → Bool} {times : List ℚ} (hsorted : times.Pairwise (· ≤ ·))
    (hp : ∀ t ∈ times, ∀ t' ∈ times, t ≤ t' → p t = true → p t' = true) :
    ∃ expired, times = expired ++ times.filter p ∧ ∀ t ∈ expired, p t = false := by
  induction times with
  | nil => exact ⟨[], rfl, by simp⟩
  | cons t times ih =>
      obtain ⟨hfirst, hrest⟩ := List.pairwise_cons.mp hsorted
      cases ht : p t with
      | true =>
          have hall : (t :: times).filter p = t :: times := by
            refine List.filter_eq_self.mpr fun t' ht' => ?_
            rcases List.mem_cons.mp ht' with rfl | hmem
            · exact ht
            · exact hp t List.mem_cons_self t' (List.mem_cons_of_mem _ hmem) (hfirst t' hmem) ht
          exact ⟨[], by rw [hall, List.nil_append], by simp⟩
      | false =>
          obtain ⟨expired, htimes, hexpired⟩ := ih hrest fun a ha b hb =>
            hp a (List.mem_cons_of_mem _ ha) b (List.mem_cons_of_mem _ hb)
          refine ⟨t :: expired, ?_, List.forall_mem_cons.mpr ⟨ht, hexpired⟩⟩
          rw [List.filter_cons_of_neg (by simp [ht]), List.cons_append, ← htimes]

theorem le_getLastD {times : List ℚ} (hsorted : times.Pairwise (· ≤ ·)) (ht : t ∈ times) : t ≤ times.getLastD 0 := by
  have hne : times ≠ [] := List.ne_nil_of_mem ht
  rw [List.getLastD_eq_getLast?, List.getLast?_eq_some_getLast hne, Option.getD_some]
  rw [← List.dropLast_append_getLast hne] at hsorted ht
  rcases List.mem_append.mp ht with hmem | hmem
  · exact (List.pairwise_append.mp hsorted).2.2 t hmem _ (List.mem_singleton_self _)
  · exact (List.mem_singleton.mp hmem).le

/-! ## The log -/

theorem mem_admittedTimes : t ∈ admittedTimes log client ↔ ∃ e ∈ log, e.2 = true ∧ e.1.client = client ∧ e.1.time = t := by
  simp [admittedTimes, and_assoc]

theorem mem_othersAt {during : ℚ → Bool} {other : String} :
    other ∈ othersAt log client during ↔
      ∃ e ∈ log, e.2 = true ∧ e.1.client ≠ client ∧ during e.1.time = true ∧ e.1.client = other := by
  simp [othersAt, and_assoc]

theorem admittedTimes_append (v : Visit) (admitted : Bool) :
    admittedTimes (log ++ [(v, admitted)]) client =
      admittedTimes log client ++ if admitted && v.client = client then [v.time] else [] := by
  unfold admittedTimes
  rw [List.filter_append, List.map_append]
  congr 1
  by_cases h : (admitted && v.client = client) = true
  · rw [if_pos h, List.filter_cons_of_pos (by exact h)]
    rfl
  · rw [if_neg h, List.filter_cons_of_neg (by exact h)]
    rfl

theorem othersAt_mono {log' : List (Visit × Bool)} {during during' : ℚ → Bool} (hlog : ∀ e ∈ log, e ∈ log')
    (hduring : ∀ e ∈ log, during e.1.time = true → during' e.1.time = true) :
    othersAt log client during ⊆ othersAt log' client during' := by
  intro other hother
  obtain ⟨e, he, hadmitted, hclient, htime, rfl⟩ := mem_othersAt.mp hother
  exact mem_othersAt.mpr ⟨e, hlog e he, hadmitted, hclient, hduring e he htime, rfl⟩

theorem admittedTimes_sorted (hsorted : log.Pairwise fun e e' => e.1.time ≤ e'.1.time) :
    (admittedTimes log client).Pairwise (· ≤ ·) :=
  List.pairwise_map.mpr (hsorted.sublist List.filter_sublist)

/-! ## Eviction -/

/-- What making room for a client does to the buckets. -/
inductive Evicted (buckets : RateBuckets) (client : String) : RateBuckets → Prop
  | nobody (h : client ∈ buckets.keys ∨ buckets.items.length < maxBuckets) : Evicted buckets client buckets
  | one {victim : String} {values : List ℚ} (hnew : client ∉ buckets.keys) (hfull : maxBuckets ≤ buckets.items.length)
      (hvictim : buckets.get? victim = some values)
      (holdest : ∀ other times, buckets.get? other = some times → values.getLastD 0 ≤ times.getLastD 0) :
      Evicted buckets client (buckets.remove victim)

theorem evict_spec {buckets : RateBuckets} (hne : ∀ client values, buckets.get? client = some values → values ≠ [])
    (client : String) : ∃ buckets', buckets.evict client = some buckets' ∧ Evicted buckets client buckets' := by
  unfold RateBuckets.evict
  by_cases hfull : maxBuckets ≤ buckets.items.length ∧ client ∉ buckets.keys
  · rw [if_pos hfull]
    have hnone : (buckets.items.any fun entry => entry.2.isEmpty) = false := by
      rw [List.any_eq_false]
      rintro ⟨key, values⟩ hmem
      simpa using hne key values (Dict.get?_of_mem hmem)
    obtain ⟨⟨victim, values⟩, hmin⟩ : ∃ entry, buckets.items.argmin (fun entry => entry.2.getLastD 0) = some entry := by
      refine Option.ne_none_iff_exists'.mp fun hmin => ?_
      have hpos : 0 < buckets.items.length := lt_of_lt_of_le (by decide) hfull.1
      rw [List.argmin_eq_none.mp hmin] at hpos
      exact absurd hpos (Nat.lt_irrefl 0)
    refine ⟨buckets.remove victim, ?_, ?_⟩
    · rw [RateBuckets.oldest, if_neg (by rw [hnone]; exact Bool.false_ne_true), hmin]
      rfl
    · refine Evicted.one hfull.2 hfull.1 (Dict.get?_of_mem (List.argmin_mem hmin)) fun other times hother => ?_
      exact List.le_of_mem_argmin (f := fun entry : String × List ℚ => entry.2.getLastD 0)
        (Dict.get?_eq_some.mp hother) hmin
  · rw [if_neg hfull]
    refine ⟨buckets, rfl, Evicted.nobody ?_⟩
    rcases not_and_or.mp hfull with hroom | hold
    · exact Or.inr (by omega)
    · exact Or.inl (not_not.mp hold)

theorem Evicted.get?_self {buckets buckets' : RateBuckets} (h : Evicted buckets client buckets') :
    buckets'.get? client = buckets.get? client := by
  cases h with
  | nobody => rfl
  | one hnew _ hvictim =>
      refine (Files.get?_unlink buckets _ client).trans (if_neg ?_)
      rintro rfl
      exact hnew (Dict.mem_keys_of_get? hvictim)

theorem length_insert (buckets : RateBuckets) (client : String) (values : List ℚ) :
    (Dict.insert buckets client values).items.length =
      if client ∈ buckets.keys then buckets.items.length else buckets.items.length + 1 := by
  have hkeys := congrArg List.length (Dict.map_fst_upsertItems client (fun _ => values) buckets.items)
  rw [List.length_map] at hkeys
  refine hkeys.trans ?_
  show (if client ∈ buckets.items.map Prod.fst then _ else _ : List String).length = _
  unfold Dict.keys
  split
  · rw [List.length_map]
  · rw [List.length_append, List.length_map, List.length_singleton]

/-- There is room for the client afterwards. -/
theorem Evicted.length_insert_le {buckets buckets' : RateBuckets} (h : Evicted buckets client buckets')
    (hroom : buckets.items.length ≤ maxBuckets) (values : List ℚ) :
    buckets'.items.length ≤ maxBuckets ∧ (Dict.insert buckets' client values).items.length ≤ maxBuckets := by
  rw [length_insert]
  cases h with
  | nobody hold =>
      refine ⟨hroom, ?_⟩
      split
      · exact hroom
      · rename_i hnew
        exact hold.resolve_left hnew
  | @one victim values _ _ hvictim =>
      have hlt : (buckets.remove victim).items.length < buckets.items.length :=
        List.length_filter_lt_length_iff_exists.mpr ⟨(victim, values), Dict.get?_eq_some.mp hvictim, by simp⟩
      refine ⟨by omega, ?_⟩
      split <;> omega

/-! ## What is remembered -/

/-- What the buckets say about the visits so far, the last of which was at some time. -/
structure Tracked (s : RateState) (clock : ℚ) : Prop where
  raised : s.raised = false
  past : ∀ e ∈ s.log, e.1.time ≤ clock
  sorted : s.log.Pairwise fun e e' => e.1.time ≤ e'.1.time
  room : s.buckets.items.length ≤ maxBuckets
  bucket : ∀ client values, s.buckets.get? client = some values → values ≠ [] ∧ values.length ≤ rateLimit
  /-- What is forgotten has left the window, or as many others as there are buckets have come since. -/
  remembers : ∀ client, ∃ forgotten,
    admittedTimes s.log client = forgotten ++ (s.buckets.get? client).getD [] ∧
      ∀ t ∈ forgotten, inWindow clock t = false ∨ maxBuckets ≤ (othersAt s.log client fun t' => t ≤ t').card

theorem Tracked.mem_admittedTimes (h : Tracked s clock) (ht : t ∈ (s.buckets.get? client).getD []) :
    t ∈ admittedTimes s.log client := by
  obtain ⟨forgotten, hsplit, _⟩ := h.remembers client
  rw [hsplit]
  exact List.mem_append_right _ ht

theorem Tracked.admittedTimes_le (h : Tracked s clock) (ht : t ∈ admittedTimes s.log client) : t ≤ clock := by
  obtain ⟨e, he, _, _, rfl⟩ := Untangle.mem_admittedTimes.mp ht
  exact h.past e he

theorem Tracked.bucket_sorted (h : Tracked s clock) : ((s.buckets.get? client).getD []).Pairwise (· ≤ ·) := by
  obtain ⟨forgotten, hsplit, _⟩ := h.remembers client
  have hsorted : (admittedTimes s.log client).Pairwise (· ≤ ·) := admittedTimes_sorted h.sorted
  rw [hsplit] at hsorted
  exact (List.pairwise_append.mp hsorted).2.1

/-- The times in the bucket of the client that are in the window. -/
def RateState.recent (s : RateState) (v : Visit) : List ℚ :=
  ((s.buckets.get? v.client).getD []).filter (inWindow v.time)

/-- A visit, in terms of the buckets before it. -/
theorem Tracked.visit_eq (h : Tracked s clock) (v : Visit) :
    ∃ buckets, Evicted s.buckets v.client buckets ∧
      s.visit v =
        { buckets := Dict.insert buckets v.client
            (if rateLimit ≤ (s.recent v).length then s.recent v else s.recent v ++ [v.time])
          log := s.log ++ [(v, decide ((s.recent v).length < rateLimit))]
          raised := s.raised } := by
  obtain ⟨buckets, hevict, hevicted⟩ := evict_spec (fun client values hv => (h.bucket client values hv).1) v.client
  refine ⟨buckets, hevicted, ?_⟩
  have hpurge : buckets.purge v.time = buckets :=
    if_neg (Nat.not_lt.mpr (hevicted.length_insert_le h.room []).1)
  have hrecent : ((buckets.get? v.client).getD []).filter (inWindow v.time) = s.recent v := by
    rw [hevicted.get?_self]
    rfl
  unfold RateState.visit RateBuckets.letThrough
  rw [hevict, Option.map_some]
  dsimp only
  rw [hpurge, hrecent]
  by_cases hfull : rateLimit ≤ (s.recent v).length
  · rw [if_pos hfull, if_pos hfull, decide_eq_false (Nat.not_lt.mpr hfull)]
  · rw [if_neg hfull, if_neg hfull, decide_eq_true (Nat.not_le.mp hfull)]

/-- Whoever is forgotten was let through before as many others as there are buckets. -/
theorem Tracked.crowded (h : Tracked s clock) {victim : String} {values : List ℚ} (hnew : v.client ∉ s.buckets.keys)
    (hfull : maxBuckets ≤ s.buckets.items.length) (hvictim : s.buckets.get? victim = some values)
    (holdest : ∀ other times, s.buckets.get? other = some times → values.getLastD 0 ≤ times.getLastD 0)
    (ht : t ≤ values.getLastD 0) (hv : t ≤ v.time) :
    maxBuckets ≤ (othersAt (s.log ++ [(v, true)]) victim fun t' => t ≤ t').card := by
  have hmem := Dict.mem_keys_of_get? hvictim
  have hnodup : s.buckets.keys.Nodup := s.buckets.nodup_keys
  have hsubset : insert v.client (s.buckets.keys.toFinset.erase victim) ⊆
      othersAt (s.log ++ [(v, true)]) victim fun t' => t ≤ t' := by
    intro other hother
    rcases Finset.mem_insert.mp hother with rfl | hold
    · refine mem_othersAt.mpr ⟨(v, true), by simp, rfl, ?_, decide_eq_true hv, rfl⟩
      rintro rfl
      exact hnew hmem
    · obtain ⟨hne, hkey⟩ := Finset.mem_erase.mp hold
      obtain ⟨times, htimes⟩ := Dict.exists_get?_of_mem_keys (List.mem_toFinset.mp hkey)
      have hlast : times.getLastD 0 ∈ (s.buckets.get? other).getD [] := by
        rw [htimes, Option.getD_some, List.getLastD_eq_getLast?,
          List.getLast?_eq_some_getLast (h.bucket other times htimes).1]
        exact List.getLast_mem _
      obtain ⟨e, he, hadmitted, rfl, htime⟩ := Untangle.mem_admittedTimes.mp (h.mem_admittedTimes hlast)
      refine mem_othersAt.mpr ⟨e, List.mem_append_left _ he, hadmitted, hne, decide_eq_true ?_, rfl⟩
      rw [htime]
      exact ht.trans (holdest e.1.client times htimes)
  have hcard : (insert v.client (s.buckets.keys.toFinset.erase victim)).card = s.buckets.items.length := by
    have hnotMem : v.client ∉ s.buckets.keys.toFinset.erase victim :=
      fun hin => hnew (List.mem_toFinset.mp (Finset.mem_of_mem_erase hin))
    have hlength : s.buckets.keys.length = s.buckets.items.length := List.length_map _
    have hpos : 0 < s.buckets.keys.length := List.length_pos_of_mem hmem
    rw [Finset.card_insert_of_notMem hnotMem, Finset.card_erase_of_mem (List.mem_toFinset.mpr hmem),
      List.toFinset_card_of_nodup hnodup]
    omega
  rw [← hcard] at hfull
  exact hfull.trans (Finset.card_le_card hsubset)

/-- What is forgotten is so at every later time. -/
theorem Tracked.advance (h : Tracked s clock) (hclock : clock ≤ now) : Tracked s now := by
  refine ⟨h.raised, fun e he => (h.past e he).trans hclock, h.sorted, h.room, h.bucket, fun client => ?_⟩
  obtain ⟨forgotten, hsplit, hforgotten⟩ := h.remembers client
  refine ⟨forgotten, hsplit, fun t ht => (hforgotten t ht).imp_left fun hleft => ?_⟩
  refine Bool.eq_false_iff.mpr fun hin => ?_
  rw [inWindow_mono le_rfl (h.admittedTimes_le (hsplit ▸ List.mem_append_left _ ht)) hclock hin] at hleft
  cases hleft

/-- **A visit is tracked.** -/
theorem Tracked.visit (h : Tracked s v.time) : Tracked (s.visit v) v.time := by
  obtain ⟨buckets, hevicted, hvisit⟩ := h.visit_eq v
  rw [hvisit]
  have hrecent : (s.recent v).length ≤ rateLimit ∧ (rateLimit ≤ (s.recent v).length → s.recent v ≠ []) := by
    refine ⟨(List.length_filter_le _ _).trans ?_, fun hfull hnil => ?_⟩
    · cases hbucket : s.buckets.get? v.client with
      | none => exact Nat.zero_le _
      | some values => exact (h.bucket _ values hbucket).2
    · rw [hnil] at hfull
      exact absurd hfull (by decide)
  refine ⟨h.raised, ?_, ?_, (hevicted.length_insert_le h.room _).2, ?_, ?_⟩
  · intro e he
    rcases List.mem_append.mp he with hold | hnew
    · exact h.past e hold
    · rw [List.mem_singleton.mp hnew]
  · refine List.pairwise_append.mpr ⟨h.sorted, List.pairwise_singleton _ _, fun e he e' he' => ?_⟩
    rw [List.mem_singleton.mp he']
    exact h.past e he
  · intro client values hvalues
    rw [Dict.get?_insert] at hvalues
    split at hvalues
    · obtain rfl := Option.some.inj hvalues
      split
      · rename_i hfull
        exact ⟨hrecent.2 hfull, hrecent.1⟩
      · rename_i hfull
        refine ⟨by simp, ?_⟩
        rw [List.length_append, List.length_singleton]
        exact Nat.not_le.mp hfull
    · cases hevicted with
      | nobody => exact h.bucket client values hvalues
      | one =>
          have hold := (Files.get?_unlink s.buckets _ client).symm.trans hvalues
          split at hold
          · cases hold
          · exact h.bucket client values hold
  · intro client
    obtain ⟨forgotten, hsplit, hforgotten⟩ := h.remembers client
    have hstill : ∀ t ∈ forgotten, inWindow v.time t = false ∨
        maxBuckets ≤ (othersAt (s.log ++ [(v, decide ((s.recent v).length < rateLimit))]) client fun t' => t ≤ t').card :=
      fun t ht => (hforgotten t ht).imp_right fun hcrowded => hcrowded.trans <|
        Finset.card_le_card (othersAt_mono (fun _ he => List.mem_append_left _ he) fun _ _ htime => htime)
    dsimp only
    rw [admittedTimes_append, Dict.get?_insert, hsplit]
    by_cases hclient : client = v.client
    · -- The client itself: what has left the window is dropped from its bucket.
      subst hclient
      obtain ⟨expired, hbucket, hexpired⟩ := exists_expired (p := inWindow v.time) h.bucket_sorted
        fun t _ t' ht' hle hin => inWindow_mono hle (h.admittedTimes_le (h.mem_admittedTimes ht')) le_rfl hin
      refine ⟨forgotten ++ expired, ?_, fun t ht => ?_⟩
      · rw [if_pos rfl, Option.getD_some]
        nth_rewrite 1 [hbucket]
        change forgotten ++ (expired ++ s.recent v) ++ _ = _
        by_cases hfull : rateLimit ≤ (s.recent v).length
        · rw [if_pos hfull, if_neg (by simp [hfull])]
          simp
        · rw [if_neg hfull, if_pos (by simp [Nat.not_le.mp hfull])]
          simp
      · rcases List.mem_append.mp ht with hold | hnew
        · exact hstill t hold
        · exact Or.inl (hexpired t hnew)
    · rw [if_neg hclient, if_neg (by simp [Ne.symm hclient]), List.append_nil]
      cases hevicted with
      | nobody => exact ⟨forgotten, rfl, hstill⟩
      | @one victim values hnew hfull hvictim holdest =>
          by_cases hvictim' : client = victim
          · -- The client that is forgotten.
            subst hvictim'
            have hgone : (s.buckets.remove client).get? client = none :=
              (Files.get?_unlink s.buckets client client).trans (if_pos rfl)
            have hadmitted : decide ((s.recent v).length < rateLimit) = true := by
              rw [RateState.recent, Dict.get?_eq_none.mpr hnew]
              show decide (0 < rateLimit) = true
              rfl
            refine ⟨forgotten ++ values, by rw [hgone, hvictim]; simp, fun t ht => ?_⟩
            rcases List.mem_append.mp ht with hold | hin
            · exact hstill t hold
            · have hmem : t ∈ (s.buckets.get? client).getD [] := by rw [hvictim]; exact hin
              have hsorted : ((s.buckets.get? client).getD []).Pairwise (· ≤ ·) := h.bucket_sorted
              rw [hvictim] at hsorted
              rw [hadmitted]
              exact Or.inr (h.crowded hnew hfull hvictim holdest (le_getLastD hsorted hin)
                (h.admittedTimes_le (h.mem_admittedTimes hmem)))
          · have hkept : (s.buckets.remove victim).get? client = s.buckets.get? client :=
              (Files.get?_unlink s.buckets victim client).trans (if_neg hvictim')
            exact ⟨forgotten, by rw [hkept], hstill⟩

/-! ## The answers -/

theorem tracked_initial (clock : ℚ) : Tracked {} clock where
  raised := rfl
  past := by simp
  sorted := List.Pairwise.nil
  room := Nat.zero_le _
  bucket := fun _ _ h => by cases h
  remembers := fun _ => ⟨[], rfl, by simp⟩

/-- The buckets hold no more than the sliding window counts. -/
theorem Tracked.recent_le (h : Tracked s clock) (v : Visit) :
    (s.recent v).length ≤ ((admittedTimes s.log v.client).filter (inWindow v.time)).length := by
  obtain ⟨forgotten, hsplit, _⟩ := h.remembers v.client
  rw [hsplit, List.filter_append, List.length_append]
  exact Nat.le_add_left _ _

/-- They hold as much, unless too many others have come in between. -/
theorem Tracked.recent_eq (h : Tracked s v.time) (hcrowded : ¬ Crowded s.log v) :
    s.recent v = (admittedTimes s.log v.client).filter (inWindow v.time) := by
  obtain ⟨forgotten, hsplit, hforgotten⟩ := h.remembers v.client
  have hgone : forgotten.filter (inWindow v.time) = [] := by
    refine List.filter_eq_nil_iff.mpr fun t ht hin => ?_
    rcases hforgotten t ht with hleft | hothers
    · rw [hin] at hleft
      cases hleft
    · refine hcrowded (hothers.trans (Finset.card_le_card (othersAt_mono (fun _ he => he) fun e he hsince => ?_)))
      exact inWindow_mono (of_decide_eq_true hsince) (h.past e he) le_rfl hin
  rw [hsplit, List.filter_append, hgone, List.nil_append]
  rfl

/-- What the rate limit does with a visit. -/
structure RateAnswer (s : RateState) (v : Visit) (admitted : Bool) : Prop where
  next : (s.visit v).log = s.log ++ [(v, admitted)] ∧ (s.visit v).raised = false
  /-- Nobody is refused that the sliding window lets through. -/
  lenient : slidingWindow s.log v = true → admitted = true
  /-- The answer is that of the sliding window, unless as many others as there are buckets came in the last minute. -/
  exact : ¬ Crowded s.log v → admitted = slidingWindow s.log v
  /-- The buckets stay small. -/
  small : (s.visit v).buckets.items.length ≤ maxBuckets ∧
    ∀ client values, (s.visit v).buckets.get? client = some values → values ≠ [] ∧ values.length ≤ rateLimit

theorem Tracked.answer (h : Tracked s v.time) : RateAnswer s v (decide ((s.recent v).length < rateLimit)) := by
  have hvisit := h.visit
  obtain ⟨buckets, _, heq⟩ := h.visit_eq v
  refine ⟨⟨by rw [heq], hvisit.raised⟩, fun hslides => ?_, fun hcrowded => ?_, hvisit.room, hvisit.bucket⟩
  · exact decide_eq_true ((h.recent_le v).trans_lt (of_decide_eq_true hslides))
  · rw [h.recent_eq hcrowded]
    rfl

theorem tracked_run {visits : List Visit} (hsorted : visits.Pairwise fun v v' => v.time ≤ v'.time)
    (hpast : ∀ v ∈ visits, v.time ≤ clock) : Tracked (run RateState.visit {} visits) clock := by
  induction visits using List.reverseRecOn generalizing clock with
  | nil => exact tracked_initial clock
  | append_singleton visits v ih =>
      obtain ⟨hbefore, _, hlast⟩ := List.pairwise_append.mp hsorted
      have htracked : Tracked (run RateState.visit {} visits) v.time :=
        ih hbefore fun v' hv' => hlast v' hv' v (List.mem_singleton_self v)
      rw [run_append]
      exact htracked.visit.advance (hpast v (by simp))

end Lemmas

/-- **The rate limit is a sliding window**, for any visits at times that do not go back. -/
theorem rate_limit_answers (visits : List Visit) (v : Visit)
    (hclock : (visits ++ [v]).Pairwise fun v v' => v.time ≤ v'.time) :
    ∃ admitted, RateAnswer (run RateState.visit {} visits) v admitted := by
  obtain ⟨hbefore, _, hlast⟩ := List.pairwise_append.mp hclock
  have htracked := tracked_run hbefore fun v' hv' => hlast v' hv' v (List.mem_singleton_self v)
  exact ⟨_, htracked.answer⟩

theorem rate_limit_answers_at :
    ∃ admitted, RateAnswer (run RateState.visit {} (List.replicate 20 ⟨"10.0.0.1", 5⟩)) ⟨"10.0.0.1", 64⟩ admitted :=
  rate_limit_answers (List.replicate 20 ⟨"10.0.0.1", 5⟩) ⟨"10.0.0.1", 64⟩ (by decide +kernel)

end Untangle
