import Untangle.Correctness.Verifier
import Untangle.Persistence.Listing

/-!
# `Correctness.Listing` — following the cursors of a listing

A cursor names its row exactly (`decodeCursor_encodeCursor`), so a page of a listing is a page by key of the rows that
the tenant can see (`listByCursor_page`). Between two requests a table may lose rows, hide them, change their other
columns, and gain rows that are newer than the first page; whoever follows the cursors then comes to an end and has
met every row that stayed, newest first and none twice (`listings_traversed`).
-/

namespace Untangle

open Lib

/-! ## Cursors -/

/-- The digits of a natural number. -/
theorem readDigits_toString (n : Nat) : readDigits (toString n).toList = some n := by
  unfold readDigits
  rw [if_pos ⟨toString_ne_nil n, List.all_eq_true.mpr fun c hc => isDigit_of_mem_toString hc⟩, ofDigitChars_toString]

theorem removeUnderscores_toString (n : Nat) :
    removeUnderscores false (toString n).toList = some (toString n).toList := by
  apply removeUnderscores_of_not_mem
  intro h
  exact absurd (isDigit_of_mem_toString h) (by decide)

/-- An integer is read as it was written. -/
theorem parseInt_toString (n : ℤ) : parseInt (toString n) = some n := by
  have hdigits : ∀ k : Nat, ∀ c ∈ (toString k).toList, isSpace c = false :=
    fun k c hc => isSpace_digit (isDigit_of_mem_toString hc)
  cases n with
  | ofNat k =>
      have htext : toString (Int.ofNat k) = toString k := rfl
      unfold parseInt
      rw [htext, strip_eq_self (hdigits k), readSign_digits fun c hc => isDigit_of_mem_toString (List.mem_of_mem_head? hc)]
      simp only [removeUnderscores_toString, Option.bind_eq_bind, Option.bind_some, readDigits_toString]
      rfl
  | negSucc k =>
      have htext : toString (Int.negSucc k) = "-" ++ toString (k + 1) := rfl
      have hlist : ("-" ++ toString (k + 1)).toList = '-' :: (toString (k + 1)).toList := by simp
      have hspace : ∀ c ∈ ("-" ++ toString (k + 1)).toList, isSpace c = false := by
        intro c hc
        rw [hlist] at hc
        obtain rfl | hc := List.mem_cons.mp hc
        · decide
        · exact hdigits (k + 1) c hc
      unfold parseInt
      rw [htext, strip_eq_self hspace, hlist]
      simp only [readSign, removeUnderscores_toString, Option.bind_eq_bind, Option.bind_some, readDigits_toString]
      rfl

theorem fromUTF8?_toUTF8 (s : String) : String.fromUTF8? ⟨s.toUTF8.data.toList.toArray⟩ = some s := by
  rw [Array.toArray_toList]
  unfold String.fromUTF8?
  rw [String.toUTF8_eq_toByteArray, dif_pos s.isValidUTF8]
  rfl

/-- **A cursor names what it was made of.** -/
theorem decodeCursor_encodeCursor (dt : Timestamp) (recordId : ℤ) :
    decodeCursor (encodeCursor dt recordId) = .ok (dt.inUtc, recordId) := by
  have hbar : ∀ c ∈ dt.isoformat.toList, c ≠ '|' := by
    rintro c hc rfl
    obtain h | h := Timestamp.mem_isoformat hc <;> exact absurd h (by decide)
  have hraw : (dt.isoformat ++ "|" ++ toString recordId).toList =
      dt.isoformat.toList ++ '|' :: (toString recordId).toList := by
    simp
  have hbefore : (dt.isoformat.toList ++ '|' :: (toString recordId).toList).takeWhile (· ≠ '|') =
      dt.isoformat.toList := by
    rw [List.takeWhile_append_of_pos (by simpa using hbar)]
    simp
  have hafter : (dt.isoformat.toList ++ '|' :: (toString recordId).toList).dropWhile (· ≠ '|') =
      '|' :: (toString recordId).toList := by
    rw [List.dropWhile_append_of_pos (by simpa using hbar)]
    simp
  have hascii : ((encodeCursor dt recordId).toList.any fun c => 128 ≤ c.toNat) = false := by
    rw [List.any_eq_false]
    intro c hc
    unfold encodeCursor at hc
    rw [String.toList_ofList] at hc
    have hlt := Base64.toNat_lt_of_mem_encode hc
    simpa using hlt
  have hread : readCursor (encodeCursor dt recordId) = some (dt.inUtc, recordId) := by
    unfold readCursor
    rw [hascii]
    unfold encodeCursor
    simp only [Bool.false_eq_true, if_false, String.toList_ofList, Base64.decode_encode, Option.bind_eq_bind,
      Option.bind_some, fromUTF8?_toUTF8, hraw, hbefore, hafter, Timestamp.fromIsoformat_isoformat,
      String.ofList_toList, parseInt_toString]
    rfl
  unfold decodeCursor
  rw [hread]

theorem instant_inUtc (t : Timestamp) : t.inUtc.instant = t.instant := by
  unfold Timestamp.inUtc
  cases h : t.offset with
  | none =>
      unfold Timestamp.instant
      dsimp only
      rw [h]
      rfl
  | some o => rfl

theorem inUtc_of_aware {t : Timestamp} (h : t.offset = some 0) : t.inUtc = t := by
  unfold Timestamp.inUtc
  split
  · rename_i hnone
    rw [h] at hnone
    cases hnone
  · rfl

theorem encodeCursor_ne_empty (dt : Timestamp) (recordId : ℤ) : encodeCursor dt recordId ≠ "" := by
  intro h
  have hdecode := decodeCursor_encodeCursor dt recordId
  rw [h] at hdecode
  have hempty : String.fromUTF8? ⟨([] : List UInt8).toArray⟩ = some "" := fromUTF8?_toUTF8 ""
  have hrefused : decodeCursor "" = .error (.invalidCursor "") := by
    have hread : readCursor "" = none := by
      unfold readCursor
      rw [show ("".toList.any fun c => 128 ≤ c.toNat) = false from rfl,
        show Base64.decode "".toList = some [] from rfl]
      simp only [Bool.false_eq_true, if_false, Option.bind_eq_bind, Option.bind_some, hempty]
      rfl
    unfold decodeCursor
    rw [hread]
  rw [hrefused] at hdecode
  cases hdecode

/-! ## Pages -/

section Listing

variable {α : Type}

/-- The cursor that names a row. -/
def TenantRow.cursor (r : TenantRow α) : String := encodeCursor r.createdAt r.id

theorem beforeCursor_iff (a r : TenantRow α) :
    beforeCursor (a.createdAt.inUtc, a.id) r = true ↔ r.key < a.key := by
  unfold beforeCursor TenantRow.key
  rw [instant_inUtc, Prod.Lex.toLex_lt_toLex]
  simp

/-- **A page of a listing is a page by key.** -/
theorem listByCursor_page {limit : Nat} (hlimit : 1 ≤ limit) (after : Option (TenantRow α))
    (rows : List (TenantRow α)) :
    listByCursor rows limit (after.map TenantRow.cursor) =
      .ok ((Keyset.page TenantRow.key limit after rows).1,
        (Keyset.page TenantRow.key limit after rows).2.map TenantRow.cursor) := by
  have hrows : ∃ selected, atCursor (after.map TenantRow.cursor) rows = .ok selected ∧
      newestFirst selected = Keyset.remaining TenantRow.key after rows := by
    cases after with
    | none =>
        refine ⟨rows, rfl, ?_⟩
        unfold newestFirst Keyset.remaining
        have hall : rows.filter (fun r => Keyset.Below TenantRow.key none r) = rows := by
          apply List.filter_eq_self.mpr
          intro r _
          exact decide_eq_true fun a ha => by cases ha
        rw [hall]
    | some a =>
        refine ⟨rows.filter (beforeCursor (a.createdAt.inUtc, a.id)), ?_, ?_⟩
        · unfold atCursor
          rw [Option.map_some]
          dsimp only
          unfold TenantRow.cursor
          rw [if_neg (encodeCursor_ne_empty a.createdAt a.id), decodeCursor_encodeCursor]
          rfl
        · unfold newestFirst Keyset.remaining
          congr 1
          refine List.filter_congr fun r _ => ?_
          rw [Bool.eq_iff_iff, beforeCursor_iff, decide_eq_true_iff]
          constructor
          · rintro hlt b hb
            cases hb
            exact hlt
          · intro hbelow
            exact hbelow a rfl
  obtain ⟨selected, hselected, hnewest⟩ := hrows
  unfold listByCursor
  rw [hselected]
  show (if limit < ((newestFirst selected).take (limit + 1)).length then _ else _) = _
  rw [hnewest]
  unfold Keyset.page
  dsimp only
  split
  · rename_i hlong
    rw [List.length_take] at hlong
    cases hlast : (((Keyset.remaining TenantRow.key after rows).take (limit + 1)).take limit).getLast? with
    | some last => rfl
    | none =>
        rw [List.getLast?_eq_none_iff, List.take_take, List.take_eq_nil_iff] at hlast
        obtain hzero | hnil := hlast
        · omega
        · rw [hnil, List.length_nil] at hlong
          omega
  · rfl

/-! ## Whole listings -/

/-- What may happen between the requests of someone who saw a newest row first: the rows that the tenant has were there
    before, with their ids and times, or are newer. -/
structure Schedule (organisationId : ℤ) (newest : Option (TenantRow α)) (tables : Nat → List (TenantRow α)) : Prop where
  distinct : ∀ k, ((tables k).map TenantRow.id).Nodup
  changes : ∀ k, ∀ r ∈ tables (k + 1), r.organisationId = organisationId →
    (∃ r' ∈ tables k, r'.organisationId = organisationId ∧ r'.key = r.key) ∨
      ∀ first ∈ newest, first.createdAt.instant ≤ r.createdAt.instant ∧ first.id < r.id

/-- What a listing answers to the requests, one table for each. -/
def PageAnswered (listing : List (TenantRow α) → Option String → Except ListingError (List (TenantRow α) × Option String))
    (tables : Nat → List (TenantRow α)) (k : Nat) (cursor : Option String) (rows : List (TenantRow α))
    (next : Option String) : Prop :=
  listing (tables k) cursor = .ok (rows, next)

/-- Following the cursors gives these pages, and they are as they should be. -/
structure Traversed
    (listing : List (TenantRow α) → Option String → Except ListingError (List (TenantRow α) × Option String))
    (offered : TenantRow α → Prop) (tables : Nat → List (TenantRow α)) (pages : List (List (TenantRow α))) : Prop where
  ends : Keyset.Traversal (PageAnswered listing tables) 0 none pages
  only : ∀ pages', Keyset.Traversal (PageAnswered listing tables) 0 none pages' → pages' = pages
  descending : pages.flatten.Pairwise fun a b => b.key < a.key
  once : (pages.flatten.map TenantRow.id).Nodup
  /-- A row that every request could see is listed. -/
  listed : ∀ x, (∀ k < pages.length, ∃ r ∈ tables k, offered r ∧ r.key = x) → ∃ r ∈ pages.flatten, r.key = x

theorem pageAnswered_unique
    {listing : List (TenantRow α) → Option String → Except ListingError (List (TenantRow α) × Option String)}
    {tables : Nat → List (TenantRow α)} (k : Nat) (cursor : Option String) (rows : List (TenantRow α))
    (next : Option String) (rows' : List (TenantRow α)) (next' : Option String)
    (h : PageAnswered listing tables k cursor rows next) (h' : PageAnswered listing tables k cursor rows' next') :
    rows = rows' ∧ next = next' := by
  have heq := Except.ok.inj (h.symm.trans h')
  exact ⟨congrArg Prod.fst heq, congrArg Prod.snd heq⟩

theorem nodup_key {rows : List (TenantRow α)} (h : (rows.map TenantRow.id).Nodup) :
    (rows.map TenantRow.key).Nodup := by
  apply List.Nodup.of_map fun k : ℤ ×ₗ ℤ => (ofLex k).2
  rw [List.map_map]
  exact h

/-- The keys of the rows that the tenant has. -/
def storedKeys (organisationId : ℤ) (table : List (TenantRow α)) : Finset (ℤ ×ₗ ℤ) :=
  ((table.filter fun r => r.organisationId = organisationId).map TenantRow.key).toFinset

theorem mem_storedKeys {organisationId : ℤ} {table : List (TenantRow α)} {x : ℤ ×ₗ ℤ} :
    x ∈ storedKeys organisationId table ↔ ∃ r ∈ table, r.organisationId = organisationId ∧ r.key = x := by
  simp only [storedKeys, List.mem_toFinset, List.mem_map, List.mem_filter, decide_eq_true_iff, and_assoc]

/-- **A listing of the rows that are offered can be followed to its end.** -/
theorem listing_traversed {organisationId : ℤ} {limit : Nat} (hlimit : 1 ≤ limit)
    (listing : List (TenantRow α) → Option String → Except ListingError (List (TenantRow α) × Option String))
    (offered : TenantRow α → Prop) [DecidablePred offered] (tables : Nat → List (TenantRow α))
    (hlisting : ∀ table cursor, listing table cursor = listByCursor (table.filter fun r => offered r) limit cursor)
    (hoffered : ∀ r, offered r → r.organisationId = organisationId) :
    ∃ rows next, listing (tables 0) none = .ok (rows, next) ∧
      (Schedule organisationId rows.head? tables → ∃ pages, Traversed listing offered tables pages) := by
  have hpage : ∀ k after, listing (tables k) (after.map TenantRow.cursor) = .ok
      ((Keyset.page TenantRow.key limit after ((tables k).filter fun r => offered r)).1,
        (Keyset.page TenantRow.key limit after ((tables k).filter fun r => offered r)).2.map TenantRow.cursor) :=
    fun k after => (hlisting _ _).trans (listByCursor_page hlimit after _)
  refine ⟨_, _, hpage 0 none, fun h => ?_⟩
  have hdistinct : ∀ k, (((tables k).filter fun r => offered r).map TenantRow.key).Nodup :=
    fun k => (nodup_key (h.distinct k)).sublist (List.filter_sublist.map _)
  have hresult : ∃ pages, Keyset.Traversal (Keyset.Answers TenantRow.key limit
      fun k => (tables k).filter fun r => offered r) 0 none pages ∧
      Keyset.Complete TenantRow.key (fun k => (tables k).filter fun r => offered r) 0 none pages ∧
      ∀ r ∈ pages.flatten, r.key ∈ storedKeys organisationId (tables 0) := by
    apply Keyset.Traversal.complete (fun k => storedKeys organisationId (tables k)) hdistinct hlimit
    · intro k r hr
      obtain ⟨hmem, hvisible⟩ := List.mem_filter.mp hr
      exact mem_storedKeys.mpr ⟨r, hmem, hoffered r (of_decide_eq_true hvisible), rfl⟩
    · intro newest hnewest k x hx
      obtain ⟨r, hr, horg, rfl⟩ := mem_storedKeys.mp hx
      obtain ⟨r', hr', horg', hkey⟩ | hnew := h.changes k r hr horg
      · exact Or.inl (mem_storedKeys.mpr ⟨r', hr', horg', hkey⟩)
      · right
        obtain ⟨htime, hid⟩ := hnew newest hnewest
        unfold TenantRow.key
        rw [Prod.Lex.toLex_lt_toLex]
        obtain hlt | heq := lt_or_eq_of_le htime
        · exact Or.inl hlt
        · exact Or.inr ⟨heq, hid⟩
  obtain ⟨pages, ht, hcomplete, hkept⟩ := hresult
  have hanswers : Keyset.Traversal (PageAnswered listing tables) 0 none pages := by
    refine ht.map (e := TenantRow.cursor) ?_
    intro k cursor rows next hanswer
    have hvalue := hpage k cursor
    unfold Keyset.Answers at hanswer
    rw [hanswer] at hvalue
    exact hvalue
  refine ⟨pages, hanswers, fun pages' h' => h'.unique pageAnswered_unique hanswers, hcomplete.descending, ?_, ?_⟩
  · -- what is listed was stored at the first request, where ids are distinct
    rw [List.nodup_iff_pairwise_ne, List.pairwise_map]
    refine hcomplete.descending.imp_of_mem ?_
    intro a b ha hb hlt hid
    obtain ⟨s, hs, _, hsa⟩ := mem_storedKeys.mp (hkept a ha)
    obtain ⟨t, htmem, _, htb⟩ := mem_storedKeys.mp (hkept b hb)
    have hids : s.id = t.id := by
      have h1 : s.id = a.id := congrArg (fun k : ℤ ×ₗ ℤ => (ofLex k).2) hsa
      have h2 : t.id = b.id := congrArg (fun k : ℤ ×ₗ ℤ => (ofLex k).2) htb
      rw [h1, h2, hid]
    have hsame := List.inj_on_of_nodup_map (h.distinct 0) hs htmem hids
    rw [← hsa, ← htb, hsame] at hlt
    exact lt_irrefl _ hlt
  · intro x hx
    refine hcomplete.listed x (fun _ _ _ h => by cases h) ?_
    intro j hj
    obtain ⟨r, hr, hvisible, hkey⟩ := hx j hj
    rw [Nat.zero_add]
    exact ⟨r, List.mem_filter.mpr ⟨hr, decide_eq_true hvisible⟩, hkey⟩

end Listing

/-- **Cursor pagination neither skips nor repeats**, of jobs and of runs: the first request is answered, and however the
    table changes after it, the cursors can be followed to the end. A cursor names a time in UTC and an id exactly. -/
theorem listings_traversed (organisationId : ℤ) (limit : Nat) (hlimit : 1 ≤ limit) :
    (∀ tables : Nat → List (TenantRow ReconciliationJob), ∃ rows next,
      listJobs (tables 0) organisationId limit none = .ok (rows, next) ∧
      (Schedule organisationId rows.head? tables →
        ∃ pages, Traversed (fun table cursor => listJobs table organisationId limit cursor)
          (fun r => r.organisationId = organisationId) tables pages)) ∧
    (∀ tables : Nat → List (TenantRow RunColumns), ∃ rows next,
      listRunsCursor (tables 0) organisationId limit none = .ok (rows, next) ∧
      (Schedule organisationId rows.head? tables →
        ∃ pages, Traversed (fun table cursor => listRunsCursor table organisationId limit cursor)
          (fun r => r.organisationId = organisationId ∧ r.columns.isDeleted = false) tables pages)) ∧
    ∀ (t : Timestamp) (i : ℤ), t.offset = some 0 → decodeCursor (encodeCursor t i) = .ok (t, i) := by
  refine ⟨?_, ?_, ?_⟩
  · intro tables
    exact listing_traversed hlimit (fun table cursor => listJobs table organisationId limit cursor)
      (fun r => r.organisationId = organisationId) tables (fun _ _ => rfl) fun _ h => h
  · intro tables
    refine listing_traversed hlimit (fun table cursor => listRunsCursor table organisationId limit cursor)
      (fun r => r.organisationId = organisationId ∧ r.columns.isDeleted = false) tables (fun table cursor => ?_)
      fun _ h => h.1
    show listByCursor _ limit cursor = _
    unfold scopedSelect
    rw [List.filter_filter]
    have hrows : (table.filter fun r => !r.columns.isDeleted && decide (r.organisationId = organisationId)) =
        table.filter fun r => decide (r.organisationId = organisationId ∧ r.columns.isDeleted = false) := by
      refine List.filter_congr fun r _ => ?_
      cases r.columns.isDeleted <;> simp
    rw [hrows]
  · intro t i ht
    rw [decodeCursor_encodeCursor, inUtc_of_aware ht]

/-! ### Three jobs of one second -/

theorem noon_date : (1 ≤ 2026 ∧ 2026 ≤ 9999) ∧ (1 ≤ 9 ∧ 9 ≤ 12) ∧ 1 ≤ 2 ∧ 2 ≤ daysInMonth 2026 9 := by decide

theorem noon_time : 12 < 24 ∧ 0 < 60 ∧ 0 < 60 ∧ 0 < 1000000 := by decide

theorem noon_zone : ∀ o ∈ some (0 : ℤ), |o| < dayLength := by decide

def noon : Timestamp :=
  ⟨2026, 9, 2, 12, 0, 0, 0, some 0, noon_date, noon_time, noon_zone⟩

def jobRow (id : ℤ) : TenantRow ReconciliationJob := ⟨id, 1, noon, { scheduledAt := 0, updatedAt := 0 }⟩

/-- Three jobs; after the first page the second one is deleted, and a fourth one is there. -/
def shrinkingTable (k : Nat) : List (TenantRow ReconciliationJob) :=
  if k = 0 then [jobRow 1, jobRow 2, jobRow 3] else [jobRow 1, jobRow 3, jobRow 4]

/-- The pages of one job each are followed although the table changes. -/
theorem listings_traversed_shrinking : ∃ rows next,
    listJobs (shrinkingTable 0) 1 1 none = .ok (rows, next) ∧ Schedule 1 rows.head? shrinkingTable ∧
    ∃ pages, Traversed (fun table cursor => listJobs table 1 1 cursor) (fun r => r.organisationId = 1) shrinkingTable
      pages := by
  obtain ⟨rows, next, hfirst, htraversed⟩ := (listings_traversed 1 1 (by decide)).1 shrinkingTable
  have hhead : rows.head?.map (fun r => (r.createdAt.instant, r.id)) = some (noon.instant, 3) := by
    have hkeys : (listJobs (shrinkingTable 0) 1 1 none).toOption.bind
        (fun answer => answer.1.head?.map fun r => (r.createdAt.instant, r.id)) = some (noon.instant, 3) := by
      decide +kernel
    rw [hfirst] at hkeys
    exact hkeys
  have hschedule : Schedule 1 rows.head? shrinkingTable := by
    constructor
    · intro k
      unfold shrinkingTable
      split <;> decide
    · intro k r hr _
      by_cases hk : k = 0
      · subst hk
        have hcases : r = jobRow 1 ∨ r = jobRow 3 ∨ r = jobRow 4 := by simpa [shrinkingTable] using hr
        obtain rfl | rfl | rfl := hcases
        · exact Or.inl ⟨jobRow 1, by simp [shrinkingTable], rfl, rfl⟩
        · exact Or.inl ⟨jobRow 3, by simp [shrinkingTable], rfl, rfl⟩
        · right
          intro first hnewest
          rw [Option.mem_def.mp hnewest, Option.map_some, Option.some.injEq, Prod.mk.injEq] at hhead
          exact ⟨hhead.1.le, hhead.2.trans_lt (by decide)⟩
      · refine Or.inl ⟨r, ?_, ?_, rfl⟩
        · simpa [shrinkingTable, hk] using hr
        · assumption
  exact ⟨rows, next, hfirst, hschedule, htraversed hschedule⟩

end Untangle
