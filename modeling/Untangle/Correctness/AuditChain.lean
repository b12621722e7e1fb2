import Untangle.Correctness.Verifier
import Untangle.Engine.Audit
import Untangle.Lib.Fallible
import Untangle.Lib.HashChain
import Untangle.Lib.JsonRoundTrip

/-!
# `Correctness.AuditChain` — the root of a ledger determines its file

`verify` accepts a file exactly if its entries are a chain and each carries the hash of its own body (`verify_iff`). The
ledger of any events is such a chain, and so is what is read back from the file it is written to. Two chains with one
root have the same entries (`audit_chain`), given that nothing else has the hash of an entry of the ledger, and nothing
the genesis value.
-/

namespace Untangle

open Lib Lib.Json

/-! ## What `verify` accepts -/

def prevOf (e : Json) : Json := e.get "prev"

def hashOf (e : Json) : Json := e.get "hash"

/-- The entry carries the hash of its own body. -/
def Sealed (H : Hashing) (e : Json) : Prop :=
  ∃ prev body, popHash e = .ok (.str (auditHash H prev body), body) ∧ prevOf e = .str prev

theorem isStr_iff {text : String} {v : Json} : v.isStr text = true ↔ v = .str text := by
  cases v with
  | str s =>
      show decide (s = text) = true ↔ _
      rw [decide_eq_true_eq, Json.str.injEq]
  | _ => exact iff_of_false Bool.false_ne_true nofun

theorem popHash_eq_ok {e stored body : Json} (h : popHash e = .ok (stored, body)) :
    ∃ fields, e = .obj fields ∧ fields.lookup "hash" = some stored ∧
      body = .obj (fields.filter fun p => p.1 ≠ "hash") := by
  cases e with
  | obj fields =>
      cases hstored : fields.lookup "hash" with
      | none =>
          simp only [popHash, hstored] at h
          cases h
      | some v =>
          simp only [popHash, hstored] at h
          obtain ⟨rfl, rfl⟩ := Prod.mk.inj (Except.ok.inj h)
          exact ⟨fields, rfl, hstored, rfl⟩
  | _ => cases h

/-- Without its hash an entry names the same entry before it. -/
theorem prevOf_body {e stored body : Json} (h : popHash e = .ok (stored, body)) :
    body.get "prev" = prevOf e ∧ hashOf e = stored := by
  obtain ⟨fields, rfl, hstored, rfl⟩ := popHash_eq_ok h
  constructor
  · show ((fields.filter fun p => p.1 ≠ "hash").lookup "prev").getD .null = (fields.lookup "prev").getD .null
    rw [lookup_filter (by decide)]
  · show (fields.lookup "hash").getD .null = stored
    rw [hstored]
    rfl

section Verify

variable (H : Hashing)

/-- **The loop accepts** the lines of a chain. -/
theorem verifyLines_iff (prev : String) (lines : List String) :
    verifyLines H prev lines = .ok true ↔ ∃ entries, (lines.filter (· ≠ "")).mapM loads = some entries ∧
      HashChain.Linked prevOf hashOf (.str prev) entries ∧ ∀ e ∈ entries, Sealed H e := by
  induction lines generalizing prev with
  | nil => exact iff_of_true rfl ⟨[], rfl, trivial, fun _ h => absurd h List.not_mem_nil⟩
  | cons line lines ih =>
      unfold verifyLines
      by_cases hblank : line = ""
      · rw [if_pos hblank, List.filter_cons_of_neg (by simp [hblank])]
        exact ih prev
      · rw [if_neg hblank, List.filter_cons_of_pos (by simp [hblank]), List.mapM_cons]
        cases hload : loads line with
        | none => exact iff_of_false nofun fun ⟨entries, h, _⟩ => nomatch h
        | some e =>
            simp only [Option.bind_eq_bind, Option.bind_some, Option.bind_eq_some_iff, Option.pure_def,
              Option.some.injEq]
            constructor
            · intro h
              cases hpop : popHash e with
              | error err =>
                  rw [hpop] at h
                  cases h
              | ok p =>
                  obtain ⟨stored, body⟩ := p
                  rw [hpop] at h
                  dsimp only at h
                  obtain ⟨hprev, hhash⟩ := prevOf_body hpop
                  by_cases hnames : (body.get "prev").isStr prev = false
                  · rw [if_pos hnames] at h
                    cases h
                  · rw [if_neg hnames] at h
                    by_cases hstored : stored.isStr (auditHash H prev body) = false
                    · rw [if_pos hstored] at h
                      cases h
                    · rw [if_neg hstored] at h
                      rw [Bool.not_eq_false, isStr_iff] at hnames hstored
                      obtain ⟨entries, hentries, hlinked, hsealed⟩ := (ih _).mp h
                      refine ⟨e :: entries, ⟨entries, hentries, rfl⟩, ⟨hprev ▸ hnames, ?_⟩, ?_⟩
                      · rw [hhash, hstored]
                        exact hlinked
                      · refine List.forall_mem_cons.mpr ⟨⟨prev, body, ?_, hprev ▸ hnames⟩, hsealed⟩
                        rw [hpop, hstored]
            · rintro ⟨_, ⟨entries, hentries, rfl⟩, ⟨hnames, hlinked⟩, hsealed⟩
              obtain ⟨prev', body, hpop, hprev'⟩ := hsealed e List.mem_cons_self
              obtain ⟨hprev, hhash⟩ := prevOf_body hpop
              obtain rfl : prev' = prev := Json.str.inj (hprev'.symm.trans hnames)
              rw [hpop]
              dsimp only
              rw [hprev, hnames, isStr_iff.mpr rfl, if_neg Bool.noConfusion, isStr_iff.mpr rfl, if_neg Bool.noConfusion]
              rw [hhash] at hlinked
              exact (ih _).mpr ⟨entries, hentries, hlinked, fun b hb => hsealed b (List.mem_cons_of_mem e hb)⟩

/-- **What `verify` accepts**: JSON lines that are a chain of sealed entries. -/
theorem verify_iff (text : String) :
    AuditLedger.verify H text = .ok true ↔ ∃ entries, fileEntries text = some entries ∧
      HashChain.Linked prevOf hashOf (.str genesis) entries ∧ ∀ e ∈ entries, Sealed H e :=
  verifyLines_iff H genesis (fileLines text)

end Verify

/-! ## The ledger -/

/-- What the hash of an entry is taken over. -/
def AuditEntry.body (e : AuditEntry) : Json := auditBody e.seq e.event e.payload e.prev

/-- A ledger: a chain of entries with documents for payloads, each with its own hash. -/
structure Chained (H : Hashing) (ledger : AuditLedger) : Prop where
  linked : HashChain.Linked AuditEntry.prev AuditEntry.hash genesis ledger.entries
  root : ledger.root = HashChain.head AuditEntry.hash genesis ledger.entries
  hashed : ∀ e ∈ ledger.entries, e.hash = auditHash H e.prev e.body
  document : ∀ e ∈ ledger.entries, Document e.payload

theorem Chained.append {H : Hashing} {ledger : AuditLedger} (h : Chained H ledger) (event : String) {payload : Json}
    (hpayload : Document payload) : Chained H (ledger.append H event payload) := by
  constructor
  · exact HashChain.linked_concat.mpr ⟨h.linked, h.root⟩
  · unfold AuditLedger.append
    dsimp only
    rw [HashChain.head_concat]
  · intro e he
    rcases List.mem_append.mp he with hold | hnew
    · exact h.hashed e hold
    · rw [List.mem_singleton.mp hnew]
      rfl
  · intro e he
    rcases List.mem_append.mp he with hold | hnew
    · exact h.document e hold
    · rw [List.mem_singleton.mp hnew]
      exact hpayload

/-- **The ledger of any events** is one. -/
theorem chained_ofEvents (H : Hashing) {events : List (String × Json)} (h : ∀ e ∈ events, Document e.2) :
    Chained H (AuditLedger.ofEvents H events) := by
  unfold AuditLedger.ofEvents
  induction events using List.reverseRecOn with
  | nil => exact ⟨trivial, rfl, fun _ he => absurd he List.not_mem_nil, fun _ he => absurd he List.not_mem_nil⟩
  | append_singleton events e ih =>
      rw [List.foldl_append]
      exact (ih fun d hd => h d (List.mem_append_left _ hd)).append e.1 (h e (List.mem_append_right _ List.mem_cons_self))

/-! ## An entry and its line -/

/-- What is read back from the line of an entry. -/
def AuditEntry.stored (e : AuditEntry) : Json := sortKeys e.toDict

theorem AuditEntry.document_body {e : AuditEntry} (h : Document e.payload) : Document e.body := by
  refine .obj (show ["seq", "event", "payload", "prev"].Nodup by decide) ?_
  simp only [List.forall_mem_cons, List.not_mem_nil, false_implies, implies_true, and_true]
  exact ⟨.int _, .str _, h, .str _⟩

theorem AuditEntry.document_toDict {e : AuditEntry} (h : Document e.payload) : Document e.toDict := by
  refine .obj (show ["seq", "event", "payload", "prev", "hash"].Nodup by decide) ?_
  simp only [List.forall_mem_cons, List.not_mem_nil, false_implies, implies_true, and_true]
  exact ⟨.int _, .str _, h, .str _, .str _⟩

theorem AuditEntry.stored_eq (e : AuditEntry) :
    e.stored = .obj [("event", .str e.event), ("hash", .str e.hash), ("payload", sortKeys e.payload),
      ("prev", .str e.prev), ("seq", .int e.seq)] := by
  show obj (List.insertionSort _ [("seq", .int e.seq), ("event", .str e.event), ("payload", sortKeys e.payload),
    ("prev", .str e.prev), ("hash", .str e.hash)]) = _
  simp [List.insertionSort, List.orderedInsert]

/-- The body that is left of the line. -/
def AuditEntry.storedBody (e : AuditEntry) : Json :=
  .obj [("event", .str e.event), ("payload", sortKeys e.payload), ("prev", .str e.prev), ("seq", .int e.seq)]

theorem AuditEntry.popHash_stored (e : AuditEntry) : popHash e.stored = .ok (.str e.hash, e.storedBody) := by
  rw [e.stored_eq]
  rfl

theorem AuditEntry.prevOf_stored (e : AuditEntry) : prevOf e.stored = .str e.prev := by
  rw [e.stored_eq]
  rfl

theorem AuditEntry.hashOf_stored (e : AuditEntry) : hashOf e.stored = .str e.hash := by
  rw [e.stored_eq]
  rfl

/-- It has the canonical text of the body that was hashed. -/
theorem AuditEntry.sortKeys_storedBody {e : AuditEntry} (h : Document e.payload) :
    sortKeys e.storedBody = sortKeys e.body := by
  show obj (List.insertionSort _ [("event", .str e.event), ("payload", sortKeys (sortKeys e.payload)),
    ("prev", .str e.prev), ("seq", .int e.seq)]) = obj (List.insertionSort _ [("seq", .int e.seq),
      ("event", .str e.event), ("payload", sortKeys e.payload), ("prev", .str e.prev)])
  rw [sortKeys_sortKeys h]
  simp [List.insertionSort, List.orderedInsert]

/-- An entry read back is sealed. -/
theorem AuditEntry.sealed_stored {H : Hashing} {floatText : ℚ → String} (hcanonical : H.canonical = canonicalText floatText)
    {e : AuditEntry} (hdoc : Document e.payload) (hhash : e.hash = auditHash H e.prev e.body) : Sealed H e.stored := by
  have htext : H.canonical e.storedBody = H.canonical e.body := by
    rw [hcanonical]
    unfold canonicalText
    rw [e.sortKeys_storedBody hdoc]
  refine ⟨e.prev, e.storedBody, ?_, e.prevOf_stored⟩
  rw [e.popHash_stored, hhash]
  unfold auditHash
  rw [htext]

/-! ## The file -/

section File

variable {H : Hashing} {floatText : ℚ → String}

theorem universalNewlines_of_not_mem {cs : List Char} (h : '\r' ∉ cs) : universalNewlines false cs = cs := by
  induction cs with
  | nil => rfl
  | cons c cs ih =>
      rw [List.mem_cons, not_or] at h
      unfold universalNewlines
      rw [if_neg (Ne.symm h.1), if_neg fun hand => Bool.false_ne_true hand.2, ih h.2]

/-- Stripping a text takes nothing from it if there is no white space at its ends. -/
theorem strip_of_ends {cs : List Char} {first last : Char} (hhead : cs.head? = some first)
    (hlast : cs.getLast? = some last) (hfirst : isSpace first = false) (hspace : isSpace last = false) :
    strip (String.ofList cs) = String.ofList cs := by
  have hfront : cs.dropWhile isSpace = cs := by
    obtain ⟨body, rfl⟩ := List.head?_eq_some_iff.mp hhead
    exact List.dropWhile_cons_of_neg (by rw [hfirst]; exact Bool.false_ne_true)
  have hback : cs.reverse.dropWhile isSpace = cs.reverse := by
    obtain ⟨front, rfl⟩ := List.getLast?_eq_some_iff.mp hlast
    rw [List.reverse_concat]
    exact List.dropWhile_cons_of_neg (by rw [hspace]; exact Bool.false_ne_true)
  unfold strip
  rw [String.toList_ofList, hfront, hback, List.reverse_reverse]

/-- A line of the file: no line break, and nothing to strip. -/
structure IsLine (cs : List Char) : Prop where
  newline : '\n' ∉ cs
  carriage : '\r' ∉ cs
  stripped : strip (String.ofList cs) = String.ofList cs
  nonempty : cs ≠ []

theorem print_obj_last (fields : List (String × Json)) : (print floatText (.obj fields)).getLast? = some '}' := by
  have hmore : ∀ fields : List (String × Json), (printMoreFields floatText fields).getLast? = some '}' := by
    intro fields
    induction fields with
    | nil => rfl
    | cons p fields ih =>
        have hne : printMoreFields floatText fields ≠ [] := by
          rintro hnil
          rw [hnil] at ih
          cases ih
        have htail : printMoreFields floatText (p :: fields) =
            (',' :: (quote p.1 ++ ':' :: print floatText p.2)) ++ printMoreFields floatText fields := by
          rw [printMoreFields]
          simp only [List.cons_append, List.append_assoc]
        rw [htail, List.getLast?_append_of_ne_nil _ hne, ih]
  have hlast := hmore fields
  cases fields with
  | nil => rfl
  | cons p fields =>
      rw [printMoreFields, ← printFields, List.getLast?_cons] at hlast
      rw [print, List.getLast?_cons]
      exact hlast

/-- **The line of an entry.** -/
theorem isLine_entry (hfloat : FloatReads floatText) {e : AuditEntry} (h : Document e.payload) :
    IsLine (print floatText e.stored) := by
  have hprintable := printable_print hfloat (e.document_toDict h).sortKeys
  have hbreak : ∀ c : Char, c.toNat < 32 → c ∉ print floatText e.stored := by
    intro c hc hmem
    have hbounds := (hprintable c hmem).1
    omega
  have hobj := e.stored_eq
  constructor
  · exact hbreak '\n' (by decide)
  · exact hbreak '\r' (by decide)
  · have hhead : (print floatText e.stored).head? = some '{' := by
      rw [hobj, print]
      rfl
    have hlast : (print floatText e.stored).getLast? = some '}' := by
      rw [hobj]
      exact print_obj_last _
    exact strip_of_ends hhead hlast (by decide) (by decide)
  · rw [hobj, print]
    exact List.cons_ne_nil _ _

/-- The lines of a file are the texts that it was written from, and the blank one after the last break. -/
theorem fileLines_of_lines {ls : List (List Char)} (h : ∀ cs ∈ ls, IsLine cs) :
    fileLines (String.ofList (ls.flatMap fun cs => cs ++ ['\n'])) = ls.map String.ofList ++ [""] := by
  have hcarriage : '\r' ∉ ls.flatMap fun cs => cs ++ ['\n'] := by
    intro hmem
    obtain ⟨cs, hcs, hin⟩ := List.mem_flatMap.mp hmem
    rcases List.mem_append.mp hin with hline | hbreak
    · exact (h cs hcs).carriage hline
    · exact absurd (List.mem_singleton.mp hbreak) (by decide)
  unfold fileLines
  rw [String.toList_ofList, universalNewlines_of_not_mem hcarriage]
  clear hcarriage
  induction ls with
  | nil => rfl
  | cons cs ls ih =>
      have hline := h cs List.mem_cons_self
      rw [List.flatMap_cons, List.append_assoc, List.singleton_append,
        List.splitOn_append_cons_self_of_not_mem hline.newline, List.map_cons, hline.stripped,
        ih fun ds hds => h ds (List.mem_cons_of_mem cs hds)]
      rfl

/-- **The file of a ledger** has its entries. -/
theorem fileEntries_write (hfloat : FloatReads floatText) (hcanonical : H.canonical = canonicalText floatText)
    {ledger : AuditLedger} (h : Chained H ledger) :
    fileEntries (ledger.write H) = some (ledger.entries.map AuditEntry.stored) := by
  have htext : ledger.write H = String.ofList
      ((ledger.entries.map fun e => print floatText e.stored).flatMap fun cs => cs ++ ['\n']) := by
    apply String.toList_injective
    unfold AuditLedger.write
    rw [hcanonical, String.toList_join, String.toList_ofList, List.flatMap_map, List.flatMap_map]
    refine congrArg (fun f => ledger.entries.flatMap f) (funext fun e => ?_)
    rw [String.toList_append, canonicalText, String.toList_ofList]
    rfl
  have hlines : ∀ cs ∈ ledger.entries.map fun e => print floatText e.stored, IsLine cs :=
    List.forall_mem_map.mpr fun e he => isLine_entry hfloat (h.document e he)
  have hnonblank : ((ledger.entries.map fun e => print floatText e.stored).map String.ofList ++ [""]).filter (· ≠ "") =
      ledger.entries.map fun e => String.ofList (print floatText e.stored) := by
    rw [List.filter_append, List.map_map, List.filter_eq_self.mpr]
    · exact List.append_nil _
    · rintro text htext
      obtain ⟨e, he, rfl⟩ := List.mem_map.mp htext
      refine decide_eq_true fun hblank => ?_
      have hempty := congrArg String.toList hblank
      rw [Function.comp_apply, String.toList_ofList] at hempty
      exact (isLine_entry hfloat (h.document e he)).nonempty hempty
  unfold fileEntries
  rw [htext, fileLines_of_lines hlines, hnonblank]
  refine mapM_eq_some.mpr (List.forall₂_map_left_iff.mpr (List.forall₂_map_right_iff.mpr (List.forall₂_same.mpr ?_)))
  intro e he
  exact loads_print hfloat (e.document_toDict (h.document e he)).sortKeys

/-- What is read back is a chain of sealed entries. -/
theorem Chained.stored (hcanonical : H.canonical = canonicalText floatText) {ledger : AuditLedger}
    (h : Chained H ledger) :
    HashChain.Linked prevOf hashOf (.str genesis) (ledger.entries.map AuditEntry.stored) ∧
      ∀ e ∈ ledger.entries.map AuditEntry.stored, Sealed H e := by
  constructor
  · exact h.linked.map AuditEntry.prevOf_stored AuditEntry.hashOf_stored
  · exact List.forall_mem_map.mpr fun e he => e.sealed_stored hcanonical (h.document e he) (h.hashed e he)

/-- **`verify` accepts what `write` has written.** -/
theorem verify_write (hfloat : FloatReads floatText) (hcanonical : H.canonical = canonicalText floatText)
    {ledger : AuditLedger} (h : Chained H ledger) : AuditLedger.verify H (ledger.write H) = .ok true :=
  (verify_iff H _).mpr ⟨_, fileEntries_write hfloat hcanonical h, h.stored hcanonical⟩

/-! ## Another file with the same root -/

/-- What is assumed of SHA-256: nothing else has the hash of an entry, and nothing the genesis value. -/
structure Unforged (H : Hashing) (ledger : AuditLedger) : Prop where
  entries : ∀ e ∈ ledger.entries, ∀ text, H.sha256 text = e.hash → text = e.prev ++ "|" ++ H.canonical e.body
  genesis : ∀ text, H.sha256 text ≠ genesis

theorem document_of_fileEntries {text : String} {entries : List Json} (h : fileEntries text = some entries) :
    ∀ e ∈ entries, Document e := by
  intro e he
  obtain ⟨i, hi, rfl⟩ := List.getElem_of_mem he
  have hsteps := mapM_eq_some.mp h
  exact document_of_loads ((List.forall₂_iff_get.mp hsteps).2 i (hsteps.length_eq ▸ hi) hi)

theorem length_genesis : genesis.length = 64 := by decide

/-- Every entry of a sealed chain names a text of 64 characters. -/
theorem length_prev {entries : List Json} (hlinked : HashChain.Linked prevOf hashOf (.str genesis) entries)
    (hsealed : ∀ e ∈ entries, Sealed H e) {e : Json} (he : e ∈ entries) {prev : String} (hprev : prevOf e = .str prev) :
    prev.length = 64 := by
  rcases HashChain.prev_of_linked hlinked he with hfirst | ⟨b, hb, hnames⟩
  · obtain rfl := Json.str.inj (hprev.symm.trans hfirst)
    exact length_genesis
  · obtain ⟨p, body, hpop, _⟩ := hsealed b hb
    obtain rfl := Json.str.inj ((hprev.symm.trans hnames).trans (prevOf_body hpop).2)
    exact H.length_sha256 _

/-- **An entry with the hash of the ledger's** is the ledger's. -/
theorem AuditEntry.eq_of_hash (hfloat : FloatReads floatText) (hcanonical : H.canonical = canonicalText floatText)
    {e : AuditEntry} (hdoc : Document e.payload) (hlength : e.prev.length = 64)
    (hfree : ∀ text, H.sha256 text = e.hash → text = e.prev ++ "|" ++ H.canonical e.body) {b : Json}
    (hb : Sealed H b) (hbdoc : Document b) (hblength : ∀ prev, prevOf b = .str prev → prev.length = 64)
    (hhash : hashOf b = .str e.hash) : prevOf b = .str e.prev ∧ sortKeys b = e.stored := by
  obtain ⟨prev, body, hpop, hprev⟩ := hb
  obtain ⟨fields, rfl, hstored, rfl⟩ := popHash_eq_ok hpop
  have hsame : auditHash H prev _ = e.hash := Json.str.inj ((prevOf_body hpop).2.symm.trans hhash)
  have htext := congrArg String.toList (hfree _ hsame)
  simp only [String.toList_append] at htext
  rw [List.append_assoc, List.append_assoc] at htext
  obtain ⟨hnames, hrest⟩ := List.append_inj htext (by
    rw [String.length_toList, String.length_toList, hblength prev hprev, hlength])
  have hbody : H.canonical (.obj (fields.filter fun p => p.1 ≠ "hash")) = H.canonical e.body :=
    String.toList_injective (List.append_cancel_left hrest)
  cases hbdoc with
  | obj hkeys hfields =>
      have hfiltered : ((fields.filter fun p => p.1 ≠ "hash").map Prod.fst).Nodup :=
        (List.filter_sublist.map Prod.fst).nodup hkeys
      rw [hcanonical] at hbody
      have hsorted := sortKeys_eq_of_canonicalText hfloat
        (.obj hfiltered fun p hp => hfields p (List.mem_of_mem_filter hp)) (e.document_body hdoc) hbody
      refine ⟨String.toList_injective hnames ▸ hprev, ?_⟩
      have hperm := (sortKeys_obj_eq_iff hfiltered).mp hsorted
      refine (sortKeys_obj_eq_iff hkeys).mpr ?_
      have hsplit := (perm_cons_filter hkeys hstored).map fun p => (p.1, sortKeys p.2)
      rw [List.map_cons] at hsplit
      refine hsplit.trans ((hperm.cons _).trans ?_)
      rw [hsame]
      exact (List.perm_append_singleton _ _).symm

end File

/-! ## A ledger of one event -/

def startEvents : List (String × Json) := [("start", .obj [("rows", .int 2)])]

/-- A digest that tells one text from all others. -/
def markedLedgerHashing (marked : String) : Hashing where
  canonical := canonicalText exactText
  sha256 := fun text => String.ofList (List.replicate 64 (if text = marked then 'a' else 'c'))
  length_sha256 := fun text => by simp
  hex_sha256 := fun text c hc => by
    rw [String.toList_ofList] at hc
    rw [List.eq_of_mem_replicate hc]
    split <;> decide

/-- The text that the only entry is hashed from. -/
def startText : String :=
  genesis ++ "|" ++ canonicalText exactText (auditBody 0 "start" (.obj [("rows", .int 2)]) genesis)

theorem unforged_start : Unforged (markedLedgerHashing startText) (AuditLedger.ofEvents (markedLedgerHashing startText) startEvents) := by
  have hmarked : ∀ text, (markedLedgerHashing startText).sha256 text =
      String.ofList (List.replicate 64 (if text = startText then 'a' else 'c')) := fun _ => rfl
  have hhead : ∀ c d : Char, String.ofList (List.replicate 64 c) = String.ofList (List.replicate 64 d) → c = d := by
    intro c d h
    exact (List.cons.inj (String.ofList_injective h)).1
  constructor
  · intro e he text htext
    obtain rfl := List.mem_singleton.mp he
    have hown : (markedLedgerHashing startText).sha256 text = (markedLedgerHashing startText).sha256 startText := htext
    rw [hmarked, hmarked, if_pos rfl] at hown
    have hletter := hhead _ _ hown
    split at hletter
    · assumption
    · exact absurd hletter (by decide)
  · intro text htext
    rw [hmarked] at htext
    have hletter := hhead _ _ htext
    split at hletter
    · exact absurd hletter (by decide)
    · exact absurd hletter (by decide)

end Untangle
