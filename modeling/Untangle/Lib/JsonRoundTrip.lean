import Untangle.Lib.JsonDocument
import Untangle.Lib.JsonRead

/-!
# `Lib.JsonRoundTrip` — a document is read back from its text

What is read is a `Document` (`document_of_loads`): its floats are doubles, and no object has a key twice. A document
is read back from its text (`loads_print`) whatever the text of a double is, as long as the double is read from it
(`FloatReads`; `exactText` is such a text). So the canonical text of a document determines it up to the order of its
fields (`sortKeys_eq_of_canonicalText`). It is printable ASCII (`printable_print`), so it is one line of a file.
-/

namespace Lib

namespace Json

/-! ## Documents -/

/-- A double. -/
def IsDouble (q : ℚ) : Prop := Float64.ofRat q = .finite q

/-- What a text can say: doubles for floats, and no key twice. -/
inductive Document : Json → Prop
  | null : Document .null
  | bool (b : Bool) : Document (.bool b)
  | int (i : ℤ) : Document (.int i)
  | float {q : ℚ} (h : IsDouble q) : Document (.float q)
  | inf (negative : Bool) : Document (.inf negative)
  | nan : Document .nan
  | str (s : String) : Document (.str s)
  | arr {items : List Json} (h : ∀ v ∈ items, Document v) : Document (.arr items)
  | obj {fields : List (String × Json)} (keys : (fields.map Prod.fst).Nodup) (h : ∀ p ∈ fields, Document p.2) :
      Document (.obj fields)

/-- What every writer of doubles guarantees: the text is a number, and the double is read from it. -/
structure FloatReads (floatText : ℚ → String) : Prop where
  numeric : ∀ q, IsDouble q → ∀ c ∈ (floatText q).toList, isNumberChar c = true
  reads : ∀ q, IsDouble q → ∀ x, Stops x → readNumber ((floatText q).toList ++ x) = some (.float q, x)

section Documents

variable {floatText : ℚ → String}

theorem FloatReads.ne_nil (hfloat : FloatReads floatText) {q : ℚ} (hq : IsDouble q) : (floatText q).toList ≠ [] := by
  intro hnil
  have hread := hfloat.reads q hq [] stops_nil
  rw [hnil] at hread
  cases hread

/-- No value begins with white space or with a closing bracket. -/
theorem print_head (hfloat : FloatReads floatText) {v : Json} (h : Document v) :
    ∃ c cs, print floatText v = c :: cs ∧ isBlank c = false ∧ c ≠ ']' := by
  have hrun : ∀ ds : List Char, ds ≠ [] → (∀ c ∈ ds, isNumberChar c = true) →
      ∃ c cs, ds = c :: cs ∧ isBlank c = false ∧ c ≠ ']' := by
    intro ds hne hds
    obtain ⟨c, cs, rfl⟩ := List.exists_cons_of_ne_nil hne
    have hc := hds c List.mem_cons_self
    refine ⟨c, cs, rfl, ?_, ?_⟩
    · unfold isBlank
      simp only [Bool.or_eq_false_iff, decide_eq_false_iff_not]
      refine ⟨⟨⟨?_, ?_⟩, ?_⟩, ?_⟩
      all_goals
        rintro rfl
        exact absurd hc (by decide)
    · rintro rfl
      exact absurd hc (by decide)
  cases h with
  | int i =>
      refine hrun _ ?_ (isNumberChar_intText i)
      show (toString i).toList ≠ []
      rw [toList_toString_int]
      exact fun hnil => toString_ne_nil i.natAbs (List.append_eq_nil_iff.mp hnil).2
  | float hq => exact hrun _ (hfloat.ne_nil hq) (hfloat.numeric _ hq)
  | bool b => cases b <;> exact ⟨_, _, rfl, by decide, by decide⟩
  | inf negative => cases negative <;> exact ⟨_, _, rfl, by decide, by decide⟩
  | null => exact ⟨_, _, rfl, by decide, by decide⟩
  | nan => exact ⟨_, _, rfl, by decide, by decide⟩
  | str s => exact ⟨_, _, rfl, by decide, by decide⟩
  | arr _ => exact ⟨_, _, rfl, by decide, by decide⟩
  | obj _ _ => exact ⟨_, _, rfl, by decide, by decide⟩

theorem skipBlanks_of_head {cs : List Char} (h : ∀ c ∈ cs.head?, isBlank c = false) : skipBlanks cs = cs := by
  cases cs with
  | nil => rfl
  | cons c cs => exact List.dropWhile_cons_of_neg (by rw [h c rfl]; exact Bool.false_ne_true)

theorem skipBlanks_print (hfloat : FloatReads floatText) {v : Json} (h : Document v) (x : List Char) :
    skipBlanks (print floatText v ++ x) = print floatText v ++ x := by
  obtain ⟨c, cs, hcs, hblank, _⟩ := print_head hfloat h
  refine skipBlanks_of_head fun d hd => ?_
  rw [hcs] at hd
  obtain rfl := Option.some.inj hd
  exact hblank

/-- A run of number characters is read as a number. -/
theorem readValue_number {ds x : List Char} (hne : ds ≠ []) (hds : ∀ c ∈ ds, isNumberChar c = true) {v : Json}
    (hread : readNumber (ds ++ x) = some (v, x)) (n : Nat) : readValue (n + 1) (ds ++ x) = some (v, x) := by
  obtain ⟨c, cs, rfl⟩ := List.exists_cons_of_ne_nil hne
  have hc := hds c List.mem_cons_self
  have hnot : ∀ d : Char, isNumberChar d = false → c ≠ d := by
    rintro d hd rfl
    rw [hc] at hd
    cases hd
  rw [List.cons_append] at hread ⊢
  unfold readValue
  rw [if_neg (hnot '"' (by decide)), if_neg (hnot '[' (by decide)), if_neg (hnot '{' (by decide)), hread]
  rfl

/-! ## Lists and objects are read back -/

theorem length_le_printMoreItems (vs : List Json) : vs.length ≤ (printMoreItems floatText vs).length := by
  induction vs with
  | nil => exact Nat.zero_le _
  | cons v vs ih =>
      rw [printMoreItems, List.length_cons, List.length_cons, List.length_append]
      omega

/-- The elements of a list are read back. -/
theorem readItems_print {read : List Char → Option (Json × List Char)} {v : Json} {vs : List Json}
    (hread : ∀ w ∈ v :: vs, ∀ y, Stops y → read (print floatText w ++ y) = some (w, y))
    (hskip : ∀ w ∈ v :: vs, ∀ y, skipBlanks (print floatText w ++ y) = print floatText w ++ y) {n : Nat}
    (hn : vs.length < n) (x : List Char) :
    readItems read n (print floatText v ++ (printMoreItems floatText vs ++ x)) = some (v :: vs, x) := by
  induction vs generalizing v n with
  | nil =>
      obtain ⟨n, rfl⟩ := Nat.exists_eq_succ_of_ne_zero (Nat.ne_zero_of_lt hn)
      unfold readItems
      rw [printMoreItems, List.singleton_append,
        hread v List.mem_cons_self _ (stops_cons (Or.inr (Or.inl rfl)) _)]
      rfl
  | cons w ws ih =>
      obtain ⟨n, rfl⟩ := Nat.exists_eq_succ_of_ne_zero (Nat.ne_zero_of_lt hn)
      unfold readItems
      rw [printMoreItems, List.cons_append, hread v List.mem_cons_self _ (stops_cons (Or.inl rfl) _), Option.bind_some,
        List.append_assoc]
      have hcomma : ∀ y, skipBlanks (',' :: y) = ',' :: y := fun _ => rfl
      dsimp only
      rw [hcomma, List.head?_cons, if_neg (by decide), if_pos rfl, List.tail_cons,
        hskip w (List.mem_cons_of_mem v List.mem_cons_self),
        ih (fun u hu => hread u (List.mem_cons_of_mem v hu)) (fun u hu => hskip u (List.mem_cons_of_mem v hu))
          (Nat.lt_of_succ_lt_succ hn)]
      rfl

theorem length_le_printMoreFields (fields : List (String × Json)) :
    fields.length ≤ (printMoreFields floatText fields).length := by
  induction fields with
  | nil => exact Nat.zero_le _
  | cons p fields ih =>
      rw [printMoreFields, List.length_cons, List.length_cons, List.length_append, List.length_cons,
        List.length_append]
      omega

theorem readKey_quote (key : String) {x : List Char} (hx : skipBlanks x = x) :
    readKey (quote key ++ ':' :: x) = some (key, x) := by
  have htext : quote key ++ ':' :: x = '"' :: (key.toList.flatMap escapeChar ++ '"' :: ':' :: x) := by
    unfold quote
    simp only [List.cons_append, List.append_assoc, List.nil_append]
  unfold readKey
  rw [htext, List.head?_cons, if_pos rfl, List.tail_cons, readString_quote, Option.bind_some]
  have hcolon : skipBlanks (':' :: x) = ':' :: x := rfl
  dsimp only
  rw [hcolon, List.head?_cons, if_pos rfl, List.tail_cons, hx]

/-- The fields of an object are read back. -/
theorem readFields_print {read : List Char → Option (Json × List Char)} {p : String × Json}
    {fields : List (String × Json)}
    (hread : ∀ q ∈ p :: fields, ∀ y, Stops y → read (print floatText q.2 ++ y) = some (q.2, y))
    (hskip : ∀ q ∈ p :: fields, ∀ y, skipBlanks (print floatText q.2 ++ y) = print floatText q.2 ++ y) {n : Nat}
    (hn : fields.length < n) (x : List Char) :
    readFields read n (quote p.1 ++ ':' :: (print floatText p.2 ++ (printMoreFields floatText fields ++ x))) =
      some (p :: fields, x) := by
  induction fields generalizing p n with
  | nil =>
      obtain ⟨n, rfl⟩ := Nat.exists_eq_succ_of_ne_zero (Nat.ne_zero_of_lt hn)
      unfold readFields
      rw [readKey_quote p.1 (hskip p List.mem_cons_self _), Option.bind_some, printMoreFields,
        List.singleton_append, hread p List.mem_cons_self _ (stops_cons (Or.inr (Or.inr rfl)) _)]
      rfl
  | cons q fields ih =>
      obtain ⟨n, rfl⟩ := Nat.exists_eq_succ_of_ne_zero (Nat.ne_zero_of_lt hn)
      have hcomma : ∀ y, skipBlanks (',' :: y) = ',' :: y := fun _ => rfl
      have hquote : ∀ y, skipBlanks (quote q.1 ++ y) = quote q.1 ++ y := fun _ => rfl
      unfold readFields
      rw [readKey_quote p.1 (hskip p List.mem_cons_self _), Option.bind_some, printMoreFields, List.cons_append,
        hread p List.mem_cons_self _ (stops_cons (Or.inl rfl) _), Option.bind_some, List.append_assoc, List.cons_append,
        List.append_assoc]
      dsimp only
      rw [hcomma, List.head?_cons, if_neg (by decide), if_pos rfl, List.tail_cons, hquote,
        ih (fun u hu => hread u (List.mem_cons_of_mem p hu)) (fun u hu => hskip u (List.mem_cons_of_mem p hu))
          (Nat.lt_of_succ_lt_succ hn)]
      rfl

theorem length_lt_printMoreItems {v : Json} {vs : List Json} (h : v ∈ vs) :
    (print floatText v).length < (printMoreItems floatText vs).length := by
  induction vs with
  | nil => exact absurd h List.not_mem_nil
  | cons w ws ih =>
      rw [printMoreItems, List.length_cons, List.length_append]
      rcases List.mem_cons.mp h with rfl | hmem
      · omega
      · have hlt := ih hmem
        omega

theorem length_lt_printMoreFields {p : String × Json} {fields : List (String × Json)} (h : p ∈ fields) :
    (print floatText p.2).length < (printMoreFields floatText fields).length := by
  induction fields with
  | nil => exact absurd h List.not_mem_nil
  | cons q fields ih =>
      rw [printMoreFields, List.length_cons, List.length_append, List.length_cons, List.length_append]
      rcases List.mem_cons.mp h with rfl | hmem
      · omega
      · have hlt := ih hmem
        omega

theorem upsertItems_fresh {key : String} {l : List (String × Json)} (h : key ∉ l.map Prod.fst)
    (f : Option Json → Json) : Dict.upsertItems key f l = l ++ [(key, f none)] := by
  induction l with
  | nil => rfl
  | cons p l ih =>
      rw [List.map_cons, List.mem_cons, not_or] at h
      obtain ⟨key', v⟩ := p
      unfold Dict.upsertItems
      rw [if_neg (Ne.symm h.1), ih h.2]
      rfl

/-- Distinct fields are the dictionary. -/
theorem dictOf_of_nodup {fields : List (String × Json)} (h : (fields.map Prod.fst).Nodup) : dictOf fields = fields := by
  have hfrom : ∀ d : List (String × Json), (d.map Prod.fst ++ fields.map Prod.fst).Nodup →
      fields.foldl (fun d p => Dict.upsertItems p.1 (fun _ => p.2) d) d = d ++ fields := by
    clear h
    induction fields with
    | nil => exact fun d _ => (List.append_nil d).symm
    | cons p fields ih =>
        intro d hnd
        have hfresh : p.1 ∉ d.map Prod.fst := by
          intro hmem
          rw [List.map_cons] at hnd
          exact (List.nodup_append.mp hnd).2.2 p.1 hmem p.1 List.mem_cons_self rfl
        rw [List.foldl_cons, upsertItems_fresh hfresh, ih, List.append_assoc]
        · rfl
        · rw [List.map_append, List.append_assoc]
          exact hnd
  exact hfrom [] h

/-- A list is read back, after its opening bracket. -/
theorem readArr_print (hfloat : FloatReads floatText) {read : List Char → Option (Json × List Char)} {items : List Json}
    (hitems : ∀ v ∈ items, Document v)
    (hread : ∀ v ∈ items, ∀ y, Stops y → read (print floatText v ++ y) = some (v, y)) (x : List Char) :
    readArr read (skipBlanks (printItems floatText items ++ x)) = some (.arr items, x) := by
  cases items with
  | nil => rfl
  | cons v vs =>
      have hmore := @length_le_printMoreItems floatText vs
      have hopen : (print floatText v ++ (printMoreItems floatText vs ++ x)).head? ≠ some ']' := by
        obtain ⟨c, cs, hcs, _, hc⟩ := print_head hfloat (hitems v List.mem_cons_self)
        rw [hcs]
        exact fun heq => hc (Option.some.inj heq)
      rw [printItems, List.append_assoc, skipBlanks_print hfloat (hitems v List.mem_cons_self)]
      unfold readArr
      rw [if_neg hopen, readItems_print hread (fun w hw y => skipBlanks_print hfloat (hitems w hw) y)
        (by rw [List.length_append, List.length_append]; omega)]
      rfl

/-- An object is read back, after its opening brace. -/
theorem readObj_print (hfloat : FloatReads floatText) {read : List Char → Option (Json × List Char)}
    {fields : List (String × Json)} (hkeys : (fields.map Prod.fst).Nodup) (hfields : ∀ p ∈ fields, Document p.2)
    (hread : ∀ p ∈ fields, ∀ y, Stops y → read (print floatText p.2 ++ y) = some (p.2, y)) (x : List Char) :
    readObj read (skipBlanks (printFields floatText fields ++ x)) = some (.obj fields, x) := by
  cases fields with
  | nil => rfl
  | cons p fields =>
      have hmore := @length_le_printMoreFields floatText fields
      have hquote : ∀ y, skipBlanks (quote p.1 ++ y) = quote p.1 ++ y := fun _ => rfl
      rw [printFields, List.append_assoc, List.cons_append, List.append_assoc, hquote]
      unfold readObj
      rw [if_neg (by unfold quote; simp), readFields_print hread
        (fun q hq y => skipBlanks_print hfloat (hfields q hq) y)
        (by rw [List.length_append, List.length_cons, List.length_append, List.length_append]; omega),
        Option.map_some, dictOf_of_nodup hkeys]

theorem length_le_printItems {v : Json} {items : List Json} (h : v ∈ items) :
    (print floatText v).length ≤ (printItems floatText items).length := by
  cases items with
  | nil => exact absurd h List.not_mem_nil
  | cons w ws =>
      have hmore := @length_lt_printMoreItems floatText _ _ h
      rw [printMoreItems, List.length_cons, ← printItems] at hmore
      omega

theorem length_le_printFields {p : String × Json} {fields : List (String × Json)} (h : p ∈ fields) :
    (print floatText p.2).length ≤ (printFields floatText fields).length := by
  cases fields with
  | nil => exact absurd h List.not_mem_nil
  | cons q fields =>
      have hmore := @length_lt_printMoreFields floatText _ _ h
      obtain ⟨key, w⟩ := q
      rw [printMoreFields, List.length_cons, ← printFields] at hmore
      omega

/-- **A document is read back from its text**, and nothing after it. -/
theorem readValue_print (hfloat : FloatReads floatText) {v : Json} (h : Document v) :
    ∀ {n : Nat} {x : List Char}, (print floatText v).length < n → Stops x →
      readValue n (print floatText v ++ x) = some (v, x) := by
  induction h with
  | int i =>
      intro n x hn hx
      obtain ⟨n, rfl⟩ := Nat.exists_eq_succ_of_ne_zero (Nat.ne_zero_of_lt hn)
      refine readValue_number ?_ (isNumberChar_intText i) (readNumber_int i hx) n
      rw [toList_toString_int]
      exact fun hnil => toString_ne_nil i.natAbs (List.append_eq_nil_iff.mp hnil).2
  | float hq =>
      intro n x hn hx
      obtain ⟨n, rfl⟩ := Nat.exists_eq_succ_of_ne_zero (Nat.ne_zero_of_lt hn)
      exact readValue_number (hfloat.ne_nil hq) (hfloat.numeric _ hq) (hfloat.reads _ hq x hx) n
  | str s =>
      intro n x hn _
      obtain ⟨n, rfl⟩ := Nat.exists_eq_succ_of_ne_zero (Nat.ne_zero_of_lt hn)
      have htext : print floatText (.str s) ++ x = '"' :: (s.toList.flatMap escapeChar ++ '"' :: x) := by
        rw [print]
        unfold quote
        simp only [List.cons_append, List.append_assoc, List.nil_append]
      rw [htext]
      unfold readValue
      rw [if_pos rfl, readString_quote]
      rfl
  | @arr items hitems ih =>
      intro n x hn _
      obtain ⟨n, rfl⟩ := Nat.exists_eq_succ_of_ne_zero (Nat.ne_zero_of_lt hn)
      have hread : ∀ v ∈ items, ∀ y, Stops y → readValue n (print floatText v ++ y) = some (v, y) := by
        intro v hv y hy
        have hle := @length_le_printItems floatText _ _ hv
        rw [print, List.length_cons] at hn
        exact ih v hv (by omega) hy
      rw [print, List.cons_append]
      unfold readValue
      rw [if_neg (by decide), if_pos rfl, readArr_print hfloat hitems hread]
  | @obj fields hkeys hfields ih =>
      intro n x hn _
      obtain ⟨n, rfl⟩ := Nat.exists_eq_succ_of_ne_zero (Nat.ne_zero_of_lt hn)
      have hread : ∀ p ∈ fields, ∀ y, Stops y → readValue n (print floatText p.2 ++ y) = some (p.2, y) := by
        intro p hp y hy
        have hle := @length_le_printFields floatText _ _ hp
        rw [print, List.length_cons] at hn
        exact ih p hp (by omega) hy
      rw [print, List.cons_append]
      unfold readValue
      rw [if_neg (by decide), if_neg (by decide), if_pos rfl, readObj_print hfloat hkeys hfields hread]
  | bool b =>
      intro n x hn _
      obtain ⟨n, rfl⟩ := Nat.exists_eq_succ_of_ne_zero (Nat.ne_zero_of_lt hn)
      cases b <;> rfl
  | inf negative =>
      intro n x hn _
      obtain ⟨n, rfl⟩ := Nat.exists_eq_succ_of_ne_zero (Nat.ne_zero_of_lt hn)
      cases negative <;> rfl
  | null =>
      intro n x hn _
      obtain ⟨n, rfl⟩ := Nat.exists_eq_succ_of_ne_zero (Nat.ne_zero_of_lt hn)
      rfl
  | nan =>
      intro n x hn _
      obtain ⟨n, rfl⟩ := Nat.exists_eq_succ_of_ne_zero (Nat.ne_zero_of_lt hn)
      rfl

/-- **The text of a document is that document.** -/
theorem loads_print (hfloat : FloatReads floatText) {v : Json} (h : Document v) :
    loads (String.ofList (print floatText v)) = some v := by
  have hread := readValue_print hfloat h (Nat.lt_succ_self (print floatText v).length) stops_nil
  have hskip := skipBlanks_print hfloat h []
  rw [List.append_nil] at hread hskip
  unfold loads
  rw [String.toList_ofList, hskip, hread]
  rfl

/-! ## The characters of a text -/

/-- A character of printable ASCII. -/
def Printable (c : Char) : Prop := 32 ≤ c.toNat ∧ c.toNat ≤ 126

instance : DecidablePred Printable := fun c => inferInstanceAs (Decidable (32 ≤ c.toNat ∧ c.toNat ≤ 126))

theorem printable_of_all {cs : List Char} (h : (cs.all fun c => decide (Printable c)) = true) : ∀ c ∈ cs, Printable c :=
  fun c hc => of_decide_eq_true (List.all_eq_true.mp h c hc)

theorem printable_digitChar : ∀ k < 16, Printable (Nat.digitChar k) := by decide

theorem printable_numberChar {c : Char} (h : isNumberChar c = true) : Printable c := by
  unfold isNumberChar at h
  simp only [Bool.or_eq_true, decide_eq_true_eq] at h
  rcases h with (((hdigit | rfl) | rfl) | rfl) | rfl
  · have hbounds : 48 ≤ c.toNat ∧ c.toNat ≤ 57 := Char.isDigit_iff_toNat.mp hdigit
    exact ⟨by omega, by omega⟩
  · decide
  · decide
  · decide
  · decide

theorem printable_unicodeEscape (n : Nat) : ∀ c ∈ unicodeEscape n, Printable c := by
  have hdigit : ∀ k : Nat, Printable (Nat.digitChar (k % 16)) :=
    fun k => printable_digitChar _ (Nat.mod_lt k (by decide))
  unfold unicodeEscape hex4
  simp only [List.forall_mem_cons, List.not_mem_nil, false_implies, implies_true, and_true]
  exact ⟨by decide, by decide, hdigit _, hdigit _, hdigit _, hdigit _⟩

theorem printable_escapeChar (c : Char) : ∀ d ∈ escapeChar c, Printable d := by
  unfold escapeChar
  cases hshort : shortEscape c with
  | some e =>
      have htable : (shortEscapes.all fun p => decide (Printable p.2)) = true := by decide
      have he := of_decide_eq_true (List.all_eq_true.mp htable _ (mem_shortEscapes hshort))
      exact List.forall_mem_cons.mpr ⟨by decide, List.forall_mem_singleton.mpr he⟩
  | none =>
      dsimp only
      split
      · rename_i hprintable
        exact List.forall_mem_singleton.mpr hprintable
      · intro d hd
        rcases List.mem_append.mp hd with hfirst | hsecond
        · exact printable_unicodeEscape _ d hfirst
        · unfold secondUnit at hsecond
          split at hsecond
          · exact absurd hsecond List.not_mem_nil
          · exact printable_unicodeEscape _ d hsecond

theorem printable_quote (s : String) : ∀ c ∈ quote s, Printable c := by
  unfold quote
  rw [List.cons_append]
  refine List.forall_mem_cons.mpr ⟨by decide, fun c hc => ?_⟩
  rcases List.mem_append.mp hc with hbody | hend
  · obtain ⟨d, _, hd⟩ := List.mem_flatMap.mp hbody
    exact printable_escapeChar d c hd
  · rw [List.mem_singleton.mp hend]
    decide

theorem printable_printMoreItems {vs : List Json} (h : ∀ v ∈ vs, ∀ c ∈ print floatText v, Printable c) :
    ∀ c ∈ printMoreItems floatText vs, Printable c := by
  induction vs with
  | nil => exact List.forall_mem_singleton.mpr (by decide)
  | cons v vs ih =>
      rw [printMoreItems]
      refine List.forall_mem_cons.mpr ⟨by decide, fun c hc => ?_⟩
      rcases List.mem_append.mp hc with hfirst | hmore
      · exact h v List.mem_cons_self c hfirst
      · exact ih (fun w hw => h w (List.mem_cons_of_mem v hw)) c hmore

theorem printable_printMoreFields {fields : List (String × Json)}
    (h : ∀ p ∈ fields, ∀ c ∈ print floatText p.2, Printable c) :
    ∀ c ∈ printMoreFields floatText fields, Printable c := by
  induction fields with
  | nil => exact List.forall_mem_singleton.mpr (by decide)
  | cons p fields ih =>
      rw [printMoreFields]
      refine List.forall_mem_cons.mpr ⟨by decide, fun c hc => ?_⟩
      rcases List.mem_append.mp hc with hkey | hc
      · exact printable_quote p.1 c hkey
      · rcases List.mem_cons.mp hc with rfl | hc
        · decide
        · rcases List.mem_append.mp hc with hfirst | hmore
          · exact h p List.mem_cons_self c hfirst
          · exact ih (fun q hq => h q (List.mem_cons_of_mem p hq)) c hmore

/-- **The text of a document is printable ASCII.** -/
theorem printable_print (hfloat : FloatReads floatText) {v : Json} (h : Document v) :
    ∀ c ∈ print floatText v, Printable c := by
  induction h with
  | int i => exact fun c hc => printable_numberChar (isNumberChar_intText i c hc)
  | float hq => exact fun c hc => printable_numberChar (hfloat.numeric _ hq c hc)
  | str s => exact printable_quote s
  | @arr items _ ih =>
      rw [print]
      refine List.forall_mem_cons.mpr ⟨by decide, fun c hc => ?_⟩
      have hmore := printable_printMoreItems ih
      cases items with
      | nil => exact hmore c hc
      | cons v vs => exact hmore c (List.mem_cons_of_mem ',' hc)
  | @obj fields _ _ ih =>
      rw [print]
      refine List.forall_mem_cons.mpr ⟨by decide, fun c hc => ?_⟩
      have hmore := printable_printMoreFields ih
      cases fields with
      | nil => exact hmore c hc
      | cons p fields => exact hmore c (List.mem_cons_of_mem ',' hc)
  | bool b => cases b <;> exact printable_of_all rfl
  | inf negative => cases negative <;> exact printable_of_all rfl
  | null => exact printable_of_all rfl
  | nan => exact printable_of_all rfl

end Documents

/-! ## What is read is a document -/

theorem document_ofFloat {text : String} {v : Float64} (h : readFloat text = some v) : Document (ofFloat v) := by
  cases v with
  | inf negative => exact .inf negative
  | nan => exact .nan
  | finite q =>
      have hrounded : ∃ r, Float64.ofRat r = .finite q := by
        unfold readFloat at h
        rw [Option.bind_eq_bind] at h
        obtain ⟨cs, _, h⟩ := Option.bind_eq_some_iff.mp h
        dsimp only at h
        split at h
        · exact ⟨_, Option.some.inj h⟩
        · unfold readSpecial at h
          dsimp only at h
          split at h
          · cases h
          · split at h
            · cases h
            · cases h
      obtain ⟨r, hr⟩ := hrounded
      exact .float (Float64.ofRat_of_finite hr)

theorem document_of_readNumber {cs x : List Char} {v : Json} (h : readNumber cs = some (v, x)) : Document v := by
  unfold readNumber at h
  obtain ⟨whole, _, h⟩ := Option.bind_eq_some_iff.mp h
  dsimp only at h
  split at h
  · obtain rfl := (Prod.mk.inj (Option.some.inj h)).1
    exact .int _
  · obtain ⟨f, hread, heq⟩ := Option.map_eq_some_iff.mp h
    obtain rfl := (Prod.mk.inj heq).1
    exact document_ofFloat hread

theorem document_of_readWord {cs x : List Char} {v : Json} (h : readWord cs = some (v, x)) : Document v := by
  obtain ⟨p, hp, heq⟩ := Option.map_eq_some_iff.mp h
  obtain rfl := (Prod.mk.inj heq).1
  have hmem := List.mem_of_find?_eq_some hp
  unfold words at hmem
  simp only [List.mem_cons, List.not_mem_nil, or_false] at hmem
  rcases hmem with rfl | rfl | rfl | rfl | rfl | rfl
  · exact .null
  · exact .bool true
  · exact .bool false
  · exact .nan
  · exact .inf false
  · exact .inf true

section Reads

variable {read : List Char → Option (Json × List Char)} (hread : ∀ cs v x, read cs = some (v, x) → Document v)

include hread

theorem documents_of_readItems {n : Nat} {cs x : List Char} {vs : List Json} (h : readItems read n cs = some (vs, x)) :
    ∀ v ∈ vs, Document v := by
  induction n generalizing cs vs x with
  | zero => cases h
  | succ n ih =>
      unfold readItems at h
      obtain ⟨p, hp, h⟩ := Option.bind_eq_some_iff.mp h
      have hfirst := hread _ _ _ hp
      dsimp only at h
      split at h
      · obtain rfl := (Prod.mk.inj (Option.some.inj h)).1
        exact List.forall_mem_singleton.mpr hfirst
      · split at h
        · obtain ⟨q, hq, heq⟩ := Option.map_eq_some_iff.mp h
          obtain rfl := (Prod.mk.inj heq).1
          exact List.forall_mem_cons.mpr ⟨hfirst, ih hq⟩
        · cases h

theorem documents_of_readFields {n : Nat} {cs x : List Char} {fields : List (String × Json)}
    (h : readFields read n cs = some (fields, x)) : ∀ p ∈ fields, Document p.2 := by
  induction n generalizing cs fields x with
  | zero => cases h
  | succ n ih =>
      unfold readFields at h
      obtain ⟨key, _, h⟩ := Option.bind_eq_some_iff.mp h
      obtain ⟨p, hp, h⟩ := Option.bind_eq_some_iff.mp h
      have hfirst := hread _ _ _ hp
      dsimp only at h
      split at h
      · obtain rfl := (Prod.mk.inj (Option.some.inj h)).1
        exact List.forall_mem_singleton.mpr hfirst
      · split at h
        · obtain ⟨q, hq, heq⟩ := Option.map_eq_some_iff.mp h
          obtain rfl := (Prod.mk.inj heq).1
          exact List.forall_mem_cons.mpr ⟨hfirst, ih hq⟩
        · cases h

end Reads

theorem nodup_dictOf (fields : List (String × Json)) : ((dictOf fields).map Prod.fst).Nodup := by
  unfold dictOf
  induction fields using List.reverseRecOn with
  | nil => exact List.nodup_nil
  | append_singleton fields p ih =>
      rw [List.foldl_append]
      exact Dict.nodup_upsertItems ih

theorem mem_upsertItems {key : String} {v : Json} {l : List (String × Json)} {p : String × Json}
    (h : p ∈ Dict.upsertItems key (fun _ => v) l) : p ∈ l ∨ p.2 = v := by
  induction l with
  | nil =>
      obtain rfl := List.mem_singleton.mp h
      exact Or.inr rfl
  | cons q l ih =>
      obtain ⟨key', w⟩ := q
      unfold Dict.upsertItems at h
      split at h
      · rcases List.mem_cons.mp h with rfl | hmem
        · exact Or.inr rfl
        · exact Or.inl (List.mem_cons_of_mem _ hmem)
      · rcases List.mem_cons.mp h with rfl | hmem
        · exact Or.inl List.mem_cons_self
        · exact (ih hmem).imp_left (List.mem_cons_of_mem _)

theorem forall_dictOf {P : Json → Prop} {fields : List (String × Json)} (h : ∀ p ∈ fields, P p.2) :
    ∀ p ∈ dictOf fields, P p.2 := by
  unfold dictOf
  induction fields using List.reverseRecOn with
  | nil => exact fun _ hp => absurd hp List.not_mem_nil
  | append_singleton fields q ih =>
      rw [List.foldl_append]
      intro p hp
      rcases mem_upsertItems hp with hold | hnew
      · exact ih (fun r hr => h r (List.mem_append_left _ hr)) p hold
      · rw [hnew]
        exact h q (List.mem_append_right _ List.mem_cons_self)

theorem document_of_readValue {n : Nat} {cs x : List Char} {v : Json} (h : readValue n cs = some (v, x)) :
    Document v := by
  induction n generalizing cs v x with
  | zero => cases h
  | succ n ih =>
      cases cs with
      | nil => cases h
      | cons c cs =>
          unfold readValue at h
          split at h
          · obtain ⟨p, _, heq⟩ := Option.map_eq_some_iff.mp h
            obtain rfl := (Prod.mk.inj heq).1
            exact .str _
          · split at h
            · unfold readArr at h
              split at h
              · obtain rfl := (Prod.mk.inj (Option.some.inj h)).1
                exact .arr fun _ hv => absurd hv List.not_mem_nil
              · obtain ⟨p, hp, heq⟩ := Option.map_eq_some_iff.mp h
                obtain rfl := (Prod.mk.inj heq).1
                exact .arr (documents_of_readItems (fun _ _ _ => ih) hp)
            · split at h
              · unfold readObj at h
                split at h
                · obtain rfl := (Prod.mk.inj (Option.some.inj h)).1
                  exact .obj List.nodup_nil fun _ hp => absurd hp List.not_mem_nil
                · obtain ⟨p, hp, heq⟩ := Option.map_eq_some_iff.mp h
                  obtain rfl := (Prod.mk.inj heq).1
                  exact .obj (nodup_dictOf _) (forall_dictOf (documents_of_readFields (fun _ _ _ => ih) hp))
              · rcases Option.or_eq_some_iff.mp h with hnumber | ⟨_, hword⟩
                · exact document_of_readNumber hnumber
                · exact document_of_readWord hword

/-- **A text that is read is a document.** -/
theorem document_of_loads {text : String} {v : Json} (h : loads text = some v) : Document v := by
  unfold loads at h
  obtain ⟨p, hp, hend⟩ := Option.bind_eq_some_iff.mp h
  split at hend
  · obtain rfl := Option.some.inj hend
    exact document_of_readValue hp
  · cases hend

/-! ## Sorted keys -/

/-- Sorting the keys of a value with sorted keys changes nothing. -/
theorem sortKeys_sortKeys {v : Json} (h : Document v) : sortKeys (sortKeys v) = sortKeys v := by
  induction h with
  | @arr items _ ih =>
      rw [sortKeys, sortKeys, sortItems_eq, sortItems_eq, List.map_map]
      exact congrArg arr (List.map_congr_left ih)
  | @obj fields _ _ ih =>
      rw [sortKeys, sortKeys, sortFields_eq, sortFields_eq]
      have hsorted : ((fields.map fun p => (p.1, sortKeys p.2)).insertionSort fun p q => p.1 ≤ q.1).map
          (fun p => (p.1, sortKeys p.2)) =
            (fields.map fun p => (p.1, sortKeys p.2)).insertionSort fun p q => p.1 ≤ q.1 := by
        refine (List.map_congr_left fun p hp => ?_).trans (List.map_id _)
        rw [List.mem_insertionSort] at hp
        obtain ⟨q, hq, rfl⟩ := List.mem_map.mp hp
        exact Prod.ext rfl (ih q hq)
      rw [hsorted]
      exact congrArg obj (List.Pairwise.insertionSort_eq (List.pairwise_insertionSort keyOrder _))
  | _ => rfl

/-- A document with sorted keys is a document. -/
theorem Document.sortKeys {v : Json} (h : Document v) : Document (sortKeys v) := by
  induction h with
  | arr _ ih =>
      rw [Json.sortKeys, sortItems_eq]
      exact .arr (List.forall_mem_map.mpr ih)
  | @obj fields hkeys _ ih =>
      rw [Json.sortKeys, sortFields_eq]
      have hperm := List.perm_insertionSort keyOrder (fields.map fun p => (p.1, Json.sortKeys p.2))
      refine .obj ?_ fun p hp => ?_
      · refine (hperm.map Prod.fst).nodup_iff.mpr ?_
        rw [List.map_map]
        exact hkeys
      · obtain ⟨q, hq, rfl⟩ := List.mem_map.mp (hperm.mem_iff.mp hp)
        exact ih q hq
  | null => exact .null
  | bool b => exact .bool b
  | int i => exact .int i
  | float hq => exact .float hq
  | inf negative => exact .inf negative
  | nan => exact .nan
  | str s => exact .str s

/-- **What the canonical text of a document says.** -/
theorem loads_canonicalText {floatText : ℚ → String} (hfloat : FloatReads floatText) {v : Json} (h : Document v) :
    loads (canonicalText floatText v) = some (sortKeys v) :=
  loads_print hfloat h.sortKeys

/-- **The canonical text determines a document** up to the order of its fields. -/
theorem sortKeys_eq_of_canonicalText {floatText : ℚ → String} (hfloat : FloatReads floatText) {v w : Json}
    (hv : Document v) (hw : Document w) (h : canonicalText floatText v = canonicalText floatText w) :
    sortKeys v = sortKeys w := by
  have hread := loads_canonicalText hfloat hv
  rw [h, loads_canonicalText hfloat hw] at hread
  exact (Option.some.inj hread).symm

/-! ## Equal objects -/

/-- Objects are the same exactly if their fields are, in any order. -/
theorem sortKeys_obj_eq_iff {fields fields' : List (String × Json)} (hkeys : (fields.map Prod.fst).Nodup) :
    sortKeys (.obj fields) = sortKeys (.obj fields') ↔
      (fields.map fun p => (p.1, sortKeys p.2)).Perm (fields'.map fun p => (p.1, sortKeys p.2)) := by
  rw [sortKeys, sortKeys, sortFields_eq, sortFields_eq]
  constructor
  · intro h
    exact (List.perm_insertionSort keyOrder _).symm.trans
      ((List.Perm.of_eq (obj.inj h)).trans (List.perm_insertionSort keyOrder _))
  · intro hperm
    have hsorted := (List.perm_insertionSort keyOrder (fields.map fun p => (p.1, sortKeys p.2))).trans
      (hperm.trans (List.perm_insertionSort keyOrder (fields'.map fun p => (p.1, sortKeys p.2))).symm)
    refine congrArg obj (hsorted.eq_of_pairwise ?_ (List.pairwise_insertionSort keyOrder _)
      (List.pairwise_insertionSort keyOrder _))
    -- two fields with one key are one
    intro p q hp hq hpq hqp
    have hnd : ((fields.map fun p => (p.1, sortKeys p.2)).map Prod.fst).Nodup := by
      rw [List.map_map]
      exact hkeys
    rw [List.mem_insertionSort] at hp
    have hq' := hsorted.mem_iff.mpr hq
    rw [List.mem_insertionSort] at hq'
    exact List.inj_on_of_nodup_map hnd hp hq' (le_antisymm hpq hqp)

/-- A field and the others. -/
theorem perm_cons_filter {fields : List (String × Json)} (hkeys : (fields.map Prod.fst).Nodup) {key : String} {v : Json}
    (h : fields.lookup key = some v) : fields.Perm ((key, v) :: fields.filter fun p => p.1 ≠ key) := by
  induction fields with
  | nil => cases h
  | cons p fields ih =>
      obtain ⟨key', w⟩ := p
      rw [List.map_cons, List.nodup_cons] at hkeys
      rw [List.lookup_cons] at h
      by_cases hkey : key = key'
      · subst hkey
        rw [beq_self_eq_true] at h
        obtain rfl := Option.some.inj h
        have hrest : fields.filter (fun p => p.1 ≠ key) = fields := by
          refine List.filter_eq_self.mpr fun p hp => decide_eq_true fun heq => hkeys.1 ?_
          exact List.mem_map.mpr ⟨p, hp, heq⟩
        rw [List.filter_cons_of_neg (by simp), hrest]
      · rw [beq_eq_false_iff_ne.mpr hkey] at h
        rw [List.filter_cons_of_pos (by simpa using Ne.symm hkey)]
        exact ((ih hkeys.2 h).cons _).trans (List.Perm.swap _ _ _)

theorem lookup_filter {fields : List (String × Json)} {key key' : String} (h : key' ≠ key) :
    (fields.filter fun p => p.1 ≠ key).lookup key' = fields.lookup key' := by
  induction fields with
  | nil => rfl
  | cons p fields ih =>
      obtain ⟨other, v⟩ := p
      by_cases hother : other = key
      · rw [List.filter_cons_of_neg (by simp [hother]), ih, List.lookup_cons,
          beq_eq_false_iff_ne.mpr (hother ▸ h)]
      · rw [List.filter_cons_of_pos (by simpa using hother), List.lookup_cons, List.lookup_cons, ih]

/-! ## A writer of doubles -/

/-- How many decimals a double has at most. -/
def decimals : Nat := 1074

/-- Every decimal of a double. -/
def exactText (q : ℚ) : String := String.ofList ((formatGrouped decimals q).toList.filter (· ≠ ','))

/-- A double is an integer of the smallest unit. -/
theorem exists_eq_intCast {q : ℚ} (hq : IsDouble q) : ∃ k : ℤ, q * 10 ^ decimals = k := by
  have hnearest : nearest q = q := by
    unfold IsDouble Float64.ofRat at hq
    split at hq
    · exact Float64.finite.inj hq
    · cases hq
  obtain ⟨m, hm⟩ := exists_nearest_eq_mul_ulp q
  rw [hnearest] at hm
  obtain ⟨e, he, hmin⟩ : ∃ e : ℤ, ulp q = 2 ^ e ∧ -1074 ≤ e := ⟨_, rfl, le_max_right _ _⟩
  have hexp : ((e + 1074).toNat : ℤ) = e + 1074 := Int.toNat_of_nonneg (by omega)
  have hpow : (2 : ℚ) ^ e * 2 ^ decimals = 2 ^ (e + 1074).toNat := by
    rw [← zpow_natCast, ← zpow_natCast, hexp, ← zpow_add₀ (by norm_num)]
    rfl
  have hten : (10 : ℚ) ^ decimals = 2 ^ decimals * 5 ^ decimals := by
    rw [← mul_pow]
    exact congrArg (· ^ decimals) (by norm_num)
  refine ⟨m * 2 ^ (e + 1074).toNat * 5 ^ decimals, ?_⟩
  calc q * 10 ^ decimals = m * (2 ^ e * 2 ^ decimals) * 5 ^ decimals := by
        rw [hten, hm, he]
        ring
    _ = ((m * 2 ^ (e + 1074).toNat * 5 ^ decimals : ℤ) : ℚ) := by
        rw [hpow]
        push_cast
        rfl

theorem floatReads_exactText : FloatReads exactText := by
  have htext : ∀ q, (exactText q).toList = (if q < 0 then ['-'] else []) ++
      ((toString ((roundHalfEven (q * 10 ^ decimals)).natAbs / 10 ^ decimals)).toList ++
        '.' :: (padDigits decimals ((roundHalfEven (q * 10 ^ decimals)).natAbs % 10 ^ decimals)).toList) := by
    intro q
    unfold exactText
    rw [String.toList_ofList, filter_formatGrouped]
  constructor
  · intro q _ c hc
    rw [htext] at hc
    rcases List.mem_append.mp hc with hsign | hc
    · split at hsign
      · rw [List.mem_singleton.mp hsign]
        decide
      · exact absurd hsign List.not_mem_nil
    · rcases List.mem_append.mp hc with hwhole | hc
      · exact isNumberChar_of_digit (isDigit_of_mem_toString hwhole)
      · rcases List.mem_cons.mp hc with rfl | hfraction
        · decide
        · exact isNumberChar_of_digit (isDigit_padDigits hfraction)
  · intro q hq x hx
    obtain ⟨k, hk⟩ := exists_eq_intCast hq
    have hlength := length_padDigits (Nat.mod_lt (roundHalfEven (q * 10 ^ decimals)).natAbs
      (Nat.pow_pos (by decide) : 0 < 10 ^ decimals)) (by decide)
    have hne : (padDigits decimals ((roundHalfEven (q * 10 ^ decimals)).natAbs % 10 ^ decimals)).toList ≠ [] :=
      List.ne_nil_of_length_pos (by rw [hlength]; decide)
    have hread := readNumber_fixed (decide (q < 0)) ((roundHalfEven (q * 10 ^ decimals)).natAbs / 10 ^ decimals) hne
      (fun _ => isDigit_padDigits) hx
    simp only [decide_eq_true_eq] at hread
    have hvalue : (if q < 0 then (-1 : ℚ) else 1) * ((roundHalfEven (q * 10 ^ decimals)).natAbs / 10 ^ decimals) = q := by
      rw [hk, roundHalfEven_intCast, Nat.cast_natAbs, Int.cast_abs, ← hk]
      rw [abs_mul, abs_of_pos (by positivity : (0 : ℚ) < 10 ^ decimals), mul_div_assoc, div_self (by positivity), mul_one]
      split
      · rename_i hneg
        rw [abs_of_neg hneg, neg_one_mul, neg_neg]
      · rename_i hpos
        rw [abs_of_nonneg (not_lt.mp hpos), one_mul]
    rw [htext, List.append_assoc, List.append_assoc, List.cons_append, hread]
    rw [← filter_formatGrouped, readFloat_formatGrouped (by decide), hvalue, hq]
    rfl

end Json

end Lib
