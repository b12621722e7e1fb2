import Mathlib.Data.List.TakeWhile

/-!
# `Lib.Csv` — comma-separated records

The grammar of RFC 4180 with a line feed as the line break: records of fields between commas, where a field is text
without special characters, or anything at all between quotes with every quote in it doubled. The reader follows the
grammar; `parse_encode` is the round trip for the writer that quotes what has to be quoted.
-/

namespace Lib

namespace Csv

/-- A character that needs no quotes. -/
def isTextData (c : Char) : Bool := c ≠ ',' ∧ c ≠ '"' ∧ c ≠ '\n' ∧ c ≠ '\r'

/-! ## The reader -/

/-- A quoted field after its opening quote, and what follows it: two quotes are one. -/
def readQuoted : List Char → Option (List Char × List Char)
  | [] => none
  | c :: cs =>
    if c = '"' then
      match cs with
      | [] => some ([], [])
      | d :: ds => if d = '"' then (readQuoted ds).map fun p => ('"' :: p.1, p.2) else some ([], d :: ds)
    else (readQuoted cs).map fun p => (c :: p.1, p.2)

def readField : List Char → Option (List Char × List Char)
  | '"' :: cs => readQuoted cs
  | cs => some (cs.takeWhile isTextData, cs.dropWhile isTextData)

/-- Fields between commas; every comma costs fuel. -/
def readRecord : Nat → List Char → Option (List (List Char) × List Char)
  | 0, _ => none
  | n + 1, cs =>
    (readField cs).bind fun p =>
      match p.2 with
      | [] => some ([p.1], [])
      | c :: rest =>
        if c = ',' then (readRecord n rest).map fun q => (p.1 :: q.1, q.2) else some ([p.1], c :: rest)

/-- Records between line breaks, the last of which may be followed by one. -/
def readRecords : Nat → List Char → Option (List (List (List Char)))
  | 0, _ => none
  | n + 1, cs =>
    (readRecord (cs.length + 1) cs).bind fun p =>
      match p.2 with
      | [] => some [p.1]
      | c :: rest =>
        if c ≠ '\n' then none
        else if rest = [] then some [p.1]
        else (readRecords n rest).map fun records => p.1 :: records

/-- The records of a text. -/
def parse (text : String) : Option (List (List String)) :=
  (readRecords (text.toList.length + 1) text.toList).map fun records =>
    records.map fun record => record.map String.ofList

/-! ## The writer -/

/-- Every quote twice. -/
def doubleQuotes (cs : List Char) : List Char := cs.flatMap fun c => if c = '"' then ['"', '"'] else [c]

def encodeField (cs : List Char) : List Char :=
  if cs.all isTextData then cs else '"' :: (doubleQuotes cs ++ ['"'])

def encodeRecord (record : List (List Char)) : List Char := [','].intercalate (record.map encodeField)

def encode (records : List (List (List Char))) : List Char := records.flatMap fun record => encodeRecord record ++ ['\n']

/-! ## The round trip -/

/-- A field ends here: at a comma, a line break or the end. -/
def Stops (x : List Char) : Prop := ∀ c ∈ x.head?, c = ',' ∨ c = '\n'

theorem stops_nil : Stops [] := fun _ h => nomatch h

theorem stops_cons {c : Char} (h : c = ',' ∨ c = '\n') (x : List Char) : Stops (c :: x) := by
  intro d hd
  obtain rfl : c = d := Option.some.inj hd
  exact h

/-- What is between quotes is read up to the closing one. -/
theorem readQuoted_doubleQuotes (cs : List Char) {x : List Char} (hx : Stops x) :
    readQuoted (doubleQuotes cs ++ '"' :: x) = some (cs, x) := by
  induction cs with
  | nil =>
      show readQuoted ('"' :: x) = some ([], x)
      unfold readQuoted
      rw [if_pos rfl]
      cases x with
      | nil => rfl
      | cons d ds =>
          have hd : d ≠ '"' := by
            rcases hx d rfl with rfl | rfl
            · decide
            · decide
          dsimp only
          rw [if_neg hd]
  | cons c cs ih =>
      unfold doubleQuotes
      rw [List.flatMap_cons]
      by_cases hc : c = '"'
      · subst hc
        rw [if_pos rfl, List.append_assoc]
        show readQuoted ('"' :: '"' :: (doubleQuotes cs ++ '"' :: x)) = _
        unfold readQuoted
        rw [if_pos rfl]
        dsimp only
        rw [if_pos rfl, ih]
        rfl
      · rw [if_neg hc, List.append_assoc]
        show readQuoted (c :: (doubleQuotes cs ++ '"' :: x)) = _
        unfold readQuoted
        rw [if_neg hc, ih]
        rfl

theorem stops_textData {x : List Char} (hx : Stops x) : ∀ c ∈ x.head?, isTextData c = false := by
  intro c hc
  rcases hx c hc with rfl | rfl
  · decide
  · decide

/-- **A field is read back**, and nothing after it. -/
theorem readField_encodeField (cs : List Char) {x : List Char} (hx : Stops x) :
    readField (encodeField cs ++ x) = some (cs, x) := by
  unfold encodeField
  by_cases hall : cs.all isTextData = true
  · rw [if_pos hall]
    have hrun : ∀ c ∈ cs, isTextData c = true := List.all_eq_true.mp hall
    have htake : (cs ++ x).takeWhile isTextData = cs := by
      rw [List.takeWhile_append_of_pos hrun]
      cases x with
      | nil => rw [List.takeWhile_nil, List.append_nil]
      | cons d ds =>
          rw [List.takeWhile_cons_of_neg (by rw [stops_textData hx d rfl]; exact Bool.false_ne_true), List.append_nil]
    have hdrop : (cs ++ x).dropWhile isTextData = x := by
      have hsplit := List.takeWhile_append_dropWhile (p := isTextData) (l := cs ++ x)
      rw [htake] at hsplit
      exact List.append_cancel_left hsplit
    unfold readField
    split
    · rename_i ds hquote
      -- the first character would be a quote
      have hhead : (cs ++ x).head? = some '"' := by rw [hquote]; rfl
      cases cs with
      | nil =>
          rcases hx '"' hhead with h | h
          · exact absurd h (by decide)
          · exact absurd h (by decide)
      | cons c cs =>
          obtain rfl : c = '"' := Option.some.inj hhead
          exact absurd (hrun '"' List.mem_cons_self) (by decide)
    · rw [htake, hdrop]
  · rw [if_neg hall, List.cons_append, List.append_assoc, List.singleton_append]
    exact readQuoted_doubleQuotes cs hx

/-- A record ends here: at a line break or the end. -/
def Ends (x : List Char) : Prop := ∀ c ∈ x.head?, c = '\n'

theorem Ends.stops {x : List Char} (hx : Ends x) : Stops x := fun c hc => Or.inr (hx c hc)

/-- **A record is read back.** -/
theorem readRecord_encodeRecord {record : List (List Char)} (hne : record ≠ []) {n : Nat} (hn : record.length ≤ n)
    {x : List Char} (hx : Ends x) : readRecord n (encodeRecord record ++ x) = some (record, x) := by
  induction n generalizing record with
  | zero => exact absurd (List.eq_nil_of_length_eq_zero (Nat.le_zero.mp hn)) hne
  | succ n ih =>
      obtain ⟨field, fields, rfl⟩ := List.exists_cons_of_ne_nil hne
      unfold readRecord
      cases fields with
      | nil =>
          have htext : encodeRecord [field] = encodeField field := List.intercalate_singleton
          rw [htext, readField_encodeField field hx.stops, Option.bind_some]
          dsimp only
          cases x with
          | nil => rfl
          | cons c rest =>
              have hc : c ≠ ',' := by
                rw [hx c rfl]
                decide
              dsimp only
              rw [if_neg hc]
      | cons next fields =>
          have htext : encodeRecord (field :: next :: fields) ++ x =
              encodeField field ++ ',' :: (encodeRecord (next :: fields) ++ x) := by
            unfold encodeRecord
            simp only [List.map_cons, List.intercalate_cons_cons, List.append_assoc, List.cons_append, List.nil_append]
          rw [htext, readField_encodeField field (stops_cons (Or.inl rfl) _), Option.bind_some]
          dsimp only
          rw [if_pos rfl, ih (List.cons_ne_nil _ _) (Nat.le_of_succ_le_succ hn), Option.map_some]

/-- No field is shorter than its commas. -/
theorem length_le_encodeRecord (record : List (List Char)) : record.length ≤ (encodeRecord record).length + 1 := by
  induction record with
  | nil => exact Nat.zero_le _
  | cons field fields ih =>
      cases fields with
      | nil => exact Nat.le_add_left 1 _
      | cons next fields =>
          unfold encodeRecord at ih ⊢
          rw [List.map_cons, List.map_cons, List.intercalate_cons_cons, List.length_append, List.length_append,
            List.length_singleton, List.length_cons]
          rw [List.map_cons] at ih
          omega

/-- **Records are read back.** -/
theorem readRecords_encode {records : List (List (List Char))} (hne : records ≠ []) (hrecords : ∀ r ∈ records, r ≠ [])
    {n : Nat} (hn : records.length ≤ n) : readRecords n (encode records) = some records := by
  induction n generalizing records with
  | zero => exact absurd (List.eq_nil_of_length_eq_zero (Nat.le_zero.mp hn)) hne
  | succ n ih =>
      obtain ⟨record, rest, rfl⟩ := List.exists_cons_of_ne_nil hne
      have htext : encode (record :: rest) = encodeRecord record ++ '\n' :: encode rest := by
        unfold encode
        rw [List.flatMap_cons, List.append_assoc, List.singleton_append]
      have hfuel : record.length ≤ (encode (record :: rest)).length + 1 := by
        have hrecord := length_le_encodeRecord record
        rw [htext, List.length_append]
        omega
      unfold readRecords
      rw [htext] at hfuel ⊢
      have hends : Ends ('\n' :: encode rest) := fun c hc => (Option.some.inj hc).symm
      rw [readRecord_encodeRecord (hrecords record List.mem_cons_self) hfuel hends, Option.bind_some]
      dsimp only
      rw [if_neg (not_not.mpr rfl)]
      cases rest with
      | nil => rfl
      | cons next rest =>
          have hmore : encode (next :: rest) ≠ [] := by
            unfold encode
            rw [List.flatMap_cons]
            exact fun h => List.cons_ne_nil _ _ (List.append_eq_nil_iff.mp (List.append_eq_nil_iff.mp h).1).2
          rw [if_neg hmore, ih (List.cons_ne_nil _ _) (fun r hr => hrecords r (List.mem_cons_of_mem _ hr))
            (Nat.le_of_succ_le_succ hn), Option.map_some]

/-- No record is shorter than its line break. -/
theorem length_le_encode (records : List (List (List Char))) : records.length ≤ (encode records).length := by
  induction records with
  | nil => exact Nat.le_refl 0
  | cons record rest ih =>
      unfold encode at ih ⊢
      rw [List.flatMap_cons, List.length_append, List.length_append, List.length_singleton, List.length_cons]
      omega

/-- **The records of a written text are the ones that were written.** -/
theorem parse_encode {records : List (List String)} (hne : records ≠ []) (hrecords : ∀ r ∈ records, r ≠ []) :
    parse (String.ofList (encode (records.map fun record => record.map String.toList))) = some records := by
  have hread := @readRecords_encode (records.map fun record => record.map String.toList)
    (by simpa using hne) (by simpa using hrecords) _
    (Nat.le_succ_of_le (length_le_encode (records.map fun record => record.map String.toList)))
  unfold parse
  rw [String.toList_ofList, hread, Option.map_some, List.map_map]
  refine congrArg some (List.map_id'' ?_ records)
  intro record
  show (record.map String.toList).map String.ofList = record
  rw [List.map_map]
  exact List.map_id'' (fun s => String.ofList_toList) record

end Csv

end Lib
