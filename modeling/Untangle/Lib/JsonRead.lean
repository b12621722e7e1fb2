import Untangle.Lib.Binary64
import Untangle.Lib.Dict
import Untangle.Lib.JsonText

/-!
# `Lib.JsonRead` — reading the text of a document

The decoder of JSON texts: values with white space around them, strings with their escapes, numbers by the longest
match (an integer, or a double where there is a point or an exponent), and the words for the values that are no
numbers. Of two fields with one key the last one counts, in the place of the first. A text that is no document reads
as `none`. So does one with half a surrogate pair in it, which no `String` holds. How deep values may be nested is the
reader's fuel; the length of the text is always enough.

A string is read back from its text (`readString_quote`), an integer (`readNumber_int`) and a double with its decimals
(`readNumber_fixed`).
-/

namespace Lib

namespace Json

/-! ## Strings -/

def hexValue (c : Char) : Option Nat :=
  if c.isDigit then some (c.toNat - 48)
  else if 97 ≤ c.toNat ∧ c.toNat ≤ 102 then some (c.toNat - 87)
  else if 65 ≤ c.toNat ∧ c.toNat ≤ 70 then some (c.toNat - 55)
  else none

def readHex4 : List Char → Option (Nat × List Char)
  | a :: b :: c :: d :: cs => do
    let a ← hexValue a
    let b ← hexValue b
    let c ← hexValue c
    let d ← hexValue d
    return (4096 * a + 256 * b + 16 * c + d, cs)
  | _ => none

/-- The character of a code; half a surrogate pair is none. -/
def charOf (n : Nat) : Option Char := if n.isValidChar then some (Char.ofNat n) else none

/-- The second half of a pair. -/
def readPair (first : Nat) (cs : List Char) : Option (Char × List Char) :=
  if cs.take 2 = ['\\', 'u'] then
    (readHex4 (cs.drop 2)).bind fun p =>
      if 56320 ≤ p.1 ∧ p.1 < 57344 then
        (charOf (65536 + (first - 55296) * 1024 + (p.1 - 56320))).map fun c => (c, p.2)
      else none
  else none

/-- What follows `\u`: a code, or two that are a pair. -/
def readUnicode (cs : List Char) : Option (Char × List Char) :=
  (readHex4 cs).bind fun p =>
    if 55296 ≤ p.1 ∧ p.1 < 56320 then readPair p.1 p.2 else (charOf p.1).map fun c => (c, p.2)

/-- The character that an escape of one letter stands for. -/
def unescape (e : Char) : Option Char :=
  if e = '/' then some '/' else (shortEscapes.find? fun p => p.2 = e).map Prod.fst

/-- What a backslash stands before. -/
def readEscape : List Char → Option (Char × List Char)
  | [] => none
  | e :: cs => if e = 'u' then readUnicode cs else (unescape e).map fun c => (c, cs)

/-- One character of a string. -/
def readChar : List Char → Option (Char × List Char)
  | [] => none
  | c :: cs => if c = '\\' then readEscape cs else if c.toNat < 32 then none else some (c, cs)

/-- The characters of a string up to its quote, and what follows it. -/
def readChars : Nat → List Char → Option (List Char × List Char)
  | 0, _ => none
  | n + 1, cs =>
    if cs.head? = some '"' then some ([], cs.tail)
    else (readChar cs).bind fun p => (readChars n p.2).map fun q => (p.1 :: q.1, q.2)

/-- The string after its opening quote. -/
def readString (cs : List Char) : Option (String × List Char) :=
  (readChars (cs.length + 1) cs).map fun p => (String.ofList p.1, p.2)

/-! ## Numbers and words -/

/-- The digits before the point: a zero, or digits that do not begin with one. -/
def readWhole (cs : List Char) : Option (List Char × List Char) :=
  if cs.head? = some '0' then some (['0'], cs.tail)
  else if cs.takeWhile Char.isDigit = [] then none
  else some (cs.takeWhile Char.isDigit, cs.dropWhile Char.isDigit)

/-- A point and digits, if they are there. -/
def readPoint (cs : List Char) : List Char × List Char :=
  if cs.head? = some '.' ∧ cs.tail.takeWhile Char.isDigit ≠ [] then
    ('.' :: cs.tail.takeWhile Char.isDigit, cs.tail.dropWhile Char.isDigit)
  else ([], cs)

/-- A sign, if it is there. -/
def readOneOf (signs : List Char) : List Char → List Char × List Char
  | c :: cs => if c ∈ signs then ([c], cs) else ([], c :: cs)
  | [] => ([], [])

/-- An exponent, if it is there. -/
def readPower (cs : List Char) : List Char × List Char :=
  let (mark, rest) := readOneOf ['e', 'E'] cs
  let (sign, rest) := readOneOf ['+', '-'] rest
  if mark ≠ [] ∧ rest.takeWhile Char.isDigit ≠ [] then
    (mark ++ sign ++ rest.takeWhile Char.isDigit, rest.dropWhile Char.isDigit)
  else ([], cs)

def ofFloat : Float64 → Json
  | .finite q => .float q
  | .inf negative => .inf negative
  | .nan => .nan

/-- The longest number that the text begins with: an integer, or a double. -/
def readNumber (cs : List Char) : Option (Json × List Char) :=
  let sign := readOneOf ['-'] cs
  (readWhole sign.2).bind fun whole =>
    let fraction := readPoint whole.2
    let power := readPower fraction.2
    if fraction.1 = [] ∧ power.1 = [] then
      some (.int ((if sign.1 = [] then 1 else -1) * Nat.ofDigitChars 10 whole.1 0), power.2)
    else
      (readFloat (String.ofList (sign.1 ++ whole.1 ++ fraction.1 ++ power.1))).map fun v => (ofFloat v, power.2)

/-- The values that are words. -/
def words : List (List Char × Json) :=
  [("null".toList, .null), ("true".toList, .bool true), ("false".toList, .bool false), ("NaN".toList, .nan),
    ("Infinity".toList, .inf false), ("-Infinity".toList, .inf true)]

def readWord (cs : List Char) : Option (Json × List Char) :=
  (words.find? fun p => p.1.isPrefixOf cs).map fun p => (p.2, cs.drop p.1.length)

/-! ## Values -/

def isBlank (c : Char) : Bool := c = ' ' || c = '\t' || c = '\n' || c = '\r'

def skipBlanks (cs : List Char) : List Char := cs.dropWhile isBlank

/-- The elements of a list, one at least, to its closing bracket. -/
def readItems (read : List Char → Option (Json × List Char)) : Nat → List Char → Option (List Json × List Char)
  | 0, _ => none
  | n + 1, cs =>
    (read cs).bind fun p =>
      let rest := skipBlanks p.2
      if rest.head? = some ']' then some ([p.1], rest.tail)
      else if rest.head? = some ',' then
        (readItems read n (skipBlanks rest.tail)).map fun q => (p.1 :: q.1, q.2)
      else none

/-- A key with the colon after it. -/
def readKey (cs : List Char) : Option (String × List Char) :=
  if cs.head? = some '"' then
    (readString cs.tail).bind fun p =>
      let rest := skipBlanks p.2
      if rest.head? = some ':' then some (p.1, skipBlanks rest.tail) else none
  else none

/-- The fields of an object, one at least, to its closing brace. -/
def readFields (read : List Char → Option (Json × List Char)) :
    Nat → List Char → Option (List (String × Json) × List Char)
  | 0, _ => none
  | n + 1, cs =>
    (readKey cs).bind fun key => (read key.2).bind fun p =>
      let rest := skipBlanks p.2
      if rest.head? = some '}' then some ([(key.1, p.1)], rest.tail)
      else if rest.head? = some ',' then
        (readFields read n (skipBlanks rest.tail)).map fun q => ((key.1, p.1) :: q.1, q.2)
      else none

/-- A dictionary of fields: the last one with a key counts. -/
def dictOf (fields : List (String × Json)) : List (String × Json) :=
  fields.foldl (fun d p => Dict.upsertItems p.1 (fun _ => p.2) d) []

/-- A list after its opening bracket. -/
def readArr (read : List Char → Option (Json × List Char)) (cs : List Char) : Option (Json × List Char) :=
  if cs.head? = some ']' then some (.arr [], cs.tail)
  else (readItems read (cs.length + 1) cs).map fun p => (.arr p.1, p.2)

/-- An object after its opening brace. -/
def readObj (read : List Char → Option (Json × List Char)) (cs : List Char) : Option (Json × List Char) :=
  if cs.head? = some '}' then some (.obj [], cs.tail)
  else (readFields read (cs.length + 1) cs).map fun p => (.obj (dictOf p.1), p.2)

/-- A value at the beginning of the text, and what follows it; `none` where the values are nested too deep. -/
def readValue : Nat → List Char → Option (Json × List Char)
  | 0, _ => none
  | _ + 1, [] => none
  | n + 1, c :: cs =>
    if c = '"' then (readString cs).map fun p => (.str p.1, p.2)
    else if c = '[' then readArr (readValue n) (skipBlanks cs)
    else if c = '{' then readObj (readValue n) (skipBlanks cs)
    else (readNumber (c :: cs)).or (readWord (c :: cs))

/-- The document that a text is. -/
def loads (text : String) : Option Json :=
  (readValue (text.toList.length + 1) (skipBlanks text.toList)).bind fun p =>
    if skipBlanks p.2 = [] then some p.1 else none

/-! ## Strings are read back -/

theorem hexValue_digitChar : ∀ k < 16, hexValue (Nat.digitChar k) = some k := by decide

theorem readHex4_hex4 {n : Nat} (hn : n < 65536) (x : List Char) : readHex4 (hex4 n ++ x) = some (n, x) := by
  have hdigit := fun k : Nat => hexValue_digitChar (k % 16) (Nat.mod_lt k (by decide))
  unfold hex4
  simp only [List.cons_append, List.nil_append, readHex4, hdigit, Option.bind_eq_bind, Option.bind_some,
    Option.pure_def, Option.some.injEq, Prod.mk.injEq, and_true]
  omega

theorem charOf_toNat (c : Char) : charOf c.toNat = some c := by
  unfold charOf
  rw [if_pos (show c.toNat.isValidChar from c.valid), Char.ofNat_toNat]

/-- A character is read back from its code, or from the two halves of it. -/
theorem readUnicode_units (c : Char) (x : List Char) :
    readUnicode (hex4 (firstUnit c) ++ (secondUnit c ++ x)) = some (c, x) := by
  have hvalid := toNat_valid c
  unfold readUnicode
  rw [readHex4_hex4 (firstUnit_lt c), Option.bind_some]
  by_cases hlow : c.toNat < 65536
  · have hfirst : firstUnit c = c.toNat := if_pos hlow
    have hsecond : secondUnit c = [] := if_pos hlow
    rw [hfirst, hsecond, if_neg (by omega), charOf_toNat]
    rfl
  · have hfirst : firstUnit c = 55296 + (c.toNat - 65536) / 1024 := if_neg hlow
    have hsecond : secondUnit c = unicodeEscape (56320 + (c.toNat - 65536) % 1024) := if_neg hlow
    have hhalf : (c.toNat - 65536) % 1024 < 1024 := Nat.mod_lt _ (by decide)
    rw [hfirst, hsecond, if_pos (by omega)]
    have htake : (unicodeEscape (56320 + (c.toNat - 65536) % 1024) ++ x).take 2 = ['\\', 'u'] := rfl
    have hdrop : (unicodeEscape (56320 + (c.toNat - 65536) % 1024) ++ x).drop 2 =
        hex4 (56320 + (c.toNat - 65536) % 1024) ++ x := rfl
    unfold readPair
    dsimp only
    rw [if_pos htake, hdrop, readHex4_hex4 (by omega), Option.bind_some]
    dsimp only
    rw [if_pos (by omega)]
    have hcode : 65536 + (55296 + (c.toNat - 65536) / 1024 - 55296) * 1024 +
        (56320 + (c.toNat - 65536) % 1024 - 56320) = c.toNat := by omega
    rw [hcode, charOf_toNat]
    rfl

theorem unescape_shortEscape {c e : Char} (h : shortEscape c = some e) : unescape e = some c := by
  have htable : (shortEscapes.all fun p => unescape p.2 = some p.1) = true := by decide
  exact of_decide_eq_true (List.all_eq_true.mp htable _ (mem_shortEscapes h))

/-- **A character of a string is read back.** -/
theorem readChar_escapeChar (c : Char) (x : List Char) : readChar (escapeChar c ++ x) = some (c, x) := by
  unfold escapeChar
  cases hshort : shortEscape c with
  | some e =>
      show readChar ('\\' :: e :: x) = some (c, x)
      unfold readChar readEscape
      dsimp only
      rw [if_pos rfl, if_neg (shortEscape_ne_u hshort), unescape_shortEscape hshort]
      rfl
  | none =>
      dsimp only
      split
      · rename_i hprintable
        have hslash : c ≠ '\\' := by
          rintro rfl
          exact absurd hshort (by decide)
        show readChar (c :: x) = some (c, x)
        unfold readChar
        dsimp only
        rw [if_neg hslash, if_neg (by omega)]
      · show readChar ('\\' :: 'u' :: (hex4 (firstUnit c) ++ secondUnit c) ++ x) = some (c, x)
        rw [List.cons_append, List.cons_append, List.append_assoc]
        unfold readChar readEscape
        dsimp only
        rw [if_pos rfl, if_pos rfl]
        exact readUnicode_units c x

theorem escapeChar_ne_nil (c : Char) : escapeChar c ≠ [] := by
  rcases escapeChar_cases c with ⟨e, _, hc⟩ | ⟨_, _, hc⟩ | hc
  · rw [hc]
    exact List.cons_ne_nil _ _
  · rw [hc]
    exact List.cons_ne_nil _ _
  · rw [hc]
    exact List.cons_ne_nil _ _

theorem readChars_escaped {cs : List Char} {n : Nat} (hn : cs.length < n) (x : List Char) :
    readChars n (cs.flatMap escapeChar ++ '"' :: x) = some (cs, x) := by
  induction cs generalizing n with
  | nil =>
      obtain ⟨n, rfl⟩ := Nat.exists_eq_succ_of_ne_zero (Nat.ne_zero_of_lt hn)
      rfl
  | cons c cs ih =>
      obtain ⟨n, rfl⟩ := Nat.exists_eq_succ_of_ne_zero (Nat.ne_zero_of_lt hn)
      have hquote : (escapeChar c ++ (cs.flatMap escapeChar ++ '"' :: x)).head? ≠ some '"' := by
        intro h
        obtain ⟨ds, hds⟩ := List.head?_eq_some_iff.mp h
        exact escapeChar_ne_quote c _ ds hds
      rw [List.flatMap_cons, List.append_assoc]
      unfold readChars
      rw [if_neg hquote, readChar_escapeChar, Option.bind_some]
      dsimp only
      rw [ih (Nat.lt_of_succ_lt_succ hn), Option.map_some]

theorem length_le_escaped (cs : List Char) : cs.length ≤ (cs.flatMap escapeChar).length := by
  induction cs with
  | nil => exact Nat.le_refl 0
  | cons c cs ih =>
      have hpos := List.length_pos_iff.mpr (escapeChar_ne_nil c)
      rw [List.flatMap_cons, List.length_append, List.length_cons]
      omega

/-- **A string is read back**, after its opening quote. -/
theorem readString_quote (s : String) (x : List Char) :
    readString (s.toList.flatMap escapeChar ++ '"' :: x) = some (s, x) := by
  have hlength := length_le_escaped s.toList
  unfold readString
  rw [readChars_escaped (by rw [List.length_append]; omega), Option.map_some, String.ofList_toList]

/-! ## Numbers are read back -/

/-- A value ends here: at a comma, a closing bracket or the end. -/
def Stops (x : List Char) : Prop := ∀ c ∈ x.head?, c = ',' ∨ c = ']' ∨ c = '}'

theorem stops_nil : Stops [] := fun _ h => nomatch h

theorem stops_cons {c : Char} (h : c = ',' ∨ c = ']' ∨ c = '}') (x : List Char) : Stops (c :: x) := by
  intro d hd
  obtain rfl := Option.some.inj hd
  exact h

/-- What ends a value is not a character of one kind. -/
theorem Stops.head {x : List Char} (hx : Stops x) {P : Char → Prop} (hcomma : P ',') (hbracket : P ']')
    (hbrace : P '}') : ∀ c ∈ x.head?, P c := by
  intro c hc
  rcases hx c hc with rfl | rfl | rfl
  · exact hcomma
  · exact hbracket
  · exact hbrace

theorem head?_ne {x : List Char} {d : Char} (h : ∀ c ∈ x.head?, c ≠ d) : x.head? ≠ some d := fun hd => h d hd rfl

/-- A run of digits is taken off. -/
theorem takeWhile_digits {ds x : List Char} (hds : ∀ d ∈ ds, d.isDigit = true) (hx : ∀ c ∈ x.head?, c.isDigit = false) :
    (ds ++ x).takeWhile Char.isDigit = ds ∧ (ds ++ x).dropWhile Char.isDigit = x := by
  have hspan := span_run hds hx
  rw [List.span_eq_takeWhile_dropWhile] at hspan
  exact Prod.mk.inj hspan

theorem readOneOf_none {signs cs : List Char} (h : ∀ c ∈ cs.head?, c ∉ signs) : readOneOf signs cs = ([], cs) := by
  cases cs with
  | nil => rfl
  | cons c cs => exact if_neg (h c rfl)

theorem readPoint_none {cs : List Char} (h : ∀ c ∈ cs.head?, c ≠ '.') : readPoint cs = ([], cs) :=
  if_neg fun hand => head?_ne h hand.1

theorem readPower_none {cs : List Char} (h : ∀ c ∈ cs.head?, c ∉ ['e', 'E']) : readPower cs = ([], cs) := by
  unfold readPower
  rw [readOneOf_none h]
  exact if_neg fun hand => hand.1 rfl

/-- The digits of a number begin with a zero only if it is zero. -/
theorem toString_head_zero {n : Nat} (h : (toString n).toList.head? = some '0') : (toString n).toList = ['0'] := by
  rw [Nat.toString_eq_repr, Nat.toList_repr] at h ⊢
  induction n using Nat.strongRecOn with
  | ind n ih =>
      by_cases hlt : n < 10
      · rw [Nat.toDigits_of_lt_base hlt] at h ⊢
        rw [Option.some.inj h]
      · rw [Nat.toDigits_of_base_le (by decide) (by omega), List.head?_append_of_ne_nil _ Nat.toDigits_ne_nil] at h
        have hzero := ih (n / 10) (by omega) h
        have hvalue : Nat.ofDigitChars 10 (Nat.toDigits 10 (n / 10)) 0 = 0 := by
          rw [hzero]
          rfl
        rw [Nat.ofDigitChars_ten_toDigits] at hvalue
        omega

/-- The digits of a number are read back. -/
theorem readWhole_toString (n : Nat) {x : List Char} (hx : ∀ c ∈ x.head?, c.isDigit = false) :
    readWhole ((toString n).toList ++ x) = some ((toString n).toList, x) := by
  have hne := toString_ne_nil n
  unfold readWhole
  rw [List.head?_append_of_ne_nil _ hne]
  by_cases hzero : (toString n).toList.head? = some '0'
  · rw [if_pos hzero, toString_head_zero hzero]
    rfl
  · obtain ⟨htake, hdrop⟩ := takeWhile_digits (fun _ => isDigit_of_mem_toString (n := n)) hx
    rw [if_neg hzero, htake, hdrop, if_neg hne]

theorem readOneOf_sign (negative : Bool) (n : Nat) (x : List Char) :
    readOneOf ['-'] ((if negative then ['-'] else []) ++ ((toString n).toList ++ x)) =
      (if negative then ['-'] else [], (toString n).toList ++ x) := by
  cases negative with
  | true => rfl
  | false =>
      refine readOneOf_none ?_
      intro c hc hminus
      rw [if_neg Bool.false_ne_true, List.nil_append, List.head?_append_of_ne_nil _ (toString_ne_nil n)] at hc
      have hdigit := isDigit_of_mem_toString (List.mem_of_mem_head? hc)
      rw [List.mem_singleton.mp hminus] at hdigit
      exact absurd hdigit (by decide)

/-- **An integer is read back.** -/
theorem readNumber_int (i : ℤ) {x : List Char} (hx : Stops x) :
    readNumber ((toString i).toList ++ x) = some (.int i, x) := by
  have hdigit : ∀ c ∈ x.head?, c.isDigit = false := hx.head (by decide) (by decide) (by decide)
  have hsign := readOneOf_sign (decide (i < 0)) i.natAbs x
  simp only [decide_eq_true_eq] at hsign
  unfold readNumber
  rw [toList_toString_int, List.append_assoc, hsign]
  dsimp only
  rw [readWhole_toString _ hdigit, Option.bind_some]
  dsimp only
  rw [readPoint_none (hx.head (by decide) (by decide) (by decide))]
  dsimp only
  rw [readPower_none (hx.head (by decide) (by decide) (by decide))]
  dsimp only
  rw [if_pos ⟨rfl, rfl⟩, ofDigitChars_toString]
  by_cases hneg : i < 0
  · rw [if_pos hneg, if_neg (List.cons_ne_nil _ _)]
    have hi : (-1 : ℤ) * i.natAbs = i := by omega
    rw [hi]
  · rw [if_neg hneg, if_pos rfl]
    have hi : (1 : ℤ) * i.natAbs = i := by omega
    rw [hi]

theorem readPoint_fraction {fraction x : List Char} (hne : fraction ≠ []) (hdigits : ∀ d ∈ fraction, d.isDigit = true)
    (hx : ∀ c ∈ x.head?, c.isDigit = false) : readPoint ('.' :: (fraction ++ x)) = ('.' :: fraction, x) := by
  obtain ⟨htake, hdrop⟩ := takeWhile_digits hdigits hx
  unfold readPoint
  rw [List.head?_cons, List.tail_cons, htake, hdrop, if_pos ⟨rfl, hne⟩]

/-- **A fixed-point number is read as a double.** -/
theorem readNumber_fixed (negative : Bool) (whole : Nat) {fraction : List Char} (hne : fraction ≠ [])
    (hdigits : ∀ d ∈ fraction, d.isDigit = true) {x : List Char} (hx : Stops x) :
    readNumber ((if negative then ['-'] else []) ++ ((toString whole).toList ++ '.' :: (fraction ++ x))) =
      (readFloat (String.ofList
        ((if negative then ['-'] else []) ++ ((toString whole).toList ++ '.' :: fraction)))).map
        fun v => (ofFloat v, x) := by
  have hpoint : ∀ c ∈ ('.' :: (fraction ++ x)).head?, c.isDigit = false := by
    intro c hc
    obtain rfl := Option.some.inj hc
    decide
  unfold readNumber
  rw [readOneOf_sign]
  dsimp only
  rw [readWhole_toString _ hpoint, Option.bind_some]
  dsimp only
  rw [readPoint_fraction hne hdigits (hx.head (by decide) (by decide) (by decide))]
  dsimp only
  rw [readPower_none (hx.head (by decide) (by decide) (by decide)), if_neg fun h => List.cons_ne_nil _ _ h.1,
    List.append_nil, List.append_assoc]

end Json

end Lib
