import Mathlib.Data.List.Sort
import Mathlib.Data.Rat.Defs
import Untangle.Lib.Json
import Untangle.Lib.Printed

/-!
# `Lib.JsonText` — the text of a document determines it

A document is written without white space, with the fields of every object in the order of their keys and every
character outside printable ASCII escaped. The text of a finite float is a parameter, of which only what every JSON
writer guarantees is assumed (`FloatText`). Each construct is a prefix code: where a value ends is decided by the
value alone, except for a number, which ends where the characters of numbers do. So two documents with the same text
are the same up to the order of fields (`canonicalText_inj`).
-/

namespace Lib

/-! ## Strings -/

/-- Four hexadecimal digits. -/
def hex4 (n : Nat) : List Char :=
  [Nat.digitChar (n / 4096 % 16), Nat.digitChar (n / 256 % 16), Nat.digitChar (n / 16 % 16), Nat.digitChar (n % 16)]

/-- The characters that have an escape of their own. -/
def shortEscapes : List (Char × Char) :=
  [('"', '"'), ('\\', '\\'), ('\n', 'n'), ('\r', 'r'), ('\t', 't'), ('\x0c', 'f'), ('\x08', 'b')]

def shortEscape (c : Char) : Option Char := (shortEscapes.find? fun p => p.1 = c).map Prod.snd

def unicodeEscape (n : Nat) : List Char := '\\' :: 'u' :: hex4 n

/-- The code of a character, or the first half of it above the first plane. -/
def firstUnit (c : Char) : Nat := if c.toNat < 65536 then c.toNat else 55296 + (c.toNat - 65536) / 1024

/-- The escape of the second half, where there is one. -/
def secondUnit (c : Char) : List Char :=
  if c.toNat < 65536 then [] else unicodeEscape (56320 + (c.toNat - 65536) % 1024)

/-- One character of a string, as it is in printable ASCII. -/
def escapeChar (c : Char) : List Char :=
  match shortEscape c with
  | some e => ['\\', e]
  | none => if 32 ≤ c.toNat ∧ c.toNat ≤ 126 then [c] else unicodeEscape (firstUnit c) ++ secondUnit c

def quote (s : String) : List Char := '"' :: s.toList.flatMap escapeChar ++ ['"']

theorem digitChar_injOn : ∀ a < 16, ∀ b < 16, Nat.digitChar a = Nat.digitChar b → a = b := by decide

theorem hex4_inj {n m : Nat} (hn : n < 65536) (hm : m < 65536) {x y : List Char} (h : hex4 n ++ x = hex4 m ++ y) :
    n = m ∧ x = y := by
  unfold hex4 at h
  simp only [List.cons_append, List.nil_append, List.cons.injEq] at h
  obtain ⟨h₁, h₂, h₃, h₄, hrest⟩ := h
  have hdigit := fun {a b : Nat} (h : Nat.digitChar (a % 16) = Nat.digitChar (b % 16)) =>
    digitChar_injOn (a % 16) (Nat.mod_lt _ (by decide)) (b % 16) (Nat.mod_lt _ (by decide)) h
  have h₁ := hdigit h₁
  have h₂ := hdigit h₂
  have h₃ := hdigit h₃
  have h₄ := hdigit h₄
  exact ⟨by omega, hrest⟩

theorem unicodeEscape_inj {n m : Nat} (hn : n < 65536) (hm : m < 65536) {x y : List Char}
    (h : unicodeEscape n ++ x = unicodeEscape m ++ y) : n = m ∧ x = y :=
  hex4_inj hn hm (List.cons.inj (List.cons.inj h).2).2

theorem mem_shortEscapes {c e : Char} (h : shortEscape c = some e) : (c, e) ∈ shortEscapes := by
  obtain ⟨p, hp, rfl⟩ := Option.map_eq_some_iff.mp h
  have hc : p.1 = c := by simpa using List.find?_some hp
  exact hc ▸ List.mem_of_find?_eq_some hp

theorem shortEscape_inj {c d e : Char} (hc : shortEscape c = some e) (hd : shortEscape d = some e) : c = d := by
  have htable : (shortEscapes.all fun p => shortEscapes.all fun q => p.2 ≠ q.2 ∨ p.1 = q.1) = true := by decide
  have hrow := List.all_eq_true.mp htable _ (mem_shortEscapes hc)
  have hcell := List.all_eq_true.mp hrow _ (mem_shortEscapes hd)
  exact (of_decide_eq_true hcell).resolve_left fun hne => hne rfl

theorem shortEscape_ne_u {c e : Char} (h : shortEscape c = some e) : e ≠ 'u' := by
  have htable : (shortEscapes.all fun p => p.2 ≠ 'u') = true := by decide
  exact of_decide_eq_true (List.all_eq_true.mp htable _ (mem_shortEscapes h))

/-- The three ways a character is written. -/
theorem escapeChar_cases (c : Char) :
    (∃ e, shortEscape c = some e ∧ escapeChar c = ['\\', e]) ∨
    (c ≠ '\\' ∧ c ≠ '"' ∧ escapeChar c = [c]) ∨
    escapeChar c = unicodeEscape (firstUnit c) ++ secondUnit c := by
  unfold escapeChar
  cases hc : shortEscape c with
  | some e => exact Or.inl ⟨e, rfl, rfl⟩
  | none =>
      dsimp only
      split
      · refine Or.inr (Or.inl ⟨?_, ?_, rfl⟩)
        · rintro rfl
          exact absurd hc (by decide)
        · rintro rfl
          exact absurd hc (by decide)
      · exact Or.inr (Or.inr rfl)

theorem toNat_valid (c : Char) : c.toNat < 55296 ∨ 57343 < c.toNat ∧ c.toNat < 1114112 := c.valid

theorem firstUnit_lt (c : Char) : firstUnit c < 65536 := by
  have hc := toNat_valid c
  unfold firstUnit
  split <;> omega

/-- The halves of a code above the first plane are taken from a gap in the first. -/
theorem units_inj {c d : Char} {x y : List Char}
    (h : unicodeEscape (firstUnit c) ++ (secondUnit c ++ x) = unicodeEscape (firstUnit d) ++ (secondUnit d ++ y)) :
    c = d ∧ x = y := by
  obtain ⟨hfirst, hrest⟩ := unicodeEscape_inj (firstUnit_lt c) (firstUnit_lt d) h
  have hc := toNat_valid c
  have hd := toNat_valid d
  unfold firstUnit at hfirst
  unfold secondUnit at hrest
  split at hfirst <;> split at hfirst
  · rename_i hlow hlow'
    rw [if_pos hlow, if_pos hlow'] at hrest
    exact ⟨Char.toNat_inj.mp hfirst, hrest⟩
  · omega
  · omega
  · rename_i hhigh hhigh'
    rw [if_neg hhigh, if_neg hhigh'] at hrest
    obtain ⟨hsecond, hrest⟩ := unicodeEscape_inj (by omega) (by omega) hrest
    exact ⟨Char.toNat_inj.mp (by omega), hrest⟩

/-- **Where a character ends** is decided by the character. -/
theorem escapeChar_inj {c d : Char} {x y : List Char} (h : escapeChar c ++ x = escapeChar d ++ y) : c = d ∧ x = y := by
  rcases escapeChar_cases c with ⟨e, he, hc⟩ | ⟨hslash, hquote, hc⟩ | hc <;>
    rcases escapeChar_cases d with ⟨e', he', hd⟩ | ⟨hslash', hquote', hd⟩ | hd <;>
    rw [hc, hd] at h
  · obtain ⟨rfl, hrest⟩ := List.cons.inj (List.cons.inj h).2
    exact ⟨shortEscape_inj he he', hrest⟩
  · exact absurd (List.cons.inj h).1.symm hslash'
  · exact absurd (List.cons.inj (List.cons.inj h).2).1 (shortEscape_ne_u he)
  · exact absurd (List.cons.inj h).1 hslash
  · exact List.cons.inj h
  · exact absurd (List.cons.inj h).1 hslash
  · exact absurd (List.cons.inj (List.cons.inj h).2).1.symm (shortEscape_ne_u he')
  · exact absurd (List.cons.inj h).1.symm hslash'
  · rw [List.append_assoc, List.append_assoc] at h
    exact units_inj h

/-- No character is written with a quote first. -/
theorem escapeChar_ne_quote (c : Char) (x y : List Char) : escapeChar c ++ x ≠ '"' :: y := by
  intro h
  rcases escapeChar_cases c with ⟨e, _, hc⟩ | ⟨_, hquote, hc⟩ | hc
  · rw [hc] at h
    exact absurd (List.cons.inj h).1 (by decide)
  · rw [hc] at h
    exact hquote (List.cons.inj h).1
  · rw [hc] at h
    exact absurd (List.cons.inj h).1 (by decide)

/-- **Where a string ends** is decided by the string. -/
theorem quote_inj {s t : String} {x y : List Char} (h : quote s ++ x = quote t ++ y) : s = t ∧ x = y := by
  have hchars : ∀ cs ds : List Char, cs.flatMap escapeChar ++ '"' :: x = ds.flatMap escapeChar ++ '"' :: y →
      cs = ds ∧ x = y := by
    intro cs
    induction cs with
    | nil =>
        intro ds h
        cases ds with
        | nil => exact ⟨rfl, (List.cons.inj h).2⟩
        | cons d ds =>
            rw [List.flatMap_cons, List.append_assoc] at h
            exact absurd h.symm (escapeChar_ne_quote d _ _)
    | cons c cs ih =>
        intro ds h
        cases ds with
        | nil =>
            rw [List.flatMap_cons, List.append_assoc] at h
            exact absurd h (escapeChar_ne_quote c _ _)
        | cons d ds =>
            rw [List.flatMap_cons, List.flatMap_cons, List.append_assoc, List.append_assoc] at h
            obtain ⟨rfl, hrest⟩ := escapeChar_inj h
            obtain ⟨rfl, hend⟩ := ih ds hrest
            exact ⟨rfl, hend⟩
  unfold quote at h
  simp only [List.cons_append, List.append_assoc] at h
  obtain ⟨heq, hend⟩ := hchars _ _ (List.cons.inj h).2
  exact ⟨String.toList_injective heq, hend⟩

/-! ## Numbers -/

def isNumberChar (c : Char) : Bool := c.isDigit || c = '-' || c = '+' || c = '.' || c = 'e'

/-- What every writer of finite floats guarantees: a number that is no integer's text, and the number determines it. -/
structure FloatText (floatText : ℚ → String) : Prop where
  numeric : ∀ q, ∀ c ∈ (floatText q).toList, isNumberChar c = true
  fractional : ∀ q, '.' ∈ (floatText q).toList ∨ 'e' ∈ (floatText q).toList
  injective : Function.Injective floatText

/-- The text does not go on with a number. -/
def EndsNumber (x : List Char) : Prop := ∀ c ∈ x.head?, isNumberChar c = false

theorem isNumberChar_of_digit {c : Char} (h : c.isDigit = true) : isNumberChar c = true := by
  unfold isNumberChar
  rw [h]
  rfl

theorem toList_toString_int (i : ℤ) :
    (toString i).toList = (if i < 0 then ['-'] else []) ++ (toString i.natAbs).toList := by
  cases i with
  | ofNat n => rfl
  | negSucc n =>
      rw [if_pos (Int.negSucc_lt_zero n)]
      show ("-" ++ toString (n + 1)).toList = _
      rw [String.toList_append]
      rfl

/-- The characters of an integer: a sign and digits. -/
theorem intText_chars {i : ℤ} {c : Char} (h : c ∈ (toString i).toList) : c = '-' ∨ c.isDigit = true := by
  rw [toList_toString_int] at h
  rcases List.mem_append.mp h with hsign | hdigit
  · split at hsign
    · exact Or.inl (List.mem_singleton.mp hsign)
    · exact absurd hsign List.not_mem_nil
  · exact Or.inr (isDigit_of_mem_toString hdigit)

theorem toString_nat_injective {n m : Nat} (h : (toString n).toList = (toString m).toList) : n = m := by
  rw [Nat.toString_eq_repr, Nat.toString_eq_repr, Nat.toList_repr, Nat.toList_repr] at h
  have hback := congrArg (fun ds => Nat.ofDigitChars 10 ds 0) h
  simpa using hback

theorem intText_inj {i k : ℤ} (h : (toString i).toList = (toString k).toList) : i = k := by
  have hhead : ∀ n : Nat, (toString n).toList.head? ≠ some '-' := by
    intro n hn
    have hdigit := isDigit_of_mem_toString (List.mem_of_mem_head? hn)
    exact absurd hdigit (by decide)
  rw [toList_toString_int, toList_toString_int] at h
  split at h <;> split at h
  · have hnat := toString_nat_injective (List.append_cancel_left h)
    omega
  · rw [List.nil_append] at h
    exact absurd (h ▸ rfl) (hhead k.natAbs)
  · rw [List.nil_append] at h
    exact absurd (h.symm ▸ rfl) (hhead i.natAbs)
  · have hnat := toString_nat_injective (List.append_cancel_left h)
    omega

namespace Json

/-! ## Values -/

section Text

variable (floatText : ℚ → String)

/-- What a key becomes in a text. -/
def keyText : DictKey → String
  | .str s => s
  | .null => "null"
  | .bool b => if b then "true" else "false"
  | .int i => toString i
  | .float q => floatText q

mutual

/-- The text of a value, its fields in the order in which they are listed. -/
def print : Json → List Char
  | .null => "null".toList
  | .bool b => (if b then "true" else "false").toList
  | .int i => (toString i).toList
  | .float q => (floatText q).toList
  | .inf negative => (if negative then "-Infinity" else "Infinity").toList
  | .nan => "NaN".toList
  | .str s => quote s
  | .arr items => '[' :: printItems items
  | .obj fields => '{' :: printFields fields
  | .dict entries => '{' :: printEntries entries

def printItems : List Json → List Char
  | [] => [']']
  | v :: vs => print v ++ printMoreItems vs

def printMoreItems : List Json → List Char
  | [] => [']']
  | v :: vs => ',' :: (print v ++ printMoreItems vs)

def printFields : List (String × Json) → List Char
  | [] => ['}']
  | (key, v) :: fields => quote key ++ ':' :: (print v ++ printMoreFields fields)

def printMoreFields : List (String × Json) → List Char
  | [] => ['}']
  | (key, v) :: fields => ',' :: (quote key ++ ':' :: (print v ++ printMoreFields fields))

def printEntries : List (DictKey × Json) → List Char
  | [] => ['}']
  | (key, v) :: entries => quote (keyText floatText key) ++ ':' :: (print v ++ printMoreEntries entries)

def printMoreEntries : List (DictKey × Json) → List Char
  | [] => ['}']
  | (key, v) :: entries => ',' :: (quote (keyText floatText key) ++ ':' :: (print v ++ printMoreEntries entries))

end

mutual

/-- **What the text of a value decodes to**: keys that are no texts become texts. -/
def decoded : Json → Json
  | .arr items => .arr (decodedItems items)
  | .obj fields => .obj (decodedFields fields)
  | .dict entries => .obj (decodedEntries entries)
  | v => v

def decodedItems : List Json → List Json
  | [] => []
  | v :: vs => decoded v :: decodedItems vs

def decodedFields : List (String × Json) → List (String × Json)
  | [] => []
  | (key, v) :: fields => (key, decoded v) :: decodedFields fields

def decodedEntries : List (DictKey × Json) → List (String × Json)
  | [] => []
  | (key, v) :: entries => (keyText floatText key, decoded v) :: decodedEntries entries

end

end Text

mutual

/-- The value as `sort_keys` lists it: texts in their order, other keys in the order of the numbers they are. -/
def sortKeys : Json → Json
  | .arr items => .arr (sortItems items)
  | .obj fields => .obj ((sortFields fields).insertionSort fun p q => p.1 ≤ q.1)
  | .dict entries => .dict ((sortEntries entries).insertionSort fun p q => p.1.number?.getD 0 ≤ q.1.number?.getD 0)
  | v => v

def sortItems : List Json → List Json
  | [] => []
  | v :: vs => sortKeys v :: sortItems vs

def sortFields : List (String × Json) → List (String × Json)
  | [] => []
  | (key, v) :: fields => (key, sortKeys v) :: sortFields fields

def sortEntries : List (DictKey × Json) → List (DictKey × Json)
  | [] => []
  | (key, v) :: entries => (key, sortKeys v) :: sortEntries entries

end

/-- The canonical text: sorted keys, no white space, ASCII. -/
def canonicalText (floatText : ℚ → String) (j : Json) : String := String.ofList (print floatText (sortKeys j))

/-! ### The functions, element by element -/

section Maps

variable {floatText : ℚ → String}

theorem decodedItems_eq (items : List Json) : decodedItems floatText items = items.map (decoded floatText) := by
  induction items with
  | nil => rfl
  | cons v vs ih => rw [decodedItems, ih, List.map_cons]

theorem decodedFields_eq (fields : List (String × Json)) :
    decodedFields floatText fields = fields.map fun p => (p.1, decoded floatText p.2) := by
  induction fields with
  | nil => rfl
  | cons p fields ih => rw [decodedFields, ih, List.map_cons]

theorem decodedEntries_eq (entries : List (DictKey × Json)) :
    decodedEntries floatText entries = entries.map fun p => (keyText floatText p.1, decoded floatText p.2) := by
  induction entries with
  | nil => rfl
  | cons p entries ih => rw [decodedEntries, ih, List.map_cons]

theorem sortItems_eq (items : List Json) : sortItems items = items.map sortKeys := by
  induction items with
  | nil => rfl
  | cons v vs ih => rw [sortItems, ih, List.map_cons]

theorem sortFields_eq (fields : List (String × Json)) :
    sortFields fields = fields.map fun p => (p.1, sortKeys p.2) := by
  induction fields with
  | nil => rfl
  | cons p fields ih => rw [sortFields, ih, List.map_cons]

theorem sortEntries_eq (entries : List (DictKey × Json)) :
    sortEntries entries = entries.map fun p => (p.1, sortKeys p.2) := by
  induction entries with
  | nil => rfl
  | cons p entries ih => rw [sortEntries, ih, List.map_cons]

/-- A value and what it decodes to have the same text. -/
theorem print_decoded (j : Json) : print floatText (decoded floatText j) = print floatText j := by
  induction j using induction with
  | arr items ih =>
      have hmore : ∀ vs, (∀ v ∈ vs, print floatText (decoded floatText v) = print floatText v) →
          printMoreItems floatText (decodedItems floatText vs) = printMoreItems floatText vs := by
        intro vs
        induction vs with
        | nil => exact fun _ => rfl
        | cons v vs ihvs =>
            intro h
            rw [decodedItems, printMoreItems, printMoreItems, h v List.mem_cons_self,
              ihvs fun w hw => h w (List.mem_cons_of_mem v hw)]
      cases items with
      | nil => rfl
      | cons v vs =>
          rw [decoded, decodedItems, print, print, printItems, printItems, ih v List.mem_cons_self,
            hmore vs fun w hw => ih w (List.mem_cons_of_mem v hw)]
  | obj fields ih =>
      have hmore : ∀ fields, (∀ p ∈ fields, print floatText (decoded floatText p.2) = print floatText p.2) →
          printMoreFields floatText (decodedFields floatText fields) = printMoreFields floatText fields := by
        intro fields
        induction fields with
        | nil => exact fun _ => rfl
        | cons p fields ihp =>
            intro h
            rw [decodedFields, printMoreFields, printMoreFields, h p List.mem_cons_self,
              ihp fun q hq => h q (List.mem_cons_of_mem p hq)]
      cases fields with
      | nil => rfl
      | cons p fields =>
          rw [decoded, decodedFields, print, print, printFields, printFields, ih p List.mem_cons_self,
            hmore fields fun q hq => ih q (List.mem_cons_of_mem p hq)]
  | dict entries ih =>
      have hmore : ∀ entries, (∀ p ∈ entries, print floatText (decoded floatText p.2) = print floatText p.2) →
          printMoreFields floatText (decodedEntries floatText entries) = printMoreEntries floatText entries := by
        intro entries
        induction entries with
        | nil => exact fun _ => rfl
        | cons p entries ihp =>
            intro h
            rw [decodedEntries, printMoreFields, printMoreEntries, h p List.mem_cons_self,
              ihp fun q hq => h q (List.mem_cons_of_mem p hq)]
      cases entries with
      | nil => rfl
      | cons p entries =>
          rw [decoded, decodedEntries, print, print, printFields, printEntries, ih p List.mem_cons_self,
            hmore entries fun q hq => ih q (List.mem_cons_of_mem p hq)]
  | _ => rfl

end Maps

/-! ## What a text determines -/

/-- A value that JSON has: no special float, and texts for keys. -/
inductive Plain : Json → Prop
  | null : Plain .null
  | bool (b : Bool) : Plain (.bool b)
  | int (i : ℤ) : Plain (.int i)
  | float (q : ℚ) : Plain (.float q)
  | str (s : String) : Plain (.str s)
  | arr {items : List Json} (h : ∀ v ∈ items, Plain v) : Plain (.arr items)
  | obj {fields : List (String × Json)} (h : ∀ p ∈ fields, Plain p.2) : Plain (.obj fields)

/-- What a value opens with: nothing that another kind of value opens with, nor a closing bracket. -/
inductive Opening
  | null
  | true
  | false
  | number
  | str
  | arr
  | obj
deriving DecidableEq

def openingOf (c : Char) : Option Opening :=
  if c = 'n' then some .null
  else if c = 't' then some .true
  else if c = 'f' then some .false
  else if c = '"' then some .str
  else if c = '[' then some .arr
  else if c = '{' then some .obj
  else if isNumberChar c then some .number
  else none

def opening : Json → Opening
  | .bool b => if b then .true else .false
  | .int _ | .float _ | .inf _ | .nan => .number
  | .str _ => .str
  | .arr _ => .arr
  | .obj _ | .dict _ => .obj
  | .null => .null

section Determined

variable {floatText : ℚ → String}

theorem openingOf_number {c : Char} (h : isNumberChar c = true) : openingOf c = some .number := by
  have hnot : ∀ d : Char, isNumberChar d = false → c ≠ d := by
    rintro d hd rfl
    rw [h] at hd
    cases hd
  unfold openingOf
  rw [if_neg (hnot 'n' (by decide)), if_neg (hnot 't' (by decide)), if_neg (hnot 'f' (by decide)),
    if_neg (hnot '"' (by decide)), if_neg (hnot '[' (by decide)), if_neg (hnot '{' (by decide)), if_pos h]

theorem opening_of_run {cs : List Char} (hne : cs ≠ []) (h : ∀ c ∈ cs, isNumberChar c = true) :
    ∃ c rest, cs = c :: rest ∧ openingOf c = some .number := by
  obtain ⟨c, rest, rfl⟩ := List.exists_cons_of_ne_nil hne
  exact ⟨c, rest, rfl, openingOf_number (h c List.mem_cons_self)⟩

theorem isNumberChar_intText (i : ℤ) : ∀ c ∈ (toString i).toList, isNumberChar c = true := by
  intro c hc
  rcases intText_chars hc with rfl | hdigit
  · decide
  · exact isNumberChar_of_digit hdigit

/-- The first character of a value tells its kind. -/
theorem print_opens (hfloat : FloatText floatText) {v : Json} (h : Plain v) :
    ∃ c cs, print floatText v = c :: cs ∧ openingOf c = some (opening v) := by
  cases h with
  | null => exact ⟨_, _, rfl, by decide⟩
  | bool b => cases b <;> exact ⟨_, _, rfl, by decide⟩
  | int i =>
      refine opening_of_run ?_ (isNumberChar_intText i)
      intro hnil
      have hdigits : (toString i.natAbs).toList = [] := by
        have happ : (toString i).toList = [] := hnil
        rw [toList_toString_int] at happ
        exact (List.append_eq_nil_iff.mp happ).2
      rw [Nat.toString_eq_repr, Nat.toList_repr] at hdigits
      exact Nat.toDigits_ne_nil hdigits
  | float q =>
      refine opening_of_run ?_ (hfloat.numeric q)
      rcases hfloat.fractional q with h | h
      · exact List.ne_nil_of_mem h
      · exact List.ne_nil_of_mem h
  | str s => exact ⟨_, _, rfl, rfl⟩
  | arr _ => exact ⟨_, _, rfl, rfl⟩
  | obj _ => exact ⟨_, _, rfl, rfl⟩

theorem opening_eq (hfloat : FloatText floatText) {v w : Json} (hv : Plain v) (hw : Plain w) {x y : List Char}
    (h : print floatText v ++ x = print floatText w ++ y) : opening v = opening w := by
  obtain ⟨c, cs, hc, hopen⟩ := print_opens hfloat hv
  obtain ⟨d, ds, hd, hopen'⟩ := print_opens hfloat hw
  rw [hc, hd] at h
  rw [(List.cons.inj h).1, hopen'] at hopen
  exact (Option.some.inj hopen).symm

/-- A value does not open with a closing bracket. -/
theorem print_ne_closing (hfloat : FloatText floatText) {v : Json} (hv : Plain v) {c : Char} (hc : openingOf c = none)
    (x y : List Char) : print floatText v ++ x ≠ c :: y := by
  intro h
  obtain ⟨d, ds, hd, hopen⟩ := print_opens hfloat hv
  rw [hd] at h
  rw [(List.cons.inj h).1, hc] at hopen
  cases hopen

/-- The text of a float has a character that no integer's has. -/
theorem intText_ne_floatText (hfloat : FloatText floatText) (i : ℤ) (q : ℚ) :
    (toString i).toList ≠ (floatText q).toList := by
  intro heq
  rcases hfloat.fractional q with hc | hc
  · rw [← heq] at hc
    rcases intText_chars hc with hminus | hdigit
    · exact absurd hminus (by decide)
    · exact absurd hdigit (by decide)
  · rw [← heq] at hc
    rcases intText_chars hc with hminus | hdigit
    · exact absurd hminus (by decide)
    · exact absurd hdigit (by decide)

/-- The text of a number. -/
theorem number_inj (hfloat : FloatText floatText) {v w : Json} (hv : Plain v) (hw : Plain w)
    (hnumber : opening v = .number) (hnumber' : opening w = .number) {x y : List Char} (hx : EndsNumber x)
    (hy : EndsNumber y) (h : print floatText v ++ x = print floatText w ++ y) : v = w ∧ x = y := by
  have hrun : ∀ u, Plain u → opening u = .number → ∀ c ∈ print floatText u, isNumberChar c = true := by
    intro u hu hopen
    cases hu with
    | int i => exact isNumberChar_intText i
    | float q => exact hfloat.numeric q
    | bool b => cases b <;> cases hopen
    | _ => cases hopen
  obtain ⟨htext, hrest⟩ := append_inj_of_run (hrun v hv hnumber) (hrun w hw hnumber') hx hy h
  refine ⟨?_, hrest⟩
  cases hv with
  | int i =>
      cases hw with
      | int k => rw [intText_inj htext]
      | float q => exact absurd htext (intText_ne_floatText hfloat i q)
      | bool b => cases b <;> cases hnumber'
      | _ => cases hnumber'
  | float q =>
      cases hw with
      | int k => exact absurd htext.symm (intText_ne_floatText hfloat k q)
      | float r => rw [hfloat.injective (String.toList_injective htext)]
      | bool b => cases b <;> cases hnumber'
      | _ => cases hnumber'
  | bool b => cases b <;> cases hnumber
  | _ => cases hnumber

theorem endsNumber_more (vs : List Json) (x : List Char) : EndsNumber (printMoreItems floatText vs ++ x) := by
  intro c hc
  cases vs with
  | nil =>
      obtain rfl := Option.some.inj hc
      decide
  | cons v vs =>
      obtain rfl := Option.some.inj hc
      decide

theorem endsNumber_moreFields (fields : List (String × Json)) (x : List Char) :
    EndsNumber (printMoreFields floatText fields ++ x) := by
  intro c hc
  cases fields with
  | nil =>
      obtain rfl := Option.some.inj hc
      decide
  | cons p fields =>
      obtain rfl := Option.some.inj hc
      decide

/-- The text of `v`, and where it ends, determine `v`. -/
def Determined (floatText : ℚ → String) (v : Json) : Prop :=
  ∀ {w}, Plain w → ∀ {x y}, EndsNumber x → EndsNumber y → print floatText v ++ x = print floatText w ++ y →
    v = w ∧ x = y

theorem printMoreItems_inj {vs : List Json} (hvs : ∀ v ∈ vs, Determined floatText v) :
    ∀ {ws}, (∀ w ∈ ws, Plain w) → ∀ {x y}, printMoreItems floatText vs ++ x = printMoreItems floatText ws ++ y →
      vs = ws ∧ x = y := by
  induction vs with
  | nil =>
      intro ws _ x y h
      cases ws with
      | nil => exact ⟨rfl, (List.cons.inj h).2⟩
      | cons w ws => exact absurd (List.cons.inj h).1 (by decide)
  | cons v vs ih =>
      intro ws hws x y h
      cases ws with
      | nil => exact absurd (List.cons.inj h).1 (by decide)
      | cons w ws =>
          have hbody := (List.cons.inj h).2
          rw [List.append_eq, List.append_eq, List.append_assoc, List.append_assoc] at hbody
          obtain ⟨rfl, hmore⟩ := hvs v List.mem_cons_self (hws w List.mem_cons_self) (endsNumber_more vs x)
            (endsNumber_more ws y) hbody
          obtain ⟨rfl, hend⟩ := ih (fun u hu => hvs u (List.mem_cons_of_mem v hu))
            (fun u hu => hws u (List.mem_cons_of_mem v hu)) hmore
          exact ⟨rfl, hend⟩

/-- A field, its value being determined. -/
theorem field_inj {p q : String × Json} {fields fields' : List (String × Json)} (hp : Determined floatText p.2)
    (hq : Plain q.2) {x y : List Char}
    (h : quote p.1 ++ ':' :: (print floatText p.2 ++ printMoreFields floatText fields) ++ x =
      quote q.1 ++ ':' :: (print floatText q.2 ++ printMoreFields floatText fields') ++ y) :
    p = q ∧ printMoreFields floatText fields ++ x = printMoreFields floatText fields' ++ y := by
  rw [List.append_assoc, List.append_assoc, List.cons_append, List.cons_append] at h
  obtain ⟨hkey, hrest⟩ := quote_inj h
  have hvalue := (List.cons.inj hrest).2
  rw [List.append_assoc, List.append_assoc] at hvalue
  obtain ⟨hval, hmore⟩ := hp hq (endsNumber_moreFields _ _) (endsNumber_moreFields _ _) hvalue
  exact ⟨Prod.ext hkey hval, hmore⟩

theorem printMoreFields_inj {fields : List (String × Json)} (hfields : ∀ p ∈ fields, Determined floatText p.2) :
    ∀ {fields' : List (String × Json)}, (∀ p ∈ fields', Plain p.2) → ∀ {x y},
      printMoreFields floatText fields ++ x = printMoreFields floatText fields' ++ y → fields = fields' ∧ x = y := by
  induction fields with
  | nil =>
      intro fields' _ x y h
      cases fields' with
      | nil => exact ⟨rfl, (List.cons.inj h).2⟩
      | cons q fields' => exact absurd (List.cons.inj h).1 (by decide)
  | cons p fields ih =>
      intro fields' hplain x y h
      cases fields' with
      | nil => exact absurd (List.cons.inj h).1 (by decide)
      | cons q fields' =>
          obtain ⟨rfl, hmore⟩ := field_inj (hfields p List.mem_cons_self) (hplain q List.mem_cons_self)
            (List.cons.inj h).2
          obtain ⟨rfl, hend⟩ := ih (fun u hu => hfields u (List.mem_cons_of_mem p hu))
            (fun u hu => hplain u (List.mem_cons_of_mem p hu)) hmore
          exact ⟨rfl, hend⟩

/-- **The text of a value determines it**, and where it ends. -/
theorem print_inj (hfloat : FloatText floatText) {v : Json} (hv : Plain v) : Determined floatText v := by
  induction hv with
  | null =>
      intro w hw x y _ _ h
      have hopen := opening_eq hfloat .null hw h
      cases hw with
      | null => exact ⟨rfl, List.append_cancel_left h⟩
      | bool b => cases b <;> cases hopen
      | _ => cases hopen
  | bool b =>
      intro w hw x y _ _ h
      have hopen := opening_eq hfloat (.bool b) hw h
      cases hw with
      | bool b' =>
          obtain rfl : b = b' := by
            cases b <;> cases b' <;> first | rfl | cases hopen
          exact ⟨rfl, List.append_cancel_left h⟩
      | _ => cases b <;> cases hopen
  | int i =>
      intro w hw x y hx hy h
      exact number_inj hfloat (.int i) hw rfl (opening_eq hfloat (.int i) hw h).symm hx hy h
  | float q =>
      intro w hw x y hx hy h
      exact number_inj hfloat (.float q) hw rfl (opening_eq hfloat (.float q) hw h).symm hx hy h
  | str s =>
      intro w hw x y _ _ h
      have hopen := opening_eq hfloat (.str s) hw h
      cases hw with
      | str t =>
          obtain ⟨rfl, hend⟩ := quote_inj h
          exact ⟨rfl, hend⟩
      | bool b => cases b <;> cases hopen
      | _ => cases hopen
  | @arr vs hvs ih =>
      intro w hw x y _ _ h
      have hopen := opening_eq hfloat (.arr hvs) hw h
      cases hw with
      | @arr ws hws =>
          have hbody := (List.cons.inj h).2
          cases vs with
          | nil =>
              cases ws with
              | nil => exact ⟨rfl, (List.cons.inj hbody).2⟩
              | cons w ws =>
                  rw [List.append_eq, List.append_eq, printItems, printItems, List.append_assoc] at hbody
                  exact absurd hbody.symm (print_ne_closing hfloat (hws w List.mem_cons_self) (by decide) _ _)
          | cons v vs =>
              cases ws with
              | nil =>
                  rw [List.append_eq, List.append_eq, printItems, printItems, List.append_assoc] at hbody
                  exact absurd hbody (print_ne_closing hfloat (hvs v List.mem_cons_self) (by decide) _ _)
              | cons w ws =>
                  rw [List.append_eq, List.append_eq, printItems, printItems, List.append_assoc,
                    List.append_assoc] at hbody
                  obtain ⟨rfl, hmore⟩ := ih v List.mem_cons_self (hws w List.mem_cons_self) (endsNumber_more vs x)
                    (endsNumber_more ws y) hbody
                  obtain ⟨rfl, hend⟩ := printMoreItems_inj (fun u hu => ih u (List.mem_cons_of_mem v hu))
                    (fun u hu => hws u (List.mem_cons_of_mem v hu)) hmore
                  exact ⟨rfl, hend⟩
      | bool b => cases b <;> cases hopen
      | _ => cases hopen
  | @obj fields hfields ih =>
      intro w hw x y _ _ h
      have hopen := opening_eq hfloat (.obj hfields) hw h
      cases hw with
      | @obj fields' hfields' =>
          have hbody := (List.cons.inj h).2
          cases fields with
          | nil =>
              cases fields' with
              | nil => exact ⟨rfl, (List.cons.inj hbody).2⟩
              | cons q fields' => exact absurd (List.cons.inj hbody).1 (by decide)
          | cons p fields =>
              cases fields' with
              | nil => exact absurd (List.cons.inj hbody).1 (by decide)
              | cons q fields' =>
                  obtain ⟨rfl, hmore⟩ := field_inj (ih p List.mem_cons_self) (hfields' q List.mem_cons_self) hbody
                  obtain ⟨rfl, hend⟩ := printMoreFields_inj (fun u hu => ih u (List.mem_cons_of_mem p hu))
                    (fun u hu => hfields' u (List.mem_cons_of_mem p hu)) hmore
                  exact ⟨rfl, hend⟩
      | bool b => cases b <;> cases hopen
      | _ => cases hopen

/-- Keys that are numbers are told apart by their texts. -/
theorem keyText_inj (hfloat : FloatText floatText) {k k' : DictKey} (hk : k.number?.isSome = true)
    (hk' : k'.number?.isSome = true) (h : keyText floatText k = keyText floatText k') : k = k' := by
  have hword : ∀ (b : Bool) (cs : List Char), (∀ c ∈ cs, isNumberChar c = true) →
      (keyText floatText (.bool b)).toList ≠ cs := by
    rintro b cs hcs rfl
    cases b with
    | false => exact absurd (hcs 'f' (show 'f' ∈ "false".toList by decide)) (by decide)
    | true => exact absurd (hcs 't' (show 't' ∈ "true".toList by decide)) (by decide)
  have htext := congrArg String.toList h
  cases k with
  | str s => cases hk
  | null => cases hk
  | bool b =>
      cases k' with
      | bool b' =>
          cases b with
          | false =>
              cases b' with
              | false => rfl
              | true => exact absurd h (show "false" ≠ "true" by decide)
          | true =>
              cases b' with
              | false => exact absurd h (show "true" ≠ "false" by decide)
              | true => rfl
      | int i => exact absurd htext (hword b _ (isNumberChar_intText i))
      | float q => exact absurd htext (hword b _ (hfloat.numeric q))
      | _ => cases hk'
  | int i =>
      cases k' with
      | bool b => exact absurd htext.symm (hword b _ (isNumberChar_intText i))
      | int i' => rw [intText_inj htext]
      | float q => exact absurd htext (intText_ne_floatText hfloat i q)
      | _ => cases hk'
  | float q =>
      cases k' with
      | bool b => exact absurd htext.symm (hword b _ (hfloat.numeric q))
      | int i => exact absurd htext.symm (intText_ne_floatText hfloat i q)
      | float q' => rw [hfloat.injective h]
      | _ => cases hk'

end Determined

end Json

end Lib
