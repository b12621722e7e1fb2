import Mathlib.Data.List.TakeWhile
import Untangle.Engine.Ingest
import Untangle.Lib.Fallible

/-!
# `Correctness.Ingest` — what the loader of a report makes of any value

The loader reads the fields of its elements in a fixed order, and what it reads from a field is taken, rejected with an
`InputError`, or brings about another exception. What happens is said by the value of the field alone (`rowVerdicts`),
so the loader answers the rows or an `InputError` precisely if no field of the last kind comes before the first that is
rejected (`recon_loader_closed_iff`). The amounts of the rows are the integers that the values denote.
-/

namespace Untangle

open Lib

/-! ## What is denoted -/

section Denotes

variable (D : DecimalDigits)

/-- An integer in digits: an optional sign, and groups of digits with underscores between them. -/
inductive IntegerNumeral : List Char → ℤ → Prop
  | mk {sign : List Char} (hsign : sign = [] ∨ sign = ['+'] ∨ sign = ['-']) (groups : List (List Char))
      (hne : groups ≠ []) (hdigits : ∀ g ∈ groups, g ≠ [] ∧ ∀ c ∈ g, D.isDecimal c = true) :
      IntegerNumeral (sign ++ ['_'].intercalate groups)
        (if sign = ['-'] then -(D.number groups.flatten : ℤ) else D.number groups.flatten)

/-- The number of paise that a value denotes: none is zero, and a text shows it between white space. -/
inductive Denotes : Json → ℤ → Prop
  | absent : Denotes .null 0
  | empty : Denotes (.str "") 0
  | int (i : ℤ) : Denotes (.int i) i
  | float (n : ℤ) : Denotes (.float n) n
  | numeral {s : String} {before digits after : List Char} {n : ℤ} (htext : s.toList = before ++ digits ++ after)
      (hbefore : ∀ c ∈ before, isSpace c = true) (hafter : ∀ c ∈ after, isSpace c = true)
      (hdigits : IntegerNumeral D digits n) : Denotes (.str s) n

/-- The same for a field that may be left out. -/
def DenotesOptional (v : Json) : Option ℤ → Prop
  | none => isBlankValue v = true
  | some n => isBlankValue v = false ∧ Denotes D v n

variable {D}

/-- White space around a text is what stripping it takes away. -/
theorem strip_split (s : String) : ∃ before after,
    (∀ c ∈ before, isSpace c = true) ∧ (∀ c ∈ after, isSpace c = true) ∧
      s.toList = before ++ (strip s).toList ++ after := by
  refine ⟨s.toList.takeWhile isSpace, ((s.toList.dropWhile isSpace).reverse.takeWhile isSpace).reverse,
    fun c hc => List.mem_takeWhile_imp hc, fun c hc => List.mem_takeWhile_imp (List.mem_reverse.mp hc), ?_⟩
  have hback : (s.toList.dropWhile isSpace).reverse =
      (s.toList.dropWhile isSpace).reverse.takeWhile isSpace ++
        (s.toList.dropWhile isSpace).reverse.dropWhile isSpace :=
    List.takeWhile_append_dropWhile.symm
  have hrest := congrArg List.reverse hback
  rw [List.reverse_reverse, List.reverse_append] at hrest
  unfold strip
  rw [String.toList_ofList, List.append_assoc, ← hrest, List.takeWhile_append_dropWhile]

theorem readGroups_eq_some {body : List Char} {n : Nat} (h : readGroups D body = some n) :
    (∀ g ∈ body.splitOn '_', g ≠ [] ∧ ∀ c ∈ g, D.isDecimal c = true) ∧ n = D.number (body.splitOn '_').flatten := by
  unfold readGroups at h
  split at h
  · rename_i hgroups
    refine ⟨fun g hg => ⟨(hgroups.1 g hg).1, ?_⟩, (Option.some.inj h).symm⟩
    exact List.all_eq_true.mp (hgroups.1 g hg).2
  · cases h

/-- **What is read from a text is the integer it shows.** -/
theorem readInt_numeral {text : String} {n : ℤ} (h : readInt D text = some n) :
    IntegerNumeral D (strip text).toList n := by
  have hbody : ∀ {sign body : List Char} {k : Nat}, (sign = [] ∨ sign = ['+'] ∨ sign = ['-']) →
      readGroups D body = some k → IntegerNumeral D (sign ++ body) (if sign = ['-'] then -(k : ℤ) else k) := by
    intro sign body k hsign hread
    obtain ⟨hgroups, rfl⟩ := readGroups_eq_some hread
    have hnumeral := IntegerNumeral.mk hsign (body.splitOn '_') (List.splitOn_ne_nil '_' body) hgroups
    rw [List.intercalate_splitOn] at hnumeral
    exact hnumeral
  have hread : readInt D text = (readGroups D (readSign (strip text).toList).2).map fun k : Nat =>
      if (readSign (strip text).toList).1 then -(k : ℤ) else k := rfl
  rw [hread] at h
  obtain ⟨k, hk, rfl⟩ := Option.map_eq_some_iff.mp h
  clear h hread
  generalize (strip text).toList = cs at hk ⊢
  have hsign : ∃ sign, (sign = [] ∨ sign = ['+'] ∨ sign = ['-']) ∧ cs = sign ++ (readSign cs).2 ∧
      ((readSign cs).1 = true ↔ sign = ['-']) := by
    unfold readSign
    split
    · exact ⟨['-'], Or.inr (Or.inr rfl), rfl, iff_of_true rfl rfl⟩
    · exact ⟨['+'], Or.inr (Or.inl rfl), rfl, iff_of_false Bool.false_ne_true (by decide)⟩
    · exact ⟨[], Or.inl rfl, rfl, iff_of_false Bool.false_ne_true (by decide)⟩
  obtain ⟨sign, hsign, hcs, hnegative⟩ := hsign
  rw [if_congr hnegative rfl rfl]
  exact hcs ▸ hbody hsign hk

end Denotes

/-! ## What a field brings about -/

/-- What becomes of a read: it is taken, or it raises an `InputError`, or something else. -/
inductive Verdict
  | taken
  | rejected
  | escapes
deriving DecidableEq, Repr

/-- A read after another: it is not made if the first one raises. -/
def Verdict.andThen : Verdict → Verdict → Verdict
  | .taken, w => w
  | v, _ => v

/-- What becomes of reads in their order. -/
def firstVerdict (vs : List Verdict) : Verdict := vs.foldr Verdict.andThen .taken

def outcomeOf {α : Type} : Except LoadError α → Verdict
  | .ok _ => .taken
  | .error (.input _) => .rejected
  | .error _ => .escapes

theorem firstVerdict_append (vs ws : List Verdict) :
    firstVerdict (vs ++ ws) = (firstVerdict vs).andThen (firstVerdict ws) := by
  induction vs with
  | nil => rfl
  | cons v vs ih =>
      show v.andThen (firstVerdict (vs ++ ws)) = _
      rw [ih]
      cases v <;> rfl

/-- **One read after another.** -/
theorem outcomeOf_bind {α β : Type} {x : Except LoadError α} {f : α → Except LoadError β} {w : Verdict}
    (hf : ∀ a, x = .ok a → outcomeOf (f a) = w) : outcomeOf (x >>= f) = (outcomeOf x).andThen w := by
  cases x with
  | ok a => exact hf a rfl
  | error e =>
      cases e with
      | input message => rfl
      | valueError => rfl
      | overflowError => rfl

theorem outcomeOf_step {α β : Type} {x : Except LoadError α} {f : α → Except LoadError β} {v : Verdict}
    {vs : List Verdict} (hx : outcomeOf x = v) (hf : ∀ a, outcomeOf (f a) = firstVerdict vs) :
    outcomeOf (x >>= f) = firstVerdict (v :: vs) := by
  rw [outcomeOf_bind fun a _ => hf a, hx]
  rfl

theorem outcomeOf_map {α β : Type} (x : Except LoadError α) (g : α → β) : outcomeOf (x.map g) = outcomeOf x := by
  cases x with
  | ok a => rfl
  | error e =>
      cases e with
      | input message => rfl
      | valueError => rfl
      | overflowError => rfl

/-! ### Values without a text -/

theorem tooLong_zero : tooLong 0 = false :=
  decide_eq_false (Nat.not_le.mpr (Nat.pow_pos (by decide)))

def hugeKey : DictKey → Bool
  | .int i => tooLong i
  | _ => false

mutual

/-- Somewhere in the value there is an integer that is not converted to a text. -/
def holdsHuge : Json → Bool
  | .int i => tooLong i
  | .arr items => hugeItems items
  | .obj fields => hugeFields fields
  | .dict entries => hugeEntries entries
  | _ => false

def hugeItems : List Json → Bool
  | [] => false
  | v :: vs => holdsHuge v || hugeItems vs

def hugeFields : List (String × Json) → Bool
  | [] => false
  | (_, v) :: fields => holdsHuge v || hugeFields fields

def hugeEntries : List (DictKey × Json) → Bool
  | [] => false
  | (key, v) :: entries => hugeKey key || holdsHuge v || hugeEntries entries

end

section Verdicts

variable (D : DecimalDigits) (U : Unicode) (floatText : ℚ → String)

/-- Two texts are there if both are. -/
theorem isNone_bind_map {x : Option String} {xs : Option (List String)} (f : String → List String → List String) :
    (x.bind fun text => xs.map (f text)).isNone = (x.isNone || xs.isNone) := by
  cases x with
  | none => rfl
  | some text =>
      cases xs with
      | none => rfl
      | some texts => rfl

theorem isNone_reprKey (key : DictKey) : (reprKey U floatText key).isNone = hugeKey key := by
  cases key with
  | int i =>
      have hkey : reprKey U floatText (.int i) = if tooLong i then none else some (toString i) := rfl
      have hhuge : hugeKey (.int i) = tooLong i := rfl
      rw [hkey, hhuge]
      generalize tooLong i = huge
      cases huge with
      | true => rfl
      | false => rfl
  | str s => rfl
  | null => rfl
  | bool b => rfl
  | float q => rfl

/-- **A value has no text precisely if there is such an integer in it.** -/
theorem isNone_reprValue (v : Json) : (reprValue U floatText v).isNone = holdsHuge v := by
  induction v using Json.induction with
  | null => rfl
  | bool b => rfl
  | int i =>
      unfold reprValue holdsHuge
      generalize tooLong i = huge
      cases huge with
      | true => rfl
      | false => rfl
  | float q => rfl
  | inf negative => rfl
  | nan => rfl
  | str s => rfl
  | arr items ih =>
      have hitems : (reprItems U floatText items).isNone = hugeItems items := by
        induction items with
        | nil => rfl
        | cons v vs ihvs =>
            unfold reprItems hugeItems
            rw [isNone_bind_map, ih v List.mem_cons_self, ihvs fun w hw => ih w (List.mem_cons_of_mem _ hw)]
      unfold reprValue holdsHuge
      rw [Option.isNone_map, hitems]
  | obj fields ih =>
      have hfields : (reprFields U floatText fields).isNone = hugeFields fields := by
        induction fields with
        | nil => rfl
        | cons p fields ihfields =>
            unfold reprFields hugeFields
            rw [isNone_bind_map, ih p List.mem_cons_self, ihfields fun q hq => ih q (List.mem_cons_of_mem _ hq)]
      unfold reprValue holdsHuge
      rw [Option.isNone_map, hfields]
  | dict entries ih =>
      have hentries : (reprEntries U floatText entries).isNone = hugeEntries entries := by
        induction entries with
        | nil => rfl
        | cons p entries ihentries =>
            have htail := ihentries fun q hq => ih q (List.mem_cons_of_mem _ hq)
            have hvalue := ih p List.mem_cons_self
            have hkey := isNone_reprKey U floatText p.1
            unfold reprEntries hugeEntries
            rw [← hkey, ← hvalue, ← htail]
            cases reprKey U floatText p.1 with
            | none => rfl
            | some name => exact isNone_bind_map fun text texts => (name ++ ": " ++ text) :: texts
      unfold reprValue holdsHuge
      rw [Option.isNone_map, hentries]

/-! ### Texts -/

def textVerdict (v : Json) : Verdict := if holdsHuge v then .escapes else .taken

theorem strValue_str (s : String) : strValue U floatText (.str s) = some s := rfl

theorem isNone_strValue (v : Json) : (strValue U floatText v).isNone = holdsHuge v := by
  cases v with
  | str s => rfl
  | _ => exact isNone_reprValue U floatText _

theorem outcomeOf_shown (v : Json) : outcomeOf (shown U floatText v) = textVerdict v := by
  unfold shown textVerdict
  rw [← isNone_strValue U floatText v]
  cases strValue U floatText v with
  | none => rfl
  | some text => rfl

/-- Nothing is not such an integer. -/
theorem holdsHuge_of_not_truth {v : Json} (h : v.truth = false) : holdsHuge v = false := by
  cases v with
  | int i =>
      have hzero : i = 0 := by simpa [Json.truth] using h
      subst hzero
      exact tooLong_zero
  | arr items =>
      cases items with
      | nil => rfl
      | cons v vs => cases h
  | obj fields =>
      cases fields with
      | nil => rfl
      | cons p fields => cases h
  | dict entries =>
      cases entries with
      | nil => rfl
      | cons p entries => cases h
  | _ => rfl

theorem outcomeOf_textField (v : Json) : outcomeOf (textField U floatText v) = textVerdict v := by
  unfold textField
  split
  · rw [outcomeOf_map]
    exact outcomeOf_shown U floatText v
  · rename_i hfalse
    unfold textVerdict
    rw [holdsHuge_of_not_truth (Bool.eq_false_iff.mpr hfalse)]
    rfl

/-! ### Amounts -/

/-- A first character that is no white space is not stripped. -/
theorem strip_head {text : String} {c : Char} {cs : List Char} (htext : text.toList = c :: cs)
    (hspace : isSpace c = false) : ∃ cs', (strip text).toList = c :: cs' := by
  obtain ⟨before, after, hbefore, hafter, hsplit⟩ := strip_split text
  have hmember : ∀ {l : List Char}, (∀ d ∈ l, isSpace d = true) → c ∉ l := by
    intro l hl hc
    rw [hl c hc] at hspace
    cases hspace
  rw [htext] at hsplit
  cases before with
  | cons d before =>
      rw [List.cons_append, List.cons_append] at hsplit
      exact absurd ((List.cons.inj hsplit).1 ▸ List.mem_cons_self) (hmember hbefore)
  | nil =>
      rw [List.nil_append] at hsplit
      cases hinner : (strip text).toList with
      | nil =>
          rw [hinner, List.nil_append] at hsplit
          exact absurd (hsplit ▸ List.mem_cons_self) (hmember hafter)
      | cons d inner =>
          rw [hinner, List.cons_append] at hsplit
          exact ⟨inner, by rw [(List.cons.inj hsplit).1]⟩

/-- A text that begins with no sign and no digit shows no integer. -/
theorem readInt_eq_none {text : String} {c : Char} {cs : List Char} (htext : text.toList = c :: cs)
    (hspace : isSpace c = false) (hsign : c ≠ '-' ∧ c ≠ '+' ∧ c ≠ '_') (hdigit : D.isDecimal c = false) :
    readInt D text = none := by
  obtain ⟨cs', hcs'⟩ := strip_head htext hspace
  have hsigned : readSign (c :: cs') = (false, c :: cs') := by
    unfold readSign
    split
    · rename_i hminus
      exact absurd (List.cons.inj hminus).1 hsign.1
    · rename_i hplus
      exact absurd (List.cons.inj hplus).1 hsign.2.1
    · rfl
  have hgroups : readGroups D (c :: cs') = none := by
    cases hread : readGroups D (c :: cs') with
    | none => rfl
    | some n =>
        obtain ⟨hall, _⟩ := readGroups_eq_some hread
        obtain ⟨g, gs, hg⟩ := List.exists_cons_of_ne_nil (List.splitOn_ne_nil '_' cs')
        have hfirst : c :: g ∈ (c :: cs').splitOn '_' := by
          rw [List.splitOn_cons_eq_if_modifyHead, if_neg (by simpa using hsign.2.2), hg]
          exact List.mem_cons_self
        have hdecimal := (hall _ hfirst).2 c List.mem_cons_self
        rw [hdigit] at hdecimal
        cases hdecimal
  have hread : readInt D text = (readGroups D (readSign (strip text).toList).2).map fun k : Nat =>
      if (readSign (strip text).toList).1 then -(k : ℤ) else k := rfl
  rw [hread, hcs', hsigned, hgroups]
  rfl

/-- The printed form of a list or a dictionary shows no integer. -/
theorem readInt_bracket {text : String} {c : Char} {cs : List Char} (htext : text.toList = c :: cs)
    (hc : c = '[' ∨ c = '\x7b') : readInt D (strip text) = none := by
  have hchar : isSpace c = false ∧ (c ≠ '-' ∧ c ≠ '+' ∧ c ≠ '_') ∧ c.toNat < 128 ∧ c.isDigit = false := by
    rcases hc with rfl | rfl
    · decide
    · decide
  obtain ⟨hspace, hsign, hascii, hdigit⟩ := hchar
  obtain ⟨cs', hcs'⟩ := strip_head htext hspace
  exact readInt_eq_none D hcs' hspace hsign ((DecimalDigits.isDecimal_ascii hascii).trans hdigit)

/-- What becomes of an amount. -/
def paiseVerdict (v : Json) : Verdict :=
  if isBlankValue v then .taken
  else
    match v with
    | .int _ => .taken
    | .float q => if q.den = 1 then .taken else .rejected
    | .str s => if (readInt D (strip s)).isSome then .taken else .rejected
    | v => if holdsHuge v then .escapes else .rejected

/-- A rejection shows the value. -/
theorem outcomeOf_inputError {α : Type} (v : Json) (message : String → String) :
    outcomeOf (.error (inputError (reprValue U floatText v) message) : Except LoadError α) =
      if holdsHuge v then .escapes else .rejected := by
  rw [← isNone_reprValue U floatText v]
  cases reprValue U floatText v with
  | none => rfl
  | some text => rfl

/-- A list or a dictionary is never an amount. -/
theorem asIntPaise_container {v : Json} {c : Char} (hc : c = '[' ∨ c = '\x7b')
    (hopens : ∀ text, reprValue U floatText v = some text → ∃ cs, text.toList = c :: cs)
    (hstr : strValue U floatText v = reprValue U floatText v) :
    (strValue U floatText v).bind (fun text => readInt D (strip text)) = none := by
  rw [hstr]
  cases hrepr : reprValue U floatText v with
  | none => rfl
  | some text =>
      obtain ⟨cs, hcs⟩ := hopens text hrepr
      rw [Option.bind_some]
      exact readInt_bracket D hcs hc

theorem toList_bracketed (c : Char) (s t : String) (hs : s.toList = [c]) : ∃ cs, (s ++ t).toList = c :: cs := by
  rw [String.toList_append, hs]
  exact ⟨t.toList, rfl⟩

theorem reprValue_arr_opens {items : List Json} {text : String} (h : reprValue U floatText (.arr items) = some text) :
    ∃ cs, text.toList = '[' :: cs := by
  unfold reprValue at h
  obtain ⟨texts, _, rfl⟩ := Option.map_eq_some_iff.mp h
  rw [String.append_assoc]
  exact toList_bracketed '[' "[" _ (by decide)

theorem reprValue_obj_opens {fields : List (String × Json)} {text : String}
    (h : reprValue U floatText (.obj fields) = some text) : ∃ cs, text.toList = '\x7b' :: cs := by
  unfold reprValue at h
  obtain ⟨texts, _, rfl⟩ := Option.map_eq_some_iff.mp h
  rw [String.append_assoc]
  exact toList_bracketed '\x7b' "\x7b" _ (by decide)

theorem reprValue_dict_opens {entries : List (DictKey × Json)} {text : String}
    (h : reprValue U floatText (.dict entries) = some text) : ∃ cs, text.toList = '\x7b' :: cs := by
  unfold reprValue at h
  obtain ⟨texts, _, rfl⟩ := Option.map_eq_some_iff.mp h
  rw [String.append_assoc]
  exact toList_bracketed '\x7b' "\x7b" _ (by decide)

/-- **What becomes of an amount** is said by its value, ... -/
theorem outcomeOf_asIntPaise (v : Json) (ctx : String) :
    outcomeOf (asIntPaise D U floatText v ctx) = paiseVerdict D v := by
  unfold asIntPaise paiseVerdict
  by_cases hblank : isBlankValue v = true
  · rw [if_pos hblank, if_pos hblank]
    rfl
  rw [if_neg hblank, if_neg hblank]
  cases v with
  | null => exact absurd rfl hblank
  | bool b => exact outcomeOf_inputError U floatText _ _
  | int i => rfl
  | float q =>
      dsimp only
      by_cases hden : q.den = 1
      · rw [if_pos hden, if_pos hden]
        rfl
      · rw [if_neg hden, if_neg hden]
        exact outcomeOf_inputError U floatText _ _
  | inf negative => exact outcomeOf_inputError U floatText _ _
  | nan => exact outcomeOf_inputError U floatText _ _
  | str s =>
      dsimp only
      have hread : (strValue U floatText (.str s)).bind (fun text => readInt D (strip text)) = readInt D (strip s) := by
        rw [strValue_str, Option.bind_some]
      rw [hread]
      cases readInt D (strip s) with
      | none => exact outcomeOf_inputError U floatText _ _
      | some n => rfl
  | arr items =>
      dsimp only
      rw [asIntPaise_container D U floatText (Or.inl rfl) (fun _ => reprValue_arr_opens U floatText) rfl]
      exact outcomeOf_inputError U floatText _ _
  | obj fields =>
      dsimp only
      rw [asIntPaise_container D U floatText (Or.inr rfl) (fun _ => reprValue_obj_opens U floatText) rfl]
      exact outcomeOf_inputError U floatText _ _
  | dict entries =>
      dsimp only
      rw [asIntPaise_container D U floatText (Or.inr rfl) (fun _ => reprValue_dict_opens U floatText) rfl]
      exact outcomeOf_inputError U floatText _ _

variable {D U floatText}

/-- ... and one that is taken is the number that the value denotes. -/
theorem asIntPaise_denotes {v : Json} {ctx : String} {n : ℤ} (h : asIntPaise D U floatText v ctx = .ok n) :
    Denotes D v n := by
  unfold asIntPaise at h
  by_cases hblank : isBlankValue v = true
  · rw [if_pos hblank] at h
    obtain rfl := Except.ok.inj h
    cases v with
    | null => exact .absent
    | str s =>
        obtain rfl : s = "" := of_decide_eq_true hblank
        exact .empty
    | _ => cases hblank
  rw [if_neg hblank] at h
  cases v with
  | int i =>
      obtain rfl := Except.ok.inj h
      exact .int i
  | float q =>
      dsimp only at h
      split at h
      · rename_i hden
        obtain rfl := Except.ok.inj h
        have hq : Denotes D (.float (q.num : ℚ)) q.num := .float q.num
        rw [Rat.coe_int_num_of_den_eq_one hden] at hq
        exact hq
      · cases h
  | str s =>
      dsimp only at h
      have hread : (strValue U floatText (.str s)).bind (fun text => readInt D (strip text)) = readInt D (strip s) := by
        rw [strValue_str, Option.bind_some]
      rw [hread] at h
      cases hsome : readInt D (strip s) with
      | none =>
          rw [hsome] at h
          cases h
      | some k =>
          rw [hsome] at h
          obtain rfl := Except.ok.inj h
          obtain ⟨before, after, hbefore, hafter, hsplit⟩ := strip_split s
          obtain ⟨before', after', hbefore', hafter', hsplit'⟩ := strip_split (strip s)
          have htext : s.toList = (before ++ before') ++ (strip (strip s)).toList ++ (after' ++ after) := by
            rw [hsplit, hsplit']
            simp only [List.append_assoc]
          exact .numeral htext (fun c hc => (List.mem_append.mp hc).elim (hbefore c) (hbefore' c))
            (fun c hc => (List.mem_append.mp hc).elim (hafter' c) (hafter c)) (readInt_numeral hsome)
  | null => exact absurd rfl hblank
  | bool b => cases h
  | inf negative => cases h
  | nan => cases h
  | arr items =>
      dsimp only at h
      rw [asIntPaise_container D U floatText (Or.inl rfl) (fun _ => reprValue_arr_opens U floatText) rfl] at h
      cases h
  | obj fields =>
      dsimp only at h
      rw [asIntPaise_container D U floatText (Or.inr rfl) (fun _ => reprValue_obj_opens U floatText) rfl] at h
      cases h
  | dict entries =>
      dsimp only at h
      rw [asIntPaise_container D U floatText (Or.inr rfl) (fun _ => reprValue_dict_opens U floatText) rfl] at h
      cases h

theorem optionalPaise_denotes {v : Json} {ctx : String} {n : Option ℤ}
    (h : optionalPaise D U floatText v ctx = .ok n) : DenotesOptional D v n := by
  unfold optionalPaise at h
  split at h
  · rename_i hblank
    obtain rfl := Except.ok.inj h
    exact hblank
  · rename_i hblank
    obtain ⟨k, hk, rfl⟩ := map_eq_ok.mp h
    exact ⟨Bool.eq_false_iff.mpr hblank, asIntPaise_denotes hk⟩

variable (D U floatText)

theorem outcomeOf_optionalPaise (v : Json) (ctx : String) :
    outcomeOf (optionalPaise D U floatText v ctx) = paiseVerdict D v := by
  unfold optionalPaise
  split
  · rename_i hblank
    unfold paiseVerdict
    rw [if_pos hblank]
    rfl
  · rw [outcomeOf_map]
    exact outcomeOf_asIntPaise D U floatText v ctx

/-! ### Time stamps -/

/-- The time stamp is in 64 bits. -/
def timeVerdict (t : ℤ) : Verdict := if t < -2 ^ 63 ∨ 2 ^ 63 ≤ t then .escapes else .taken

/-- What becomes of a time stamp. -/
def epochVerdict (v : Json) : Verdict :=
  match intOf D v with
  | .ok t => timeVerdict t
  | .error .overflow => .escapes
  | .error _ => .taken

theorem outcomeOf_fromTimestamp (t : ℤ) : outcomeOf (fromTimestamp t) = timeVerdict t := by
  unfold fromTimestamp timeVerdict
  split
  · rfl
  · split
    · rfl
    · rfl

theorem readInt_empty : readInt D "" = none := by
  have hgroups : readGroups D [] = none := by
    unfold readGroups
    refine if_neg fun h => ?_
    exact (h.1 [] List.mem_cons_self).1 rfl
  have hread : readInt D "" = (readGroups D (readSign (strip "").toList).2).map fun k : Nat =>
      if (readSign (strip "").toList).1 then -(k : ℤ) else k := rfl
  have hstrip : (strip "").toList = [] := by decide
  rw [hread, hstrip]
  unfold readSign
  rw [hgroups]
  rfl

theorem outcomeOf_epochToDt (v : Json) : outcomeOf (epochToDt D v) = epochVerdict D v := by
  unfold epochToDt epochVerdict
  by_cases hblank : isBlankValue v = true
  · rw [if_pos hblank]
    cases v with
    | null => rfl
    | str s =>
        obtain rfl : s = "" := of_decide_eq_true hblank
        have hint : intOf D (.str "") = (readInt D "").elim (.error .value) .ok := rfl
        rw [hint, readInt_empty]
        rfl
    | _ => cases hblank
  · rw [if_neg hblank]
    cases intOf D v with
    | ok t => exact outcomeOf_fromTimestamp t
    | error e =>
        cases e with
        | value => rfl
        | type => rfl
        | overflow => rfl

/-! ## Rows -/

/-- What becomes of the fields of an element, in the order in which they are read. -/
def rowVerdicts (r : Json) : List Verdict :=
  if ¬ r.isObj ∨ ¬ (rowGet "entity_id" r).truth ∨ ¬ (rowGet "type" r).truth then [.rejected]
  else
    [textVerdict (rowGet "entity_id" r), textVerdict (rowGet "type" r), paiseVerdict D (rowGet "amount" r),
      paiseVerdict D (rowGet "fee" r), paiseVerdict D (rowGet "tax" r), paiseVerdict D (rowGet "debit" r),
      paiseVerdict D (rowGet "credit" r), textVerdict (rowGet "settlement_id" r),
      textVerdict (rowGet "settlement_utr" r), epochVerdict D (rowGet "settled_at" r),
      epochVerdict D (rowGet "created_at" r), textVerdict (rowGet "dispute_id" r), textVerdict (rowGet "order_id" r),
      textVerdict (rowGet "method" r), textVerdict (rowGet "description" r),
      paiseVerdict D (rowGet "authorized_amount" r), paiseVerdict D (rowGet "captured_amount" r)]

/-- **What becomes of an element** is said by its fields. -/
theorem outcomeOf_loadRow (i : Nat) (r : Json) :
    outcomeOf (loadRow D U floatText i r) = firstVerdict (rowVerdicts D r) := by
  unfold loadRow rowVerdicts
  by_cases hobj : ¬ r.isObj = true
  · rw [if_pos hobj, if_pos (Or.inl hobj)]
    rfl
  by_cases hidentity : ¬ (rowGet "entity_id" r).truth = true ∨ ¬ (rowGet "type" r).truth = true
  · rw [if_neg hobj, if_pos hidentity, if_pos (Or.inr hidentity)]
    rfl
  rw [if_neg hobj, if_neg hidentity, if_neg fun h => h.elim hobj hidentity]
  refine outcomeOf_step (outcomeOf_shown U floatText _) fun _ => ?_
  refine outcomeOf_step (outcomeOf_shown U floatText _) fun _ => ?_
  refine outcomeOf_step (outcomeOf_asIntPaise D U floatText _ _) fun _ => ?_
  refine outcomeOf_step (outcomeOf_asIntPaise D U floatText _ _) fun _ => ?_
  refine outcomeOf_step (outcomeOf_asIntPaise D U floatText _ _) fun _ => ?_
  refine outcomeOf_step (outcomeOf_asIntPaise D U floatText _ _) fun _ => ?_
  refine outcomeOf_step (outcomeOf_asIntPaise D U floatText _ _) fun _ => ?_
  refine outcomeOf_step (outcomeOf_textField U floatText _) fun _ => ?_
  refine outcomeOf_step (outcomeOf_textField U floatText _) fun _ => ?_
  refine outcomeOf_step (outcomeOf_epochToDt D _) fun _ => ?_
  refine outcomeOf_step (outcomeOf_epochToDt D _) fun _ => ?_
  refine outcomeOf_step (outcomeOf_textField U floatText _) fun _ => ?_
  refine outcomeOf_step (outcomeOf_textField U floatText _) fun _ => ?_
  refine outcomeOf_step (outcomeOf_textField U floatText _) fun _ => ?_
  refine outcomeOf_step (outcomeOf_textField U floatText _) fun _ => ?_
  refine outcomeOf_step (outcomeOf_optionalPaise D U floatText _ _) fun _ => ?_
  refine outcomeOf_step (outcomeOf_optionalPaise D U floatText _ _) fun _ => ?_
  rfl

theorem outcomeOf_loadRows (rs : List Json) (i : Nat) :
    outcomeOf (loadRows D U floatText i rs) = firstVerdict (rs.flatMap (rowVerdicts D)) := by
  induction rs generalizing i with
  | nil => rfl
  | cons r rs ih =>
      have htail : ∀ row : ReconRow, outcomeOf (do
          let rows ← loadRows D U floatText (i + 1) rs
          return row :: rows) = firstVerdict (rs.flatMap (rowVerdicts D)) := by
        intro row
        refine (outcomeOf_bind (w := .taken) fun rows _ => rfl).trans ?_
        rw [ih]
        cases firstVerdict (rs.flatMap (rowVerdicts D)) with
        | taken => rfl
        | rejected => rfl
        | escapes => rfl
      unfold loadRows
      rw [outcomeOf_bind fun row _ => htail row, outcomeOf_loadRow, List.flatMap_cons, firstVerdict_append]

/-- The row of an element has its identity, and its amounts are what the fields denote. -/
structure RowExact (i : Nat) (r : Json) (row : ReconRow) : Prop where
  rowId : row.rowId = some ("recon_" ++ toString i)
  entityId : strValue U floatText (rowGet "entity_id" r) = some row.entityId
  type : strValue U floatText (rowGet "type" r) = some row.type
  amount : Denotes D (rowGet "amount" r) row.amountPaise
  fee : Denotes D (rowGet "fee" r) row.feePaise
  tax : Denotes D (rowGet "tax" r) row.taxPaise
  debit : Denotes D (rowGet "debit" r) row.debitPaise
  credit : Denotes D (rowGet "credit" r) row.creditPaise
  authorized : DenotesOptional D (rowGet "authorized_amount" r) row.authorizedAmountPaise
  captured : DenotesOptional D (rowGet "captured_amount" r) row.capturedAmountPaise

theorem strValue_of_shown {v : Json} {text : String} (h : shown U floatText v = .ok text) :
    strValue U floatText v = some text := by
  unfold shown at h
  cases hstr : strValue U floatText v with
  | none =>
      rw [hstr] at h
      cases h
  | some text' =>
      rw [hstr] at h
      exact congrArg some (Except.ok.inj h)

/-- **An element that is loaded is loaded exactly.** -/
theorem rowExact_of_loadRow {i : Nat} {r : Json} {row : ReconRow} (h : loadRow D U floatText i r = .ok row) :
    RowExact D U floatText i r row := by
  unfold loadRow at h
  by_cases hobj : ¬ r.isObj = true
  · rw [if_pos hobj] at h
    cases h
  by_cases hidentity : ¬ (rowGet "entity_id" r).truth = true ∨ ¬ (rowGet "type" r).truth = true
  · rw [if_neg hobj, if_pos hidentity] at h
    cases h
  rw [if_neg hobj, if_neg hidentity] at h
  obtain ⟨entityId, hentity, h⟩ := bind_eq_ok.mp h
  obtain ⟨type, htype, h⟩ := bind_eq_ok.mp h
  obtain ⟨amount, hamount, h⟩ := bind_eq_ok.mp h
  obtain ⟨fee, hfee, h⟩ := bind_eq_ok.mp h
  obtain ⟨tax, htax, h⟩ := bind_eq_ok.mp h
  obtain ⟨debit, hdebit, h⟩ := bind_eq_ok.mp h
  obtain ⟨credit, hcredit, h⟩ := bind_eq_ok.mp h
  obtain ⟨settlementId, _, h⟩ := bind_eq_ok.mp h
  obtain ⟨settlementUtr, _, h⟩ := bind_eq_ok.mp h
  obtain ⟨settledAt, _, h⟩ := bind_eq_ok.mp h
  obtain ⟨createdAt, _, h⟩ := bind_eq_ok.mp h
  obtain ⟨disputeId, _, h⟩ := bind_eq_ok.mp h
  obtain ⟨orderId, _, h⟩ := bind_eq_ok.mp h
  obtain ⟨method, _, h⟩ := bind_eq_ok.mp h
  obtain ⟨description, _, h⟩ := bind_eq_ok.mp h
  obtain ⟨authorized, hauthorized, h⟩ := bind_eq_ok.mp h
  obtain ⟨captured, hcaptured, h⟩ := bind_eq_ok.mp h
  obtain rfl := Except.ok.inj h
  exact
    { rowId := rfl
      entityId := strValue_of_shown U floatText hentity
      type := strValue_of_shown U floatText htype
      amount := asIntPaise_denotes hamount
      fee := asIntPaise_denotes hfee
      tax := asIntPaise_denotes htax
      debit := asIntPaise_denotes hdebit
      credit := asIntPaise_denotes hcredit
      authorized := optionalPaise_denotes hauthorized
      captured := optionalPaise_denotes hcaptured }

theorem rowsExact_of_loadRows {rs : List Json} {i : Nat} {rows : List ReconRow}
    (h : loadRows D U floatText i rs = .ok rows) :
    List.Forall₂ (fun p row => RowExact D U floatText p.2 p.1 row) (rs.zipIdx i) rows := by
  induction rs generalizing i rows with
  | nil =>
      obtain rfl := Except.ok.inj h
      exact .nil
  | cons r rs ih =>
      unfold loadRows at h
      obtain ⟨row, hrow, h⟩ := bind_eq_ok.mp h
      obtain ⟨rows', hrows', h⟩ := bind_eq_ok.mp h
      obtain rfl := Except.ok.inj h
      rw [List.zipIdx_cons]
      exact .cons (rowExact_of_loadRow D U floatText hrow) (ih hrows')

/-! ## The report -/

/-- The loader answers one exact row for every element, or an `InputError`. -/
def FailsClosed (data : Json) (source : String) : Prop :=
  (∃ items rows, elementsOf data = some items ∧ loadReconData D U floatText data source = .ok rows ∧
      List.Forall₂ (fun p row => RowExact D U floatText p.2 p.1 row) items.zipIdx rows) ∨
    ∃ message, loadReconData D U floatText data source = .error (.input message)

/-- What becomes of the fields of a report. -/
def reportVerdicts (data : Json) : List Verdict := ((elementsOf data).getD []).flatMap (rowVerdicts D)

/-- **The loader answers exact rows or an `InputError` precisely if no field that brings about another exception comes
    before the first that is rejected.** -/
theorem recon_loader_closed_iff (data : Json) (source : String) :
    FailsClosed D U floatText data source ↔ firstVerdict (reportVerdicts D data) ≠ .escapes := by
  unfold FailsClosed reportVerdicts loadReconData
  cases helements : elementsOf data with
  | none =>
      have hnothing : firstVerdict (((none : Option (List Json)).getD []).flatMap (rowVerdicts D)) = .taken := rfl
      rw [hnothing]
      exact iff_of_true (Or.inr ⟨_, rfl⟩) (by decide)
  | some items =>
      rw [Option.getD_some, ← outcomeOf_loadRows D U floatText items 0]
      dsimp only
      cases hload : loadRows D U floatText 0 items with
      | ok rows =>
          refine iff_of_true ?_ (by intro h; cases h)
          by_cases hempty : rows = []
          · subst hempty
            exact Or.inr ⟨_, rfl⟩
          · refine Or.inl ⟨items, rows, rfl, if_neg hempty, ?_⟩
            exact rowsExact_of_loadRows D U floatText hload
      | error e =>
          cases e with
          | input message => exact iff_of_true (Or.inr ⟨message, rfl⟩) (by intro h; cases h)
          | valueError =>
              refine iff_of_false ?_ fun h => h rfl
              rintro (⟨_, _, _, h, _⟩ | ⟨_, h⟩)
              · cases h
              · cases h
          | overflowError =>
              refine iff_of_false ?_ fun h => h rfl
              rintro (⟨_, _, _, h, _⟩ | ⟨_, h⟩)
              · cases h
              · cases h

theorem not_failsClosed {data : Json} {source : String} {e : LoadError}
    (h : loadReconData D U floatText data source = .error e) (he : ∀ message, e ≠ .input message) :
    ¬ FailsClosed D U floatText data source := by
  rintro (⟨_, _, _, hrows, _⟩ | ⟨message, hinput⟩)
  · rw [h] at hrows
    cases hrows
  · rw [h] at hinput
    exact he message (Except.error.inj hinput)

end Verdicts

/-- A report of one payment with a field. -/
def paymentReport (key : String) (v : Json) : Json :=
  .arr [.obj [("entity_id", .str "pay_1"), ("type", .str "payment"), (key, v)]]

/-- An infinite time stamp and one beyond 64 bits overflow, and an integer without a text is not shown in an error, nor
    as an identifier. -/
theorem recon_loader_not_closed :
    (loadReconData asciiDigits asciiUnicode (fun _ => "") (paymentReport "settled_at" (.inf false)) "recon" =
        .error .overflowError ∧
      ¬ FailsClosed asciiDigits asciiUnicode (fun _ => "") (paymentReport "settled_at" (.inf false)) "recon") ∧
    ¬ FailsClosed asciiDigits asciiUnicode (fun _ => "") (paymentReport "created_at" (.int (2 ^ 63))) "recon" ∧
    ¬ FailsClosed asciiDigits asciiUnicode (fun _ => "") (paymentReport "amount" (.arr [.int (10 ^ 4300)])) "recon" ∧
    ¬ FailsClosed asciiDigits asciiUnicode (fun _ => "") (paymentReport "order_id" (.int (10 ^ 4300))) "recon" := by
  have hinfinite : loadReconData asciiDigits asciiUnicode (fun _ => "") (paymentReport "settled_at" (.inf false))
      "recon" = .error .overflowError := by decide +kernel
  have hlate : loadReconData asciiDigits asciiUnicode (fun _ => "") (paymentReport "created_at" (.int (2 ^ 63)))
      "recon" = .error .overflowError := by decide +kernel
  have hlist : loadReconData asciiDigits asciiUnicode (fun _ => "") (paymentReport "amount" (.arr [.int (10 ^ 4300)]))
      "recon" = .error .valueError := by decide +kernel
  have hhuge : loadReconData asciiDigits asciiUnicode (fun _ => "") (paymentReport "order_id" (.int (10 ^ 4300)))
      "recon" = .error .valueError := by decide +kernel
  exact ⟨⟨hinfinite, not_failsClosed _ _ _ hinfinite nofun⟩, not_failsClosed _ _ _ hlate nofun,
    not_failsClosed _ _ _ hlist nofun, not_failsClosed _ _ _ hhuge nofun⟩

end Untangle
