import Mathlib.Data.List.Basic
import Mathlib.Data.Rat.Defs

/-!
# `Lib.Json` — the values of a dynamically typed document

A document as an untyped program holds it in memory: what a JSON text decodes to, with the non-finite floats that
such programs let through. A finite float is an exact rational. An object lists its fields in insertion order;
objects that a program writes down have distinct keys, and a lookup reads the first field of a key. No text decodes to
a dictionary that has a key besides texts, but a program can make one in memory.

The accessors answer what such a program asks of a value before it uses it: whether it is of a type, and what is
stored under a key. `get?_obj_cons` evaluates a lookup in an object that is written down.
-/

namespace Lib

/-- A key of a dictionary in memory. -/
inductive DictKey
  | str (s : String)
  | null
  | bool (b : Bool)
  | int (i : ℤ)
  | float (q : ℚ)
deriving DecidableEq, Repr

/-- The number that a key is, a truth value being zero or one. -/
def DictKey.number? : DictKey → Option ℚ
  | .bool b => some b.toInt
  | .int i => some i
  | .float q => some q
  | _ => none

inductive Json
  | null
  | bool (b : Bool)
  | int (i : ℤ)
  | float (q : ℚ)
  | inf (negative : Bool)
  | nan
  | str (s : String)
  | arr (items : List Json)
  | obj (fields : List (String × Json))
  | dict (entries : List (DictKey × Json))

/-- A key as a value. -/
def DictKey.toJson : DictKey → Json
  | .str s => .str s
  | .null => .null
  | .bool b => .bool b
  | .int i => .int i
  | .float q => .float q

namespace Json

/-- Values are built from values: every element of a list, and every field of an object. -/
@[elab_as_elim]
theorem induction {P : Json → Prop} (null : P .null) (bool : ∀ b, P (.bool b)) (int : ∀ i, P (.int i))
    (float : ∀ q, P (.float q)) (inf : ∀ negative, P (.inf negative)) (nan : P .nan) (str : ∀ s, P (.str s))
    (arr : ∀ items, (∀ v ∈ items, P v) → P (.arr items))
    (obj : ∀ fields, (∀ p ∈ fields, P p.2) → P (.obj fields))
    (dict : ∀ entries, (∀ p ∈ entries, P p.2) → P (.dict entries)) (j : Json) : P j :=
  @Json.rec P (fun items => ∀ v ∈ items, P v) (fun fields => ∀ p ∈ fields, P p.2)
    (fun entries => ∀ p ∈ entries, P p.2) (fun p => P p.2) (fun p => P p.2)
    null bool int float inf nan str arr obj dict
    (fun _ h => absurd h List.not_mem_nil) (fun _ _ hv hvs => List.forall_mem_cons.mpr ⟨hv, hvs⟩)
    (fun _ h => absurd h List.not_mem_nil) (fun _ _ hp hps => List.forall_mem_cons.mpr ⟨hp, hps⟩)
    (fun _ h => absurd h List.not_mem_nil) (fun _ _ hp hps => List.forall_mem_cons.mpr ⟨hp, hps⟩)
    (fun _ _ h => h) (fun _ _ h => h) j

/-! ## Fields -/

/-- What an object stores under a key. -/
def get? (key : String) : Json → Option Json
  | .obj fields => fields.lookup key
  | _ => none

/-- The same with `null` for an absent key. -/
def get (key : String) (j : Json) : Json := (j.get? key).getD .null

@[simp] theorem get?_obj_nil (key : String) : (obj []).get? key = none := rfl

@[simp] theorem get?_obj_cons (key key' : String) (v : Json) (fields : List (String × Json)) :
    (obj ((key', v) :: fields)).get? key = if key = key' then some v else (obj fields).get? key := by
  show List.lookup key ((key', v) :: fields) = _
  rw [List.lookup_cons]
  by_cases h : key = key'
  · rw [if_pos h, h, beq_self_eq_true]
  · rw [if_neg h, beq_eq_false_iff_ne.mpr h]
    rfl

@[simp] theorem get?_obj_append (key : String) (fields fields' : List (String × Json)) :
    (obj (fields ++ fields')).get? key = ((obj fields).get? key).or ((obj fields').get? key) := by
  induction fields with
  | nil => rfl
  | cons p fields ih =>
      rw [List.cons_append, get?_obj_cons, get?_obj_cons, ih]
      split <;> rfl

theorem get_obj (key : String) (fields : List (String × Json)) :
    (obj fields).get key = ((obj fields).get? key).getD .null := rfl

/-! ## Types -/

def isNull : Json → Bool
  | .null => true
  | _ => false

/-- The value is this text. -/
def isStr (text : String) : Json → Bool
  | .str s => s = text
  | _ => false

def isObj : Json → Bool
  | .obj _ => true
  | .dict _ => true
  | _ => false

def asObj? : Json → Option (List (String × Json))
  | .obj fields => some fields
  | _ => none

def asArr? : Json → Option (List Json)
  | .arr items => some items
  | _ => none

def asStr? : Json → Option String
  | .str s => some s
  | _ => none

/-- An integer; a truth value is none. -/
def asInt? : Json → Option ℤ
  | .int i => some i
  | _ => none

theorem asObj?_eq_some {j : Json} {fields : List (String × Json)} : j.asObj? = some fields ↔ j = .obj fields := by
  cases j <;> simp [asObj?]

theorem asInt?_eq_some {j : Json} {i : ℤ} : j.asInt? = some i ↔ j = .int i := by
  cases j <;> simp [asInt?]

theorem mapM_asStr? (texts : List String) : (texts.map str).mapM asStr? = some texts := by
  induction texts with
  | nil => rfl
  | cons text texts ih =>
      rw [List.map_cons, List.mapM_cons, ih]
      rfl

/-- An optional value, `null` when it is absent. -/
def ofOption {α : Type} (f : α → Json) : Option α → Json
  | none => .null
  | some a => f a

/-- The name of a value's type. -/
def typeName : Json → String
  | .null => "NoneType"
  | .bool _ => "bool"
  | .int _ => "int"
  | .float _ | .inf _ | .nan => "float"
  | .str _ => "str"
  | .arr _ => "list"
  | .obj _ => "dict"
  | .dict _ => "dict"

/-- The truth of a value: everything but zero and the empty values. -/
def truth : Json → Bool
  | .null => false
  | .bool b => b
  | .int i => i ≠ 0
  | .float q => q ≠ 0
  | .inf _ => true
  | .nan => true
  | .str s => s ≠ ""
  | .arr items => !items.isEmpty
  | .obj fields => !fields.isEmpty
  | .dict entries => !entries.isEmpty

/-! ## Equality

Numbers are compared by value, a truth value being zero or one, and objects without regard to order. -/

/-- The value of a finite number. -/
def number? : Json → Option ℚ
  | .bool b => some b.toInt
  | .int i => some i
  | .float q => some q
  | _ => none

/-- Equality of two values that are not both lists or both objects. -/
def sameLeaf : Json → Json → Bool
  | .null, .null => true
  | .str s, .str t => s = t
  | .inf negative, .inf negative' => negative = negative'
  | v, w =>
    match number? v, number? w with
    | some q, some r => q = r
    | _, _ => false

mutual

def same : Json → Json → Bool
  | .arr xs, .arr ys => sameItems xs ys
  | .obj fs, .obj gs => sameFields fs gs && gs.all fun g => g.1 ∈ fs.map Prod.fst
  | v, w => sameLeaf v w

def sameItems : List Json → List Json → Bool
  | [], [] => true
  | x :: xs, y :: ys => same x y && sameItems xs ys
  | _, _ => false

/-- Every field has an equal one on the other side. -/
def sameFields : List (String × Json) → List (String × Json) → Bool
  | [], _ => true
  | (key, v) :: fs, gs =>
    (match gs.lookup key with
    | some w => same v w
    | none => false) && sameFields fs gs

end

end Json

end Lib
