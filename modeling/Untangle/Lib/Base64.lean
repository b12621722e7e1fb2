import Mathlib.Data.List.Basic

/-!
# `Lib.Base64` — the URL-safe base64 alphabet

Three bytes are written as four characters, and a last group of one or two is padded. The reader is the lenient one:
it passes over characters outside the alphabet, stops at the padding of a group, and refuses a text that ends inside a
group. `decode_encode` is the round trip.
-/

namespace Lib

namespace Base64

/-- The character of six bits. -/
def digit (n : Nat) : Char :=
  if n < 26 then Char.ofNat (65 + n)
  else if n < 52 then Char.ofNat (71 + n)
  else if n < 62 then Char.ofNat (n - 4)
  else if n = 62 then '-'
  else '_'

/-- The six bits of a character, also of those that the other alphabet has for the last two. -/
def value? (c : Char) : Option Nat :=
  if 'A' ≤ c ∧ c ≤ 'Z' then some (c.toNat - 65)
  else if 'a' ≤ c ∧ c ≤ 'z' then some (c.toNat - 71)
  else if '0' ≤ c ∧ c ≤ '9' then some (c.toNat + 4)
  else if c = '-' ∨ c = '+' then some 62
  else if c = '_' ∨ c = '/' then some 63
  else none

/-- `base64.urlsafe_b64encode`. -/
def encode : List UInt8 → List Char
  | [] => []
  | [a] => [digit (a.toNat / 4), digit (a.toNat % 4 * 16), '=', '=']
  | [a, b] => [digit (a.toNat / 4), digit (a.toNat % 4 * 16 + b.toNat / 16), digit (b.toNat % 16 * 4), '=']
  | a :: b :: c :: bytes =>
    digit (a.toNat / 4) :: digit (a.toNat % 4 * 16 + b.toNat / 16) :: digit (b.toNat % 16 * 4 + c.toNat / 64) ::
      digit (c.toNat % 64) :: encode bytes

/-- The reader inside a group: how many characters of it were read, what is left of their bits, and how many padding
    characters have come. -/
def decodeFrom (position left pads : Nat) : List Char → Option (List UInt8)
  | [] => if position = 0 then some [] else none
  | c :: cs =>
    if c = '=' then
      if position < 2 then decodeFrom position left pads cs
      else if 4 ≤ position + (pads + 1) then some []
      else decodeFrom position left (pads + 1) cs
    else
      match value? c with
      | none => decodeFrom position left pads cs
      | some v =>
        match position with
        | 0 => decodeFrom 1 v 0 cs
        | 1 => (decodeFrom 2 (v % 16) 0 cs).map (UInt8.ofNat (left * 4 + v / 16) :: ·)
        | 2 => (decodeFrom 3 (v % 4) 0 cs).map (UInt8.ofNat (left * 16 + v / 4) :: ·)
        | _ => (decodeFrom 0 0 0 cs).map (UInt8.ofNat (left * 64 + v) :: ·)

/-- `base64.urlsafe_b64decode`. -/
def decode (cs : List Char) : Option (List UInt8) := decodeFrom 0 0 0 cs

/-! ## The round trip -/

attribute [local simp] decodeFrom

theorem value?_digit {n : Nat} (h : n < 64) : value? (digit n) = some n ∧ digit n ≠ '=' ∧ (digit n).toNat < 128 := by
  revert n
  decide

section Group

variable {n : Nat} (h : n < 64) (left pads : Nat) (cs : List Char)

include h

theorem decodeFrom_zero : decodeFrom 0 left pads (digit n :: cs) = decodeFrom 1 n 0 cs := by
  obtain ⟨hvalue, hne, _⟩ := value?_digit h
  simp [hne, hvalue]

theorem decodeFrom_one : decodeFrom 1 left pads (digit n :: cs) =
    (decodeFrom 2 (n % 16) 0 cs).map (UInt8.ofNat (left * 4 + n / 16) :: ·) := by
  obtain ⟨hvalue, hne, _⟩ := value?_digit h
  simp [hne, hvalue]

theorem decodeFrom_two : decodeFrom 2 left pads (digit n :: cs) =
    (decodeFrom 3 (n % 4) 0 cs).map (UInt8.ofNat (left * 16 + n / 4) :: ·) := by
  obtain ⟨hvalue, hne, _⟩ := value?_digit h
  simp [hne, hvalue]

theorem decodeFrom_three : decodeFrom 3 left pads (digit n :: cs) =
    (decodeFrom 0 0 0 cs).map (UInt8.ofNat (left * 64 + n) :: ·) := by
  obtain ⟨hvalue, hne, _⟩ := value?_digit h
  simp [hne, hvalue]

end Group

theorem ofNat_eq (n : Nat) (a : UInt8) (h : n = a.toNat) : UInt8.ofNat n = a := by
  rw [h, UInt8.ofNat_toNat]

/-- **What was encoded is decoded.** -/
theorem decode_encode (bytes : List UInt8) : decode (encode bytes) = some bytes := by
  unfold decode
  induction bytes using encode.induct with
  | case1 => rfl
  | case2 a =>
      have ha := a.toNat_lt
      have hfirst := ofNat_eq (a.toNat / 4 * 4 + a.toNat % 4 * 16 / 16) a (by omega)
      rw [encode, decodeFrom_zero (by omega), decodeFrom_one (by omega), hfirst]
      rfl
  | case3 a b =>
      have ha := a.toNat_lt
      have hb := b.toNat_lt
      have hfirst := ofNat_eq (a.toNat / 4 * 4 + (a.toNat % 4 * 16 + b.toNat / 16) / 16) a (by omega)
      have hsecond := ofNat_eq ((a.toNat % 4 * 16 + b.toNat / 16) % 16 * 16 + b.toNat % 16 * 4 / 4) b (by omega)
      rw [encode, decodeFrom_zero (by omega), decodeFrom_one (by omega), decodeFrom_two (by omega), hfirst, hsecond]
      rfl
  | case4 a b c bytes ih =>
      have ha := a.toNat_lt
      have hb := b.toNat_lt
      have hc := c.toNat_lt
      have hfirst := ofNat_eq (a.toNat / 4 * 4 + (a.toNat % 4 * 16 + b.toNat / 16) / 16) a (by omega)
      have hsecond := ofNat_eq ((a.toNat % 4 * 16 + b.toNat / 16) % 16 * 16 + (b.toNat % 16 * 4 + c.toNat / 64) / 4) b
        (by omega)
      have hthird := ofNat_eq ((b.toNat % 16 * 4 + c.toNat / 64) % 4 * 64 + c.toNat % 64) c (by omega)
      rw [encode, decodeFrom_zero (by omega), decodeFrom_one (by omega), decodeFrom_two (by omega),
        decodeFrom_three (by omega), ih, hfirst, hsecond, hthird]
      rfl

/-- The encoded text is ASCII. -/
theorem toNat_lt_of_mem_encode {bytes : List UInt8} {c : Char} (h : c ∈ encode bytes) : c.toNat < 128 := by
  induction bytes using encode.induct with
  | case1 => cases h
  | case2 a =>
      have ha := a.toNat_lt
      simp only [encode, List.mem_cons, List.not_mem_nil, or_false] at h
      obtain rfl | rfl | rfl | rfl := h
      · exact (value?_digit (by omega)).2.2
      · exact (value?_digit (by omega)).2.2
      · decide
      · decide
  | case3 a b =>
      have ha := a.toNat_lt
      have hb := b.toNat_lt
      simp only [encode, List.mem_cons, List.not_mem_nil, or_false] at h
      obtain rfl | rfl | rfl | rfl := h
      · exact (value?_digit (by omega)).2.2
      · exact (value?_digit (by omega)).2.2
      · exact (value?_digit (by omega)).2.2
      · decide
  | case4 a b c' bytes ih =>
      have ha := a.toNat_lt
      have hb := b.toNat_lt
      have hc := c'.toNat_lt
      simp only [encode, List.mem_cons] at h
      obtain rfl | rfl | rfl | rfl | h := h
      · exact (value?_digit (by omega)).2.2
      · exact (value?_digit (by omega)).2.2
      · exact (value?_digit (by omega)).2.2
      · exact (value?_digit (by omega)).2.2
      · exact ih h

end Base64

end Lib
