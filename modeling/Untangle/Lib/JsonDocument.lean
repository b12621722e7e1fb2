import Untangle.Lib.JsonText

/-!
# `Lib.JsonDocument` — when two values are the same document

What is written of a value is the value with sorted keys, decoded from its text (`written`). Two values have the same
canonical text exactly if the same is written of them (`canonicalText_inj`), so a digest of the text tells documents
apart. Of a value that JSON has, decoding changes nothing (`decoded_plain`). It can change what is written of a
dictionary in memory, whose keys are sorted as numbers before and as texts after (`sameDocument_dict`).
-/

namespace Lib.Json

variable {floatText : ℚ → String}

/-- What is written of a value, with its keys sorted. -/
def written (floatText : ℚ → String) (j : Json) : Json := decoded floatText (sortKeys j)

def SameDocument (floatText : ℚ → String) (a b : Json) : Prop := written floatText a = written floatText b

/-- A value that has a JSON text: no special float. -/
def Writable (floatText : ℚ → String) (j : Json) : Prop := Plain (decoded floatText j)

/-! ## Values of JSON -/

/-- A value of JSON is read back as it was. -/
theorem decoded_plain {j : Json} (h : Plain j) : decoded floatText j = j := by
  induction h with
  | @arr items _ ih =>
      rw [decoded, decodedItems_eq, List.map_congr_left ih, List.map_id']
  | @obj fields _ ih =>
      have hfields : ∀ p ∈ fields, (p.1, decoded floatText p.2) = p := fun p hp => Prod.ext rfl (ih p hp)
      rw [decoded, decodedFields_eq, List.map_congr_left hfields, List.map_id']
  | _ => rfl

theorem Plain.writable {j : Json} (h : Plain j) : Writable floatText j := by
  unfold Writable
  rw [decoded_plain h]
  exact h

theorem plain_arr_iff {items : List Json} : Plain (.arr items) ↔ ∀ v ∈ items, Plain v :=
  ⟨fun h => by cases h with | arr h => exact h, .arr⟩

theorem plain_obj_iff {fields : List (String × Json)} : Plain (.obj fields) ↔ ∀ p ∈ fields, Plain p.2 :=
  ⟨fun h => by cases h with | obj h => exact h, .obj⟩

/-- The fields of a value of JSON are values of JSON. -/
theorem Plain.get? {v w : Json} {key : String} (h : Plain v) (hget : v.get? key = some w) : Plain w := by
  cases h with
  | @obj fields h =>
      obtain ⟨before, after, rfl, _⟩ := List.lookup_eq_some_iff.mp hget
      exact h (key, w) (List.mem_append_right _ List.mem_cons_self)
  | _ => cases hget

theorem Plain.getD {v default : Json} (key : String) (h : Plain v) (hdefault : Plain default) :
    Plain ((v.get? key).getD default) := by
  cases hget : v.get? key with
  | none => exact hdefault
  | some w => exact h.get? hget

theorem writable_arr {items : List Json} : Writable floatText (.arr items) ↔ ∀ v ∈ items, Writable floatText v := by
  unfold Writable
  rw [decoded, decodedItems_eq, plain_arr_iff, List.forall_mem_map]

theorem writable_obj {fields : List (String × Json)} :
    Writable floatText (.obj fields) ↔ ∀ p ∈ fields, Writable floatText p.2 := by
  unfold Writable
  rw [decoded, decodedFields_eq, plain_obj_iff, List.forall_mem_map]

theorem writable_dict {entries : List (DictKey × Json)} :
    Writable floatText (.dict entries) ↔ ∀ p ∈ entries, Writable floatText p.2 := by
  unfold Writable
  rw [decoded, decodedEntries_eq, plain_obj_iff, List.forall_mem_map]

/-- Sorting the keys leaves the values that there are. -/
theorem Writable.sortKeys {j : Json} (h : Writable floatText j) : Writable floatText (sortKeys j) := by
  induction j using induction with
  | arr items ih =>
      rw [writable_arr] at h
      rw [Json.sortKeys, sortItems_eq, writable_arr, List.forall_mem_map]
      exact fun v hv => ih v hv (h v hv)
  | obj fields ih =>
      rw [writable_obj] at h
      rw [Json.sortKeys, sortFields_eq, writable_obj]
      intro p hp
      rw [List.mem_insertionSort] at hp
      obtain ⟨q, hq, rfl⟩ := List.mem_map.mp hp
      exact ih q hq (h q hq)
  | dict entries ih =>
      rw [writable_dict] at h
      rw [Json.sortKeys, sortEntries_eq, writable_dict]
      intro p hp
      rw [List.mem_insertionSort] at hp
      obtain ⟨q, hq, rfl⟩ := List.mem_map.mp hp
      exact ih q hq (h q hq)
  | _ => exact h

/-! ## The canonical text -/

/-- **The canonical text of a value determines its document.** -/
theorem canonicalText_inj (hfloat : FloatText floatText) {a b : Json} (ha : Writable floatText a)
    (hb : Writable floatText b) : canonicalText floatText a = canonicalText floatText b ↔ SameDocument floatText a b := by
  unfold canonicalText SameDocument written
  rw [← print_decoded (sortKeys a), ← print_decoded (sortKeys b)]
  constructor
  · intro h
    have htext : print floatText (decoded floatText (sortKeys a)) ++ [] =
        print floatText (decoded floatText (sortKeys b)) ++ [] := by
      rw [List.append_nil, List.append_nil]
      exact String.ofList_injective h
    have hend : EndsNumber [] := fun c hc => by cases hc
    exact (print_inj hfloat ha.sortKeys hb.sortKeys hend hend htext).1
  · exact congrArg fun j => String.ofList (print floatText j)

/-! ## Objects -/

/-- The order in which fields are written. -/
def keyOrder (p q : String × Json) : Prop := p.1 ≤ q.1

instance : DecidableRel keyOrder := fun p q => inferInstanceAs (Decidable (p.1 ≤ q.1))

instance : Std.Total keyOrder := ⟨fun p q => le_total p.1 q.1⟩

instance : IsTrans (String × Json) keyOrder := ⟨fun _ _ _ h h' => le_trans h h'⟩

/-- An object is written field by field, in the order of the keys. -/
theorem written_obj (fields : List (String × Json)) : written floatText (.obj fields) =
    .obj ((fields.map fun p => (p.1, written floatText p.2)).insertionSort keyOrder) := by
  unfold written
  rw [sortKeys, sortFields_eq, decoded, decodedFields_eq]
  congr 1
  rw [List.map_insertionSort (fun p q : String × Json => p.1 ≤ q.1) keyOrder
    (fun p : String × Json => (p.1, decoded floatText p.2)) _ fun p _ q _ => Iff.rfl, List.map_map]
  rfl

/-- A dictionary is written in the order of the numbers that its keys are. -/
theorem written_dict (entries : List (DictKey × Json)) : written floatText (.dict entries) =
    .obj ((entries.insertionSort fun p q => p.1.number?.getD 0 ≤ q.1.number?.getD 0).map fun p =>
      (keyText floatText p.1, written floatText p.2)) := by
  unfold written
  rw [sortKeys, sortEntries_eq, decoded, decodedEntries_eq]
  congr 1
  rw [← List.map_insertionSort (fun p q : DictKey × Json => p.1.number?.getD 0 ≤ q.1.number?.getD 0) _
    (fun p : DictKey × Json => (p.1, sortKeys p.2)) _ fun p _ q _ => Iff.rfl, List.map_map]
  rfl

/-- **Objects that differ in one field** are the same document if the field is. -/
theorem sameDocument_field {front back : List (String × Json)} {key : String} (hfront : key ∉ front.map Prod.fst)
    (hback : key ∉ back.map Prod.fst) (v w : Json) :
    SameDocument floatText (.obj (front ++ (key, v) :: back)) (.obj (front ++ (key, w) :: back)) ↔
      SameDocument floatText v w := by
  unfold SameDocument
  rw [written_obj, written_obj]
  constructor
  · intro h
    have hperm := (List.perm_insertionSort keyOrder _).symm.trans
      ((List.Perm.of_eq (Json.obj.inj h)).trans (List.perm_insertionSort keyOrder _))
    have hmem : (key, written floatText v) ∈
        (front ++ (key, w) :: back).map fun p => (p.1, written floatText p.2) :=
      hperm.subset (List.mem_map.mpr ⟨(key, v), List.mem_append_right _ List.mem_cons_self, rfl⟩)
    obtain ⟨p, hp, heq⟩ := List.mem_map.mp hmem
    obtain ⟨hkey, hwritten⟩ := Prod.mk.inj heq
    rcases List.mem_append.mp hp with hp | hp
    · exact absurd (hkey ▸ List.mem_map_of_mem hp) hfront
    · rcases List.mem_cons.mp hp with rfl | hp
      · exact hwritten.symm
      · exact absurd (hkey ▸ List.mem_map_of_mem hp) hback
  · intro h
    simp only [List.map_append, List.map_cons, h]

/-- **When a dictionary survives its own text**: its keys are in the same order as texts. -/
theorem sameDocument_dict {entries : List (DictKey × Json)} (hplain : ∀ p ∈ entries, Plain p.2)
    (hnd : (entries.map fun p => keyText floatText p.1).Nodup) :
    SameDocument floatText (decoded floatText (.dict entries)) (.dict entries) ↔
      ((entries.insertionSort fun p q => p.1.number?.getD 0 ≤ q.1.number?.getD 0).map fun p =>
        keyText floatText p.1).Pairwise (· ≤ ·) := by
  have hentries : (decodedEntries floatText entries).map (fun p => (p.1, written floatText p.2)) =
      entries.map fun p => (keyText floatText p.1, written floatText p.2) := by
    rw [decodedEntries_eq, List.map_map]
    apply List.map_congr_left
    intro p hp
    show (keyText floatText p.1, written floatText (decoded floatText p.2)) = _
    rw [decoded_plain (hplain p hp)]
  unfold SameDocument
  rw [decoded, written_obj, written_dict, hentries, Json.obj.injEq]
  constructor
  · intro h
    have hsorted := List.pairwise_insertionSort keyOrder
      (entries.map fun p => (keyText floatText p.1, written floatText p.2))
    rw [h, List.pairwise_map] at hsorted
    exact List.pairwise_map.mpr hsorted
  · intro h
    have hperm : ((entries.map fun p => (keyText floatText p.1, written floatText p.2)).insertionSort keyOrder).Perm
        ((entries.insertionSort fun p q => p.1.number?.getD 0 ≤ q.1.number?.getD 0).map fun p =>
          (keyText floatText p.1, written floatText p.2)) :=
      (List.perm_insertionSort keyOrder _).trans ((List.perm_insertionSort _ entries).map _).symm
    apply hperm.eq_of_pairwise _ (List.pairwise_insertionSort keyOrder _)
    · rw [List.pairwise_map] at h ⊢
      exact h
    · -- two entries with one key text are one
      intro p q hp hq hpq hqp
      rw [List.mem_insertionSort] at hp
      obtain ⟨e, he, rfl⟩ := List.mem_map.mp hp
      obtain ⟨e', he', rfl⟩ := List.mem_map.mp (hperm.symm.subset hq |> (List.mem_insertionSort keyOrder).mp)
      rw [List.inj_on_of_nodup_map hnd he he' (le_antisymm hpq hqp)]

end Lib.Json
