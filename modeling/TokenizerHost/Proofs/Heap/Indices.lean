import TokenizerHost.Proofs.Heap.Limits
import TokenizerHost.Proofs.Import.Outcome
import TokenizerHost.Proofs.Text.Numeral

set_option autoImplicit false

namespace TokenizerHost

theorem indexKey?_of_numeral {key : String} {n : Nat} (h : Text.Numeral key.toList n) :
    indexKey? key = if n ≤ maxIndexKey then some n else none := by
  have hempty : key.toList.isEmpty = false := List.isEmpty_eq_false_iff.2 h.nonempty
  have hdigits : key.toList.all Char.isDigit = true := List.all_eq_true.2 h.digits
  have hzero : ¬ (1 < key.toList.length ∧ key.toList.head? = some '0') := by
    rintro ⟨hlong, hhead⟩
    rw [h.no_leading_zero hhead] at hlong
    exact absurd hlong (by decide)
  have hvalue : Text.natOfDigits key.toList = n := (Text.natOfDigits_eq_ofDigits _).trans h.value
  simp [indexKey?, hempty, hdigits, hzero, hvalue]

theorem numeral_of_indexKey? {key : String} {n : Nat} (h : indexKey? key = some n) :
    Text.Numeral key.toList n := by
  rw [indexKey?] at h
  split at h
  next => cases h
  next hread =>
    simp only [Bool.or_eq_true, List.isEmpty_iff, Bool.not_eq_eq_eq_not, Bool.not_true,
      Bool.and_eq_true, decide_eq_true_eq, beq_iff_eq, not_or, Bool.not_eq_false, not_and,
      List.all_eq_true] at hread
    obtain ⟨⟨hne, hdigits⟩, hshort⟩ := hread
    have hvalue : Text.natOfDigits key.toList = n :=
      Option.some.inj (Option.ite_none_right_eq_some.1 h).2
    have hzero : key.toList.head? = some '0' → key.toList = ['0'] := fun hhead =>
      Text.eq_zero_of_leading_zero hhead fun hlong => hshort hlong hhead
    exact ⟨hne, hdigits, hzero, (Text.natOfDigits_eq_ofDigits _).symm.trans hvalue⟩

theorem indexKey?_eq_some_iff {key : String} {n : Nat} :
    indexKey? key = some n ↔ n ≤ maxIndexKey ∧ Text.Numeral key.toList n := by
  constructor
  · intro h
    have hnumeral := numeral_of_indexKey? h
    rw [indexKey?_of_numeral hnumeral] at h
    exact ⟨(Option.ite_none_right_eq_some.1 h).1, hnumeral⟩
  · rintro ⟨hle, hnumeral⟩
    rw [indexKey?_of_numeral hnumeral, if_pos hle]

/-- A name is an index exactly if it is the decimal text of a number that is not too great, and then
it denotes that number. The decimal text of a number is the numeral of it. -/
theorem keys_name_indices_exactly (key : String) :
    (∀ n : Nat, indexKey? key = some n ↔ n ≤ 2 ^ 32 - 2 ∧ key = Text.decimal n) ∧
    (indexKey? key = none ↔ ∀ n : Nat, n ≤ 2 ^ 32 - 2 → key ≠ Text.decimal n) ∧
    ∀ n : Nat, key = Text.decimal n ↔ Text.Numeral key.toList n := by
  have hindex (n : Nat) : indexKey? key = some n ↔ n ≤ 2 ^ 32 - 2 ∧ key = Text.decimal n := by
    rw [indexKey?_eq_some_iff, Text.eq_decimal_iff]
    rfl
  refine ⟨hindex, ?_, fun n => Text.eq_decimal_iff⟩
  rw [Option.eq_none_iff_forall_ne_some]
  exact forall_congr' fun n => by rw [ne_eq, hindex, not_and]

-- The last of these is a digit of another script.
example : ["0", "10", "4294967294", "4294967295", "00", "", "+1", "-1", "١"].map indexKey? =
    [some 0, some 10, some 4294967294, none, none, none, none, none, none] := by decide +kernel

/-- The text of an integer names an element if the integer is an index that a name can denote. -/
theorem indexKey?_decimal (i : Int) :
    indexKey? (Text.decimal i) = if 0 ≤ i ∧ i ≤ maxIndexKey then some i.toNat else none := by
  by_cases hi : i < 0
  · rw [if_neg (by omega)]
    simp [indexKey?, Text.toList_decimal, hi]
  · obtain ⟨n, rfl⟩ := Int.eq_ofNat_of_zero_le (Int.not_lt.1 hi)
    rw [indexKey?_of_numeral (Text.eq_decimal_iff.1 rfl)]
    simp

/-- If there is nothing beyond the indices that names denote, an index and its text lead to the
same. -/
theorem elim_indexKey?_decimal {α : Type} {f : Nat → α} {nothing : α}
    (hbeyond : ∀ n, maxIndexKey < n → f n = nothing) (i : Int) :
    (indexKey? (Text.decimal i)).elim nothing f = if i < 0 then nothing else f i.toNat := by
  rw [indexKey?_decimal]
  split
  next hi => rw [Option.elim_some, if_neg (by omega)]
  next hi =>
    rw [Option.elim_none]
    split
    next => rfl
    next hneg => exact (hbeyond i.toNat (by omega)).symm

/-! ## Elements by name -/

theorem Elements.get_past {e : Elements} {i : Nat} (hi : e.length ≤ i) : e.get i = .undefined := by
  have hsize := e.size_le
  rw [get, Array.getElem?_eq_none (by omega), Option.getD_none]

namespace Heap

variable {h : Heap}

def elementCount (h : Heap) (v : Value) : Nat :=
  match v with
  | .string s => Text.units s
  | .array _ => (h.elements? v).elim 0 (·.length)
  | .bytes _ => (h.bytes? v).elim 0 (·.size)
  | _ => 0

theorem element_past {v : Value} {i : Nat} (hi : h.elementCount v ≤ i) :
    h.element v i = .undefined := by
  unfold elementCount at hi
  cases v with
  | string s =>
    have hnone : Text.unitAt? s i = none := by
      rw [← Option.not_isSome_iff_eq_none, Text.unitAt?, Text.unitOf?_isSome_iff]
      exact Nat.not_lt.2 hi
    simp only [element, unitValue, hnone]
  | array id =>
    simp only [element]
    cases he : h.elements? (.array id) with
    | none => rfl
    | some e =>
      rw [he, Option.elim_some] at hi
      rw [Option.elim_some, Elements.get_past hi]
  | bytes id =>
    simp only [element]
    cases hbytes : h.bytes? (.bytes id) with
    | none => rfl
    | some bytes =>
      simp only [hbytes, Option.elim_some] at hi
      simp [Buffer.get, hi]
  | _ => rfl

theorem setElement_beyond {v : Value} {i : Nat} (hi : h.elementCount v ≤ i)
    (hlimit : maxArrayLength ≤ i) (x : Value) : h.setElement v i x = h := by
  cases v with
  | array id => exact setElement_past rfl hlimit x
  | bytes id =>
    cases hbytes : h.buffers[id]? with
    | none =>
      have hsame : h.buffers.modify id (Buffer.set · i x) = h.buffers :=
        modify_eq_self fun bytes hstored => absurd (hbytes.symm.trans hstored) (by simp)
      simp only [setElement, hsame]
    | some bytes =>
      simp only [elementCount, bytes?, hbytes, Option.elim_some] at hi
      exact setElement_past (by simp only [capacity?, hbytes, Option.map_some]) hi x
  | _ => rfl

theorem elementNamed_eq (h : Heap) (v : Value) (key : String) :
    h.elementNamed v key = (indexKey? key).elim .undefined (h.element v) := by
  rw [elementNamed]
  cases indexKey? key <;> rfl

section Elements

variable {v : Value} (hobject : ∀ id, v ≠ .object id) (hfunction : ∀ id, v ≠ .function id)

include hobject hfunction

theorem get_decimal (i : Int) : h.get v (Text.decimal i) = h.elementNamed v (Text.decimal i) := by
  have hlength := Text.decimal_ne_length i
  have hbytes : Text.decimal i ≠ "byteLength" :=
    Text.decimal_ne (c := 'b') (by decide) (by decide) (by decide) i
  cases v with
  | object id => exact absurd rfl (hobject id)
  | function id => exact absurd rfl (hfunction id)
  | array id | bytes id | string s => simp [get, hlength, hbytes]
  | _ =>
    simp only [get, elementNamed]
    split <;> rfl

theorem set_named (key : String) (x : Value) :
    h.set v key x = (indexKey? key).elim h (h.setElement v · x) := by
  cases v with
  | object id => exact absurd rfl (hobject id)
  | function id => exact absurd rfl (hfunction id)
  | _ =>
    simp only [set, setElement]
    cases indexKey? key <;> rfl

end Elements

theorem index_eq_get {v : Value} (hfew : h.elementCount v < 2 ^ 32 - 1) (i : Int) :
    h.index v i = h.get v (Text.decimal i) := by
  have hbeyond : ∀ n, maxIndexKey < n → h.element v n = .undefined := fun n hn => by
    have hmax : maxIndexKey = 2 ^ 32 - 2 := rfl
    exact element_past (by omega)
  cases v with
  | object id | function id => rfl
  | _ =>
    rw [get_decimal (by simp) (by simp), elementNamed_eq, elim_indexKey?_decimal hbeyond]
    rfl

theorem setIndex_eq_set {v : Value} (hfew : h.elementCount v < 2 ^ 32 - 1) (i : Int) (x : Value) :
    h.setIndex v i x = h.set v (Text.decimal i) x := by
  have hbeyond : ∀ n, maxIndexKey < n → h.setElement v n x = h := fun n hn => by
    have hmax : maxIndexKey = 2 ^ 32 - 2 := rfl
    have hlimit : maxArrayLength = 2 ^ 20 := rfl
    exact setElement_beyond (by omega) (by omega) x
  cases v with
  | object id | function id => rfl
  | _ =>
    rw [set_named (by simp) (by simp), elim_indexKey?_decimal hbeyond]
    rfl

end Heap

/-- A guest gets the same element by index as by name, and writes the same one. -/
theorem index_and_name_agree {σ : Type} (c : Calls σ) (sp : Nat) (w : World σ) (v : Value)
    (hfew : w.heap.elementCount v < 2 ^ 32 - 1) (i : Int) (x : Value) :
    w.heap.index v i = w.heap.get v (Text.decimal i) ∧
    w.heap.setIndex v i x = w.heap.set v (Text.decimal i) x ∧
    Import.perform c sp (.index v i) w =
      Host.storeValue (sp + 24) (w.heap.get v (Text.decimal i)) w ∧
    Import.perform c sp (.get v (Text.decimal i)) w =
      (do
        let sp ← Import.freshStackPointer c
        Host.storeValue (sp + 32) (w.heap.index v i)) w ∧
    Import.perform c sp (.setIndex v i x) w =
      Import.perform c sp (.set v (Text.decimal i) x) w := by
  have hread := Heap.index_eq_get hfew i
  have hwrite := Heap.setIndex_eq_set hfew i x
  refine ⟨hread, hwrite, ?_, ?_, ?_⟩
  · rw [← hread]
    rfl
  · rw [hread]
    rfl
  · change EStateM.Result.ok () { w with heap := w.heap.setIndex v i x } = _
    rw [hwrite]
    rfl

/-- The greatest natural number of 32 bits is no index, and of two letters none is there. -/
theorem index_and_name_agree_past :
    Import.perform (askingTwice.callsWithin 1) 0 (.index (.string "ab") 4294967295) blank =
      Host.storeValue 24 (blank.heap.get (.string "ab") "4294967295") blank :=
  (index_and_name_agree (askingTwice.callsWithin 1) 0 blank (.string "ab") (by decide) 4294967295
    .undefined).2.2.1

end TokenizerHost
