import TokenizerHost.Proofs.Heap.Indices

set_option autoImplicit false

namespace TokenizerHost

namespace Text

/-! ## The encoding -/

def utf16 (c : Char) : List UInt16 :=
  if isPair c then
    [.ofNat (0xD800 + (c.toNat - 0x10000) / 0x400), .ofNat (0xDC00 + (c.toNat - 0x10000) % 0x400)]
  else [.ofNat c.toNat]

/-- The units from which pairs are made; on its own none of them is a character. -/
def IsSurrogate (unit : UInt16) : Prop := 0xD800 ≤ unit.toNat ∧ unit.toNat < 0xE000

instance : DecidablePred IsSurrogate := fun _ => inferInstanceAs (Decidable (_ ∧ _))

def lossy (unit : UInt16) : Char :=
  if IsSurrogate unit then '\ufffd' else .ofNat unit.toNat

def apart (c : Char) : List Char := if isPair c then ['\ufffd', '\ufffd'] else [c]

/-- A text with two U+FFFD for every character that takes two units. -/
def inHalves (s : String) : String := .ofList (s.toList.flatMap apart)

theorem isPair_iff {c : Char} : isPair c = true ↔ 0x10000 ≤ c.toNat := decide_eq_true_iff

theorem toNat_lt (c : Char) : c.toNat < 0x110000 := by
  rcases c.valid with h | ⟨-, h⟩
  · exact Nat.lt_trans h (by decide)
  · exact h

theorem utf16_of_isPair {c : Char} (hc : isPair c = true) : ∃ high low, utf16 c = [high, low] ∧
    0xD800 ≤ high.toNat ∧ high.toNat < 0xDC00 ∧ 0xDC00 ≤ low.toNat ∧ low.toNat < 0xE000 ∧
    c.toNat = 0x10000 + (high.toNat - 0xD800) * 0x400 + (low.toNat - 0xDC00) := by
  have hfirst := isPair_iff.1 hc
  have hlast := toNat_lt c
  refine ⟨_, _, by rw [utf16, if_pos hc], ?_⟩
  rw [UInt16.toNat_ofNat_of_lt' (by change _ < 65536; omega),
    UInt16.toNat_ofNat_of_lt' (by change _ < 65536; omega)]
  omega

theorem utf16_of_not_isPair {c : Char} (hc : ¬ isPair c = true) :
    ∃ unit, utf16 c = [unit] ∧ unit.toNat = c.toNat ∧ ¬ IsSurrogate unit := by
  have hlt : c.toNat < 0x10000 := Nat.lt_of_not_le (mt isPair_iff.2 hc)
  have hunit : (UInt16.ofNat c.toNat).toNat = c.toNat := UInt16.toNat_ofNat_of_lt' hlt
  refine ⟨_, by rw [utf16, if_neg hc], hunit, ?_⟩
  rw [IsSurrogate, hunit]
  rintro ⟨hfirst, hlast⟩
  rcases c.valid with h | ⟨h, -⟩
  · exact absurd h (Nat.not_lt.2 hfirst)
  · exact absurd h (by change ¬ 57343 < c.toNat; omega)

theorem length_utf16 (c : Char) : (utf16 c).length = charUnits c := by
  unfold utf16 charUnits
  split <;> rfl

theorem length_utf16_eq (c : Char) : (utf16 c).length = if c.toNat < 0x10000 then 1 else 2 := by
  rw [length_utf16, charUnits]
  split
  next hc => rw [if_neg (Nat.not_lt.2 (isPair_iff.1 hc))]
  next hc => rw [if_pos (Nat.lt_of_not_le (mt isPair_iff.2 hc))]

theorem length_apart (c : Char) : (apart c).length = charUnits c := by
  unfold apart charUnits
  split <;> rfl

theorem map_lossy_utf16 (c : Char) : (utf16 c).map lossy = apart c := by
  unfold apart
  split
  next hc =>
    obtain ⟨high, low, hunits, hhigh⟩ := utf16_of_isPair hc
    rw [hunits, List.map_cons, List.map_cons, List.map_nil, lossy, lossy,
      if_pos ⟨by omega, by omega⟩, if_pos ⟨by omega, by omega⟩]
  next hc =>
    obtain ⟨unit, hunits, hunit, hsurrogate⟩ := utf16_of_not_isPair hc
    rw [hunits, List.map_cons, List.map_nil, lossy, if_neg hsurrogate, hunit, Char.ofNat_toNat]

/-! ## Counting and reading units -/

theorem unitsOf_eq (cs : List Char) : unitsOf cs = (cs.flatMap apart).length := by
  induction cs with
  | nil => rfl
  | cons c cs ih => rw [unitsOf, ih, List.flatMap_cons, List.length_append, length_apart]

theorem unitOf?_eq (cs : List Char) (i : Nat) : unitOf? cs i = (cs.flatMap apart)[i]? := by
  induction cs generalizing i with
  | nil => rfl
  | cons c cs ih =>
    rw [unitOf?, List.flatMap_cons]
    split
    next hi =>
      rw [List.getElem?_append_left (by rwa [length_apart])]
      unfold charUnits at hi
      unfold apart
      split at hi
      next hc =>
        rw [if_pos hc, if_pos hc]
        obtain rfl | rfl : i = 0 ∨ i = 1 := by omega
        · rfl
        · rfl
      next hc =>
        rw [if_neg hc, if_neg hc, show i = 0 by omega]
        rfl
    next hi =>
      rw [List.getElem?_append_right (by rw [length_apart]; omega), length_apart, ih]

theorem map_lossy_flatMap_utf16 (cs : List Char) :
    (cs.flatMap utf16).map lossy = cs.flatMap apart := by
  simp only [List.map_flatMap, map_lossy_utf16]

theorem units_eq (s : String) : units s = (s.toList.flatMap utf16).length := by
  rw [units, unitsOf_eq, ← map_lossy_flatMap_utf16, List.length_map]

theorem unitAt?_eq (s : String) (i : Nat) :
    unitAt? s i = (s.toList.flatMap utf16)[i]?.map lossy := by
  rw [unitAt?, unitOf?_eq, ← map_lossy_flatMap_utf16, List.getElem?_map]

theorem units_append (s t : String) : units (s ++ t) = units s + units t := by
  rw [units, String.toList_append, unitsOf_append, units, units]

theorem units_inHalves (s : String) : units s = (inHalves s).toList.length := by
  rw [units, unitsOf_eq, inHalves, String.toList_ofList]

theorem unitAt?_inHalves (s : String) (i : Nat) : unitAt? s i = (inHalves s).toList[i]? := by
  rw [unitAt?, unitOf?_eq, inHalves, String.toList_ofList]

/-- Only a text without pairs is the same in halves. -/
theorem inHalves_eq_iff (s : String) : inHalves s = s ↔ ∀ c ∈ s.toList, isPair c = false := by
  rw [← String.toList_inj, inHalves, String.toList_ofList]
  generalize s.toList = cs
  induction cs with
  | nil => exact iff_of_true rfl fun c hc => nomatch hc
  | cons c cs ih =>
    rw [List.flatMap_cons, apart, List.forall_mem_cons]
    split
    next hc =>
      refine iff_of_false (fun h => ?_) fun h => Bool.false_ne_true (h.1.symm.trans hc)
      obtain ⟨rfl, -⟩ := List.cons.inj h
      exact Bool.false_ne_true hc
    next hc =>
      rw [List.singleton_append, List.cons.injEq, ih]
      exact and_congr_left' (iff_of_true rfl (Bool.eq_false_iff.2 hc))

/-! ## Whose unit it is -/

def IsUnitOf (s : String) (i : Nat) (c : Char) : Prop :=
  ∃ front back k, s = front ++ c.toString ++ back ∧ k < (utf16 c).length ∧ i = units front + k

def alone (c : Char) : Char := if c.toNat < 0x10000 then c else '\ufffd'

theorem apart_getElem? {c : Char} {k : Nat} (hk : k < (utf16 c).length) :
    (apart c)[k]? = some (alone c) := by
  have hall : apart c = .replicate (utf16 c).length (alone c) := by
    unfold apart utf16 alone
    split
    next hc => rw [if_neg (Nat.not_lt.2 (isPair_iff.1 hc))]; rfl
    next hc => rw [if_pos (Nat.lt_of_not_le (mt isPair_iff.2 hc))]; rfl
  rw [hall, List.getElem?_replicate_of_lt hk]

theorem unitAt?_of_isUnitOf {s : String} {i : Nat} {c : Char} (h : IsUnitOf s i c) :
    unitAt? s i = some (alone c) := by
  obtain ⟨front, back, k, rfl, hk, rfl⟩ := h
  have hchars : (front ++ c.toString ++ back).toList = front.toList ++ c :: back.toList := by
    simp [Char.toString]
  rw [unitAt?, unitOf?_eq, hchars, List.flatMap_append, List.flatMap_cons, units, unitsOf_eq,
    List.getElem?_append_right (Nat.le_add_right _ _), Nat.add_sub_cancel_left,
    List.getElem?_append_left (by rwa [length_apart, ← length_utf16]), apart_getElem? hk]

theorem exists_isUnitOf {s : String} {i : Nat} (hi : i < units s) : ∃ c, IsUnitOf s i c := by
  have hsplit : ∀ (cs : List Char) (i : Nat), i < unitsOf cs → ∃ c front back k,
      cs = front ++ c :: back ∧ k < charUnits c ∧ i = unitsOf front + k := by
    intro cs
    induction cs with
    | nil => exact fun i hi => absurd hi (Nat.not_lt_zero i)
    | cons c cs ih =>
      intro i hi
      by_cases hfirst : i < charUnits c
      · exact ⟨c, [], cs, i, rfl, hfirst, (Nat.zero_add i).symm⟩
      · rw [unitsOf] at hi
        obtain ⟨d, front, back, k, rfl, hk, hindex⟩ := ih (i - charUnits c) (by omega)
        exact ⟨d, c :: front, back, k, rfl, hk, by rw [unitsOf]; omega⟩
  obtain ⟨c, front, back, k, hs, hk, hindex⟩ := hsplit s.toList i hi
  refine ⟨c, .ofList front, .ofList back, k, ?_, by rwa [length_utf16], ?_⟩
  · rw [← String.toList_inj, hs]
    simp [Char.toString]
  · rw [hindex, units, String.toList_ofList]

end Text

/-! ## Texts in a heap -/

namespace Heap

/-- What the elements of a value make when they are put together, if all of them are texts. -/
def spelled? (h : Heap) (v : Value) : Option String :=
  ((List.range (h.length v)).mapM fun i : Nat => (h.index v i).string?).map String.join

/-- What is read at each index of a list is read from all of them. -/
theorem mapM_range' {α : Type} {g : Nat → Option α} {xs : List α} (first : Nat)
    (hread : ∀ i, g (first + i) = xs[i]?) : (List.range' first xs.length).mapM g = some xs := by
  induction xs generalizing first with
  | nil => rfl
  | cons x xs ih =>
    have hx : g first = some x := hread 0
    have hrest := ih (first + 1) fun i => by rw [Nat.add_right_comm]; exact hread (i + 1)
    rw [List.length_cons, List.range'_succ, List.mapM_cons, hx, hrest]
    rfl

variable (h : Heap) (s : String)

theorem length_string : h.length (.string s) = Text.units s := rfl

theorem index_string (i : Nat) : h.index (.string s) i = unitValue s i := by
  change (if (i : Int) < 0 then Value.undefined else unitValue s i) = unitValue s i
  rw [if_neg (by omega)]

theorem index_string_eq_undefined (i : Int) :
    h.index (.string s) i = .undefined ↔ i < 0 ∨ h.length (.string s) ≤ i := by
  rw [length_string]
  by_cases hi : i < 0
  · exact iff_of_true (if_pos hi) (.inl hi)
  · obtain ⟨n, rfl⟩ := Int.eq_ofNat_of_zero_le (Int.not_lt.1 hi)
    have hsome := Text.unitOf?_isSome_iff s.toList n
    rw [index_string, unitValue, or_iff_right hi, Int.ofNat_le, Text.units, ← Nat.not_lt, ← hsome,
      Text.unitAt?]
    cases Text.unitOf? s.toList n <;> simp

theorem spelled?_string : h.spelled? (.string s) = some (Text.inHalves s) := by
  let parts := (Text.inHalves s).toList.map Char.toString
  have hparts : ∀ i, (h.index (.string s) (0 + i : Nat)).string? = parts[i]? := by
    intro i
    rw [Nat.zero_add, index_string, unitValue, Text.unitAt?_inHalves, List.getElem?_map]
    cases (Text.inHalves s).toList[i]? <;> rfl
  have hcount : h.length (.string s) = parts.length := by
    rw [length_string, Text.units_inHalves, List.length_map]
  have hall := mapM_range' (g := fun i : Nat => (h.index (.string s) i).string?) 0 hparts
  rw [spelled?, hcount, List.range_eq_range', hall, Option.map_some]
  refine congrArg some (String.toList_inj.1 ?_)
  rw [String.toList_join]
  simp [parts, List.flatMap_map, Char.toString]

end Heap

/-- A text has as many units as its characters take in 16 bits. At each of its indices, and at no
others, it gives a text of one character: that whose unit it is, or U+FFFD for half of a pair. So
it is spelled as it is unless it has pairs. -/
theorem texts_indexed_by_unit (h : Heap) (s : String) :
    h.length? (.string s) = some (s.toList.flatMap Text.utf16).length ∧
    (∀ c, (Text.utf16 c).length = if c.toNat < 0x10000 then 1 else 2) ∧
    h.get (.string s) "length" = .ofNat (h.length (.string s)) ∧
    (∀ t, h.length (.string (s ++ t)) = h.length (.string s) + h.length (.string t)) ∧
    (∀ i : Int, h.index (.string s) i = .undefined ↔ i < 0 ∨ h.length (.string s) ≤ i) ∧
    (∀ i : Nat, h.index (.string s) i = (s.toList.flatMap Text.utf16)[i]?.elim .undefined
      fun unit => .string (Text.lossy unit).toString) ∧
    (∀ i < h.length (.string s), ∃ c, Text.IsUnitOf s i c) ∧
    (∀ i c, Text.IsUnitOf s i c → h.index (.string s) i = .string (Text.alone c).toString) ∧
    h.spelled? (.string s) = some (Text.inHalves s) ∧
    (h.spelled? (.string s) = some s ↔ ∀ c ∈ s.toList, c.toNat < 0x10000) := by
  have hspelled := h.spelled?_string s
  refine ⟨congrArg some (Text.units_eq s), Text.length_utf16_eq, rfl, Text.units_append s,
    h.index_string_eq_undefined s, fun i => ?_, fun i hi => Text.exists_isUnitOf hi,
    fun i c hc => ?_, hspelled, ?_⟩
  · rw [Heap.index_string, unitValue, Text.unitAt?_eq]
    cases (s.toList.flatMap Text.utf16)[i]? <;> rfl
  · rw [Heap.index_string, unitValue, Text.unitAt?_of_isUnitOf hc]
  · rw [hspelled, Option.some.injEq, Text.inHalves_eq_iff]
    simp only [Bool.eq_false_iff, Ne, Text.isPair_iff, Nat.not_le]

example : Text.units "猫🐈" = 3 ∧ Text.inHalves "猫🐈" = "猫\ufffd\ufffd" := by decide

end TokenizerHost
