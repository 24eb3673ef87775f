import Mathlib.Data.Nat.Digits.Defs
import TokenizerHost.Proofs.Text.Decimal

set_option autoImplicit false

namespace TokenizerHost.Text

/-- The characters are the decimal numeral of the number. A sign is no digit, so there is none. -/
structure Numeral (ds : List Char) (n : Nat) : Prop where
  nonempty : ds ≠ []
  digits : ∀ c ∈ ds, c.isDigit = true
  no_leading_zero : ds.head? = some '0' → ds = ['0']
  value : Nat.ofDigits 10 (ds.reverse.map fun c => c.toNat - '0'.toNat) = n

variable {ds : List Char} {c : Char}

theorem eq_zero_of_leading_zero (hhead : ds.head? = some '0') (hshort : ¬ 1 < ds.length) :
    ds = ['0'] := by
  obtain ⟨rest, rfl⟩ := List.head?_eq_some_iff.1 hhead
  obtain rfl : rest = [] := by
    rw [List.length_cons] at hshort
    exact List.length_eq_zero_iff.1 (by omega)
  rfl

theorem natOfDigits_eq_ofDigits (ds : List Char) :
    natOfDigits ds = Nat.ofDigits 10 (ds.reverse.map fun c => c.toNat - '0'.toNat) := by
  rw [Nat.ofDigits_eq_foldr, List.foldr_map, List.foldr_reverse, natOfDigits]
  simp only [Nat.cast_id, Nat.add_comm, Nat.mul_comm]

/-! ## Reading digits and writing the number -/

theorem digit_lt_ten (h : c.isDigit = true) : c.toNat - '0'.toNat < 10 := by
  obtain ⟨-, hhigh⟩ := Char.isDigit_iff_toNat.1 h
  change c.toNat ≤ 57 at hhigh
  change c.toNat - 48 < 10
  omega

theorem digitChar_digit (h : c.isDigit = true) : (c.toNat - '0'.toNat).digitChar = c := by
  obtain ⟨hlow, -⟩ := Char.isDigit_iff_toNat.1 h
  apply Char.toNat_inj.1
  rw [Nat.toNat_digitChar_of_lt_ten (digit_lt_ten h)]
  exact Nat.add_sub_cancel' hlow

theorem decimalChars_digit (h : c.isDigit = true) : decimalChars (c.toNat - '0'.toNat) = [c] := by
  rw [decimalChars, Nat.toDigits_of_lt_base (digit_lt_ten h), digitChar_digit h]

/-- Digits after the text of a positive number make the text of the number that is read on. -/
theorem decimalChars_append {n : Nat} (hn : 0 < n) (hdigits : ∀ c ∈ ds, c.isDigit = true) :
    decimalChars n ++ ds = decimalChars (Nat.ofDigitChars 10 ds n) := by
  induction ds generalizing n with
  | nil => rw [List.append_nil, Nat.ofDigitChars_nil]
  | cons c ds ih =>
    have hc := hdigits c List.mem_cons_self
    have hstep : decimalChars n ++ [c] = decimalChars (10 * n + (c.toNat - '0'.toNat)) := by
      rw [← decimalChars_digit hc]
      exact Nat.toDigits_append_toDigits (by decide) hn (digit_lt_ten hc)
    calc decimalChars n ++ c :: ds
        = (decimalChars n ++ [c]) ++ ds := by rw [List.append_assoc, List.singleton_append]
      _ = decimalChars (10 * n + (c.toNat - '0'.toNat)) ++ ds := by rw [hstep]
      _ = decimalChars (Nat.ofDigitChars 10 (c :: ds) n) := by
        rw [Nat.ofDigitChars_cons]
        exact ih (by omega) fun d hd => hdigits d (List.mem_cons_of_mem c hd)

theorem decimalChars_natOfDigits (hne : ds ≠ []) (hdigits : ∀ c ∈ ds, c.isDigit = true)
    (hzero : ds.head? = some '0' → ds = ['0']) : decimalChars (natOfDigits ds) = ds := by
  cases ds with
  | nil => exact absurd rfl hne
  | cons c ds =>
    by_cases hfirst : c = '0'
    · rw [hzero (by rw [hfirst, List.head?_cons])]
      decide
    · have hc := hdigits c List.mem_cons_self
      have hpos : 0 < c.toNat - '0'.toNat := by
        obtain ⟨hlow, -⟩ := Char.isDigit_iff_toNat.1 hc
        have hother : c.toNat ≠ '0'.toNat := fun h => hfirst (Char.toNat_inj.1 h)
        omega
      rw [natOfDigits_eq_ofDigitChars, Nat.ofDigitChars_cons, Nat.mul_zero, Nat.zero_add,
        ← decimalChars_append hpos fun d hd => hdigits d (List.mem_cons_of_mem c hd),
        decimalChars_digit hc, List.singleton_append]

/-! ## One numeral for each number -/

theorem numeral_decimalChars (n : Nat) : Numeral (decimalChars n) n where
  nonempty := Nat.toDigits_ne_nil
  digits _ hc := isDigit_of_mem_decimalChars hc
  no_leading_zero hhead := by
    obtain rfl := eq_zero_of_head?_decimalChars hhead
    rfl
  value := by rw [← natOfDigits_eq_ofDigits, natOfDigits_decimalChars]

theorem numeral_iff {n : Nat} : Numeral ds n ↔ ds = decimalChars n := by
  constructor
  · rintro ⟨hne, hdigits, hzero, rfl⟩
    rw [← natOfDigits_eq_ofDigits, decimalChars_natOfDigits hne hdigits hzero]
  · rintro rfl
    exact numeral_decimalChars n

theorem eq_decimal_iff {key : String} {n : Nat} : key = decimal n ↔ Numeral key.toList n := by
  rw [numeral_iff, ← String.toList_inj, toList_decimal, if_neg (by omega), Int.natAbs_natCast]

end TokenizerHost.Text
