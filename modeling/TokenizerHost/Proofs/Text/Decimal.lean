import TokenizerHost.Text.Digits

set_option autoImplicit false

namespace TokenizerHost.Text

theorem natOfDigits_eq_ofDigitChars (ds : List Char) :
    natOfDigits ds = Nat.ofDigitChars 10 ds 0 := by
  simp only [natOfDigits, Nat.ofDigitChars_eq_foldl, Nat.mul_comm]

theorem natOfDigits_decimalChars (n : Nat) : natOfDigits (decimalChars n) = n := by
  rw [natOfDigits_eq_ofDigitChars, decimalChars, Nat.ofDigitChars_ten_toDigits]

theorem isDigit_of_mem_decimalChars {n : Nat} {c : Char} (h : c ∈ decimalChars n) :
    c.isDigit = true := Nat.isDigit_of_mem_toDigits (by decide) (by decide) h

/-- Only zero begins with a zero. -/
theorem eq_zero_of_head?_decimalChars {n : Nat} (h : (decimalChars n).head? = some '0') :
    n = 0 := by
  induction n using Nat.strongRecOn with
  | ind n ih =>
    by_cases hn : n < 10
    · rw [decimalChars, Nat.toDigits_of_lt_base hn] at h
      have hchar := congrArg Char.toNat (Option.some.inj h)
      rw [Nat.toNat_digitChar_of_lt_ten hn] at hchar
      change 48 + n = 48 at hchar
      omega
    · have hsplit : decimalChars n = decimalChars (n / 10) ++ [(n % 10).digitChar] :=
        Nat.toDigits_of_base_le (by decide) (by omega)
      have hfirst : decimalChars (n / 10) ≠ [] := Nat.toDigits_ne_nil
      rw [hsplit, List.head?_append, Option.or_of_isSome (List.isSome_head?.2 hfirst)] at h
      have hquotient := ih (n / 10) (by omega) h
      omega

theorem toList_decimal (i : Int) : (decimal i).toList =
    if i < 0 then '-' :: decimalChars i.natAbs else decimalChars i.natAbs := by
  simp only [decimal, String.toList_ofList]

/-- A text with any character but digits and signs is not the text of an integer. -/
theorem decimal_ne {key : String} {c : Char} (hc : c ∈ key.toList) (hsign : c ≠ '-')
    (hdigit : c.isDigit = false) (i : Int) : decimal i ≠ key := by
  rintro rfl
  have hnot : c ∉ decimalChars i.natAbs := fun hmem =>
    Bool.false_ne_true (hdigit.symm.trans (isDigit_of_mem_decimalChars hmem))
  rw [toList_decimal] at hc
  split at hc
  · rcases List.mem_cons.1 hc with rfl | hmem
    · exact hsign rfl
    · exact hnot hmem
  · exact hnot hc

theorem decimal_ne_length (i : Int) : decimal i ≠ "length" :=
  decimal_ne (c := 'l') (by decide) (by decide) (by decide) i

end TokenizerHost.Text
