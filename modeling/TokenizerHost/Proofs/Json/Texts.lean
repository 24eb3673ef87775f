import TokenizerHost.Json.Reader

set_option autoImplicit false

namespace TokenizerHost.Json

variable {c : Char} {cs rest : List Char}

/-- A character is written by a letter of its own, by its number, or as it is. -/
theorem escapeChar_cases (c : Char) :
    (∃ k, escapeChar c = ['\\', k] ∧ shortEscape? k = some c) ∨
    (c.toNat < 0x20 ∧
      escapeChar c = ['\\', 'u', '0', '0', hexDigit (c.toNat / 16), hexDigit c.toNat]) ∨
    (escapeChar c = [c] ∧ c ≠ '"' ∧ c ≠ '\\' ∧ 0x20 ≤ c.toNat) := by
  unfold escapeChar
  repeat' split
  next h => exact .inl ⟨'"', rfl, by rw [h]; rfl⟩
  next h => exact .inl ⟨'\\', rfl, by rw [h]; rfl⟩
  next h => exact .inl ⟨'b', rfl, by rw [h]; rfl⟩
  next h => exact .inl ⟨'t', rfl, by rw [h]; rfl⟩
  next h => exact .inl ⟨'n', rfl, by rw [h]; rfl⟩
  next h => exact .inl ⟨'f', rfl, by rw [h]; rfl⟩
  next h => exact .inl ⟨'r', rfl, by rw [h]; rfl⟩
  next h => exact .inr (.inl ⟨h, rfl⟩)
  next hquote hback _ _ _ _ _ h => exact .inr (.inr ⟨rfl, hquote, hback, by omega⟩)

theorem unit?_control : ∀ n < 0x20, unit? '0' '0' (hexDigit (n / 16)) (hexDigit n) = some n := by
  decide

/-! ## Reading one character -/

theorem readText_quote (rest : List Char) : readText ('"' :: rest) = some ⟨some [], rest⟩ := by
  rw [readText]

theorem readText_short {k : Char} (h : shortEscape? k = some c) (cs : List Char) :
    readText ('\\' :: k :: cs) = (readText cs).map (·.cons c) := by
  have hletter : k ≠ 'u' := by
    rintro rfl
    cases h
  rw [readText]
  · rw [h]
  all_goals simp_all

theorem readText_plain (hquote : c ≠ '"') (hback : c ≠ '\\') (hcontrol : 0x20 ≤ c.toNat)
    (cs : List Char) : readText (c :: cs) = (readText cs).map (·.cons c) := by
  rw [readText]
  · rw [if_neg (by omega)]
  all_goals simp_all

/-- A character by its number. If another number follows at once, both are looked at together. -/
theorem readText_unit (cs : List Char) {n : Nat} {a b d e : Char}
    (hunit : unit? a b d e = some n) (hn : n < 0xD800) (hnext : ∀ a b d e rest,
      cs = '\\' :: 'u' :: a :: b :: d :: e :: rest → (unit? a b d e).isSome = true) :
    readText ('\\' :: 'u' :: a :: b :: d :: e :: cs) =
      (readText cs).map (·.cons (Char.ofNat n)) := by
  have hleading : isLeadingHalf n = false := by simp [isLeadingHalf]; omega
  have htrailing : isTrailingHalf n = false := by simp [isTrailingHalf]; omega
  -- The reader looks at the next number too, in case the two are halves of one character.
  by_cases hpair : ∃ a b d e rest, cs = '\\' :: 'u' :: a :: b :: d :: e :: rest
  · obtain ⟨a', b', d', e', rest, rfl⟩ := hpair
    obtain ⟨n', hunit'⟩ := Option.isSome_iff_exists.1 (hnext a' b' d' e' rest rfl)
    rw [readText]
    simp [hunit, hunit', hleading, htrailing]
  · rw [readText]
    · simp [hunit, hleading, htrailing]
    · intro a' b' d' e' rest hcs
      exact hpair ⟨a', b', d', e', rest, hcs⟩

/-! ## Reading a whole text -/

theorem isSome_unit?_of_escaped {s : List Char} {a b d e : Char} {rest' : List Char}
    (h : s.flatMap escapeChar ++ '"' :: rest = '\\' :: 'u' :: a :: b :: d :: e :: rest') :
    (unit? a b d e).isSome = true := by
  cases s with
  | nil => simp at h
  | cons c s =>
    rw [List.flatMap_cons] at h
    rcases escapeChar_cases c with ⟨k, hescape, hk⟩ | ⟨hcontrol, hescape⟩ | ⟨hescape, -, hback, -⟩
    · rw [hescape] at h
      have hletter : k = 'u' := by simp at h; exact h.1
      rw [hletter] at hk
      cases hk
    · rw [hescape] at h
      simp only [List.cons_append, List.nil_append, List.cons.injEq, true_and] at h
      obtain ⟨rfl, rfl, rfl, rfl, -⟩ := h
      rw [unit?_control _ hcontrol]
      rfl
    · rw [hescape] at h
      simp at h
      exact absurd h.1 hback

theorem readText_escapeChar (c : Char) (s rest : List Char) :
    readText (escapeChar c ++ (s.flatMap escapeChar ++ '"' :: rest)) =
      (readText (s.flatMap escapeChar ++ '"' :: rest)).map (·.cons c) := by
  rcases escapeChar_cases c with ⟨k, hescape, hk⟩ | ⟨hcontrol, hescape⟩ | ⟨hescape, hquote, hback, hc⟩
  · rw [hescape]
    exact readText_short hk _
  · rw [hescape]
    have hread := readText_unit (s.flatMap escapeChar ++ '"' :: rest)
      (unit?_control _ hcontrol) (by omega) fun _ _ _ _ _ => isSome_unit?_of_escaped
    rwa [Char.ofNat_toNat] at hread
  · rw [hescape]
    exact readText_plain hquote hback hc _

theorem readText_escaped (s rest : List Char) :
    readText (s.flatMap escapeChar ++ '"' :: rest) = some ⟨some s, rest⟩ := by
  induction s with
  | nil => exact readText_quote rest
  | cons c s ih =>
    rw [List.flatMap_cons, List.append_assoc, readText_escapeChar, ih]
    rfl

end TokenizerHost.Json
