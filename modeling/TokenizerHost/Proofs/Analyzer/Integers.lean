import TokenizerHost.Proofs.Analyzer.Tokens
import TokenizerHost.Proofs.Double.Value

set_option autoImplicit false

namespace TokenizerHost

namespace Heap

variable {h : Heap} {v : Value} {key : String}

def HasInteger (h : Heap) (v : Value) (key : String) (n : ℤ) : Prop :=
  ∃ x : Double, h.get v key = .number x ∧ x.isFinite = true ∧ x.value = n

theorem hasInteger_iff (n : ℤ) :
    h.HasInteger v key n ↔ (h.get v key).number?.bind Double.toInt? = some n := by
  unfold HasInteger
  cases h.get v key with
  | number x => simp [Value.number?, Double.toInt?_eq_some_iff]
  | _ => simp [Value.number?]

theorem HasInteger.unique {m n : ℤ} (hm : h.HasInteger v key m) (hn : h.HasInteger v key n) :
    m = n :=
  Option.some.inj (((hasInteger_iff m).1 hm).symm.trans ((hasInteger_iff n).1 hn))

end Heap

namespace Token

variable {h : Heap} {v : Value} {key : String}

theorem intField_eq_some_iff (k : ℤ) : intField h v key = some k ↔
    ∃ n, h.HasInteger v key n ∧ max (-2 ^ 63) (min (2 ^ 63 - 1) n) = k := by
  simp only [Heap.hasInteger_iff]
  exact Option.map_eq_some_iff

theorem isSome_intField_iff :
    (intField h v key).isSome = true ↔ ∃ n, h.HasInteger v key n := by
  simp only [Option.isSome_iff_exists, intField_eq_some_iff]
  constructor
  · rintro ⟨_, n, hn, -⟩
    exact ⟨n, hn⟩
  · rintro ⟨n, hn⟩
    exact ⟨_, n, hn, rfl⟩

structure ReadsInteger (h : Heap) (v : Value) (key : String) (field : Option ℤ) : Prop where
  isSome_iff : field.isSome = true ↔ ∃ n, h.HasInteger v key n
  within : ∀ n, h.HasInteger v key n → -2 ^ 63 ≤ n → n < 2 ^ 63 → field = some n
  above : ∀ n, h.HasInteger v key n → 2 ^ 63 ≤ n → field = some (2 ^ 63 - 1)
  below : ∀ n, h.HasInteger v key n → n < -2 ^ 63 → field = some (-2 ^ 63)
  /-- What is read is the value of the property unless that takes more than 64 bits. -/
  exact_iff : (∀ k, field = some k → h.HasInteger v key k) ↔
    ∀ n, h.HasInteger v key n → -2 ^ 63 ≤ n ∧ n < 2 ^ 63

theorem readsInteger (h : Heap) (v : Value) (key : String) :
    ReadsInteger h v key (intField h v key) where
  isSome_iff := isSome_intField_iff
  within n hn hlow hhigh := (intField_eq_some_iff n).2 ⟨n, hn, by omega⟩
  above n hn hhigh := (intField_eq_some_iff _).2 ⟨n, hn, by omega⟩
  below n hn hlow := (intField_eq_some_iff _).2 ⟨n, hn, by omega⟩
  exact_iff := by
    constructor
    · intro hexact n hn
      have hread := hexact _ ((intField_eq_some_iff _).2 ⟨n, hn, rfl⟩)
      have hsame := hread.unique hn
      omega
    · intro hfits k hk
      obtain ⟨n, hn, rfl⟩ := (intField_eq_some_iff k).1 hk
      have hn' := hfits n hn
      rwa [show max (-2 ^ 63) (min (2 ^ 63 - 1) n) = n by omega]

/-- Identifier and position of a token are the integers that its object has for them, and absent
where it has none; but an integer that takes more than 64 bits is read as another one. No token is
read from an object of which a text has no end. -/
theorem integers_are_exact_unless_large (h : Heap) (id : Nat) :
    (Readable h (.object id) ∧ ∃ t, ofHost? h (.object id) = .ok (some t) ∧
      ReadsInteger h (.object id) "word_id" t.wordId ∧
        ReadsInteger h (.object id) "word_position" t.wordPosition) ∨
    (¬ Readable h (.object id) ∧ ofHost? h (.object id) = .error .stackExhausted) := by
  refine (readsIf_ofHost? h id).imp_left fun ⟨hreadable, hread⟩ => ⟨hreadable, _, hread, ?_, ?_⟩
  · exact readsInteger h (.object id) "word_id"
  · exact readsInteger h (.object id) "word_position"

def largeIdHeap : Heap :=
  { Heap.empty with objects := #[⟨.object, .ofList
    [("surface_form", .string "猫"), ("word_id", .number ⟨0x43E0000000000000⟩)]⟩] }

/-- The least identifier that is too large is read as one less. -/
theorem large_id_is_moved : largeIdHeap.HasInteger (.object 0) "word_id" (2 ^ 63) ∧
    ∃ t, ofHost? largeIdHeap (.object 0) = .ok (some t) ∧ t.wordId = some (2 ^ 63 - 1) ∧
      ¬ largeIdHeap.HasInteger (.object 0) "word_id" (2 ^ 63 - 1) := by
  have hlarge : largeIdHeap.HasInteger (.object 0) "word_id" (2 ^ 63) :=
    (Heap.hasInteger_iff _).2 (by decide)
  refine ⟨hlarge, _, rfl, (readsInteger _ _ _).above _ hlarge (le_refl _), fun hread => ?_⟩
  exact absurd (hread.unique hlarge) (by decide)

end Token

end TokenizerHost
