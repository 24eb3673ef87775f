import Mathlib.Algebra.Ring.Int.Defs
import Mathlib.Algebra.Ring.Nat
import TokenizerHost.Arguments

set_option autoImplicit false

namespace TokenizerHost

/-! ## One step after another -/

section Bind

variable {ε s α β : Type} {step : EStateM ε s α} {f : α → EStateM ε s β} {w u : s}

theorem bind_ok {a : α} (h : step w = .ok a u) : (step >>= f) w = f a u := by
  change EStateM.bind step f w = f a u
  simp only [EStateM.bind, h]

theorem bind_error {e : ε} (h : step w = .error e u) : (step >>= f) w = .error e u := by
  change EStateM.bind step f w = .error e u
  simp only [EStateM.bind, h]

theorem exists_of_bind_ok {b : β} (h : (step >>= f) w = .ok b u) :
    ∃ a v, step w = .ok a v ∧ f a v = .ok b u := by
  change EStateM.bind step f w = .ok b u at h
  unfold EStateM.bind at h
  split at h
  next a v hstep => exact ⟨a, v, hstep, h⟩
  next => cases h

end Bind

/-! ## Writing -/

namespace Memory

variable {m : Memory}

theorem size_zeros {length : Nat} (h : length ≤ maxAddress) : (zeros length).size = length := by
  rw [size_eq_mod, zeros, Buffer.size_zeros]
  exact Nat.mod_eq_of_lt (Nat.lt_of_le_pred (by decide) h)

theorem size_overlay {address : Nat} {data : ByteArray} (h : address + data.size ≤ m.size) :
    (m.overlay address data).size = m.size := by
  have hdata : data.size = data.data.size := rfl
  have hm : m.bytes.size = m.bytes.data.size := rfl
  have hle := m.size_le_bytes
  have hbytes : (m.overlay address data).bytes.size = (m.bytes.data.extract 0 address ++
      data.data.extract 0 (0 + data.size) ++ m.bytes.data.extract
        (address + min data.size (data.data.size - 0)) m.bytes.data.size).size := rfl
  simp only [Array.size_append, Array.size_extract] at hbytes
  rw [size_eq_mod, size_eq_mod, show (m.overlay address data).bytes.size = m.bytes.size by omega]

def Fits {α : Type} (step : MemoryM α) (m : Memory) (a : α) : Prop :=
  ∃ m', step m = .ok a m' ∧ m'.size = m.size

theorem Fits.bind {α β : Type} {step : MemoryM α} {f : α → MemoryM β} {a : α} {b : β}
    (h : Fits step m a) (hf : ∀ m', m'.size = m.size → Fits (f a) m' b) :
    Fits (step >>= f) m b := by
  obtain ⟨m₁, h₁, hsize₁⟩ := h
  obtain ⟨m₂, h₂, hsize₂⟩ := hf m₁ hsize₁
  exact ⟨m₂, (bind_ok h₁).trans h₂, hsize₂.trans hsize₁⟩

theorem Fits.pure {α : Type} (a : α) (m : Memory) : Fits (Pure.pure a) m a := ⟨m, rfl, rfl⟩

theorem fits_write {address : Nat} {data : ByteArray} (h : address + data.size ≤ m.size) :
    Fits (write address data) m () := by
  refine ⟨m.overlay address data, ?_, size_overlay h⟩
  simp only [write, inBounds_eq, decide_eq_true h, if_true]

theorem fits_setWord {address width n : Nat} (h : address + width ≤ m.size) :
    Fits (setWord address width n) m () := by
  have hsize : (littleEndian width n).toByteArray.size = width := by
    rw [List.size_toByteArray, length_littleEndian]
  exact fits_write (by rwa [hsize])

theorem fits_setI64 {address : Nat} {n : Int} (h : address + 8 ≤ m.size) :
    Fits (setI64 address n) m () := by
  have hhigh : addressAfter address 4 ≤ address + 4 := Nat.min_le_left _ _
  exact (fits_setWord (by omega)).bind fun m₁ h₁ => fits_setWord (by omega)

theorem length_lt_paddedSize (n : Nat) : n < paddedSize n := by
  unfold paddedSize
  omega

/-- How far strings reach when they are written one after the other. -/
def paddedTotal (strings : List String) : Nat := (strings.map (paddedSize ·.utf8ByteSize)).sum

def addresses : List String → (offset : Nat) → List Nat
  | [], _ => []
  | s :: rest, offset => offset :: addresses rest (offset + paddedSize s.utf8ByteSize)

theorem length_addresses (strings : List String) (offset : Nat) :
    (addresses strings offset).length = strings.length := by
  induction strings generalizing offset with
  | nil => rfl
  | cons s rest ih => exact congrArg (· + 1) (ih _)

theorem fits_writeStrings (strings : List String) {offset : Nat}
    (h : offset + paddedTotal strings ≤ m.size) :
    Fits (writeStrings strings offset) m
      (addresses strings offset, offset + paddedTotal strings) := by
  induction strings generalizing offset m with
  | nil => exact .pure _ m
  | cons s rest ih =>
    have htotal : paddedTotal (s :: rest) = paddedSize s.utf8ByteSize + paddedTotal rest := by
      simp only [paddedTotal, List.map_cons, List.sum_cons]
    have hpad := length_lt_paddedSize s.utf8ByteSize
    have hbytes : s.toUTF8.size = s.utf8ByteSize := rfl
    rw [htotal] at h ⊢
    have hstring : Fits (write offset s.toUTF8) m () := fits_write (by omega)
    refine hstring.bind fun m₁ h₁ => ?_
    have hzero : Fits (setU8 (offset + s.utf8ByteSize) 0) m₁ () := fits_setWord (by omega)
    refine hzero.bind fun m₂ h₂ => ?_
    have hrest := @ih m₂ (offset + paddedSize s.utf8ByteSize) (by omega)
    rw [Nat.add_assoc] at hrest
    exact hrest.bind fun m₃ _ => .pure _ m₃

theorem fits_writePointers (pointers : List Nat) {offset : Nat}
    (h : offset + pointers.length * 8 ≤ m.size) : Fits (writePointers pointers offset) m () := by
  induction pointers generalizing offset m with
  | nil => exact .pure _ m
  | cons pointer rest ih =>
    rw [List.length_cons] at h
    have hlow : Fits (setU32 offset (UInt32.ofNat pointer)) m () := fits_setWord (by omega)
    refine hlow.bind fun m₁ h₁ => ?_
    have hhigh : Fits (setU32 (offset + 4) 0) m₁ () := fits_setWord (by omega)
    refine hhigh.bind fun m₂ h₂ => ?_
    exact ih (by omega)

theorem argumentsSize_eq (argv : List String) (env : Environment) :
    argumentsSize argv env = paddedTotal argv + paddedTotal env.strings +
      (argv.length + env.strings.length + 2) * 8 := by
  have hfold : ∀ (strings : List String) (n : Nat),
      strings.foldl (fun n s => n + paddedSize s.utf8ByteSize) n = n + paddedTotal strings := by
    intro strings
    induction strings with
    | nil => exact fun n => rfl
    | cons s rest ih =>
      intro n
      simp only [List.foldl_cons, ih, paddedTotal, List.map_cons, List.sum_cons, Nat.add_assoc]
  rw [argumentsSize, hfold, Nat.zero_add]
  simp only [paddedTotal, List.map_append, List.sum_append]

/-- What the entry point is told of arguments that fit. -/
def tableOf (argv : List String) (env : Environment) : ArgumentTable where
  argc := Int32.ofInt (min (argv.length : Int) Int32.maxValue.toInt)
  argv := Int32.ofNat (argumentsBase + paddedTotal argv + paddedTotal env.strings)

theorem fits_writeArguments {argv : List String} {env : Environment}
    (hsize : argumentsSize argv env < dataBase - argumentsBase) (hm : dataBase ≤ m.size) :
    Fits (writeArguments argv env) m (tableOf argv env) := by
  have htotal := argumentsSize_eq argv env
  have hspace : dataBase - argumentsBase = 8192 ∧ argumentsBase + 8192 = dataBase := ⟨rfl, rfl⟩
  unfold writeArguments
  rw [if_neg (Nat.not_le.2 hsize)]
  have hargv : Fits (writeStrings argv argumentsBase) m _ := fits_writeStrings argv (by omega)
  refine hargv.bind fun m₁ h₁ => ?_
  have henv : Fits (writeStrings env.strings (argumentsBase + paddedTotal argv)) m₁ _ :=
    fits_writeStrings env.strings (by omega)
  refine henv.bind fun m₂ h₂ => ?_
  refine Fits.bind (fits_writePointers _ ?_) fun m₃ _ => .pure _ m₃
  simp only [List.length_append, length_addresses, List.length_singleton]
  omega

end Memory

end TokenizerHost
