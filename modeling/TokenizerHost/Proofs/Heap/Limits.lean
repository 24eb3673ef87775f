import TokenizerHost.Proofs.Heap.Objects

set_option autoImplicit false

namespace TokenizerHost

theorem Elements.length_set_le {e : Elements} (h : e.length ≤ maxArrayLength) (i : Nat) (x : Value) :
    (e.set i x).length ≤ maxArrayLength := by
  unfold set
  split
  · exact Nat.max_le.2 ⟨h, by omega⟩
  · exact h

theorem Elements.set_past {i : Nat} (hi : maxArrayLength ≤ i) (e : Elements) (x : Value) :
    e.set i x = e := if_neg (Nat.not_lt.2 hi)

theorem Buffer.set_past {bytes : ByteArray} {i : Nat} (hi : bytes.size ≤ i) (x : Value) :
    set bytes i x = bytes := dif_neg (Nat.not_lt.2 hi)

theorem Buffer.size_overwrite (bytes source : ByteArray) :
    (overwrite bytes source).size = bytes.size := by
  simp only [overwrite, ByteArray.size_append, ByteArray.size_extract]
  omega

namespace Heap

variable {h h' : Heap} {α β : Type}

structure WithinLimits (h : Heap) : Prop where
  arrays : ∀ (id : Nat) (e : Elements), h.arrays[id]? = some e → e.length ≤ maxArrayLength
  buffers : ∀ (id : Nat) (bytes : ByteArray), h.buffers[id]? = some bytes →
    bytes.size ≤ maxBytesLength

structure SameContainers (h h' : Heap) : Prop where
  arrays : h'.arrays = h.arrays
  buffers : h'.buffers = h.buffers

def KeepsLimits (f : HeapM α) : Prop := ∀ h : Heap, h.WithinLimits → (f h).2.WithinLimits

namespace WithinLimits

theorem congr (hw : h.WithinLimits) (hsame : h.SameContainers h') : h'.WithinLimits := by
  refine ⟨fun id e he => ?_, fun id bytes hbytes => ?_⟩
  · rw [hsame.arrays] at he
    exact hw.arrays id e he
  · rw [hsame.buffers] at hbytes
    exact hw.buffers id bytes hbytes

theorem pushArray (hw : h.WithinLimits) {e : Elements} (he : e.length ≤ maxArrayLength) :
    { h with arrays := h.arrays.push e }.WithinLimits := by
  refine ⟨fun id e' he' => ?_, hw.buffers⟩
  rw [Array.getElem?_push] at he'
  split at he'
  · exact Option.some.inj he' ▸ he
  · exact hw.arrays id e' he'

theorem pushBuffer (hw : h.WithinLimits) {bytes : ByteArray} (hbytes : bytes.size ≤ maxBytesLength) :
    { h with buffers := h.buffers.push bytes }.WithinLimits := by
  refine ⟨hw.arrays, fun id bytes' hbytes' => ?_⟩
  rw [Array.getElem?_push] at hbytes'
  split at hbytes'
  · exact Option.some.inj hbytes' ▸ hbytes
  · exact hw.buffers id bytes' hbytes'

theorem modifyArray (hw : h.WithinLimits) {f : Elements → Elements}
    (hf : ∀ e : Elements, e.length ≤ maxArrayLength → (f e).length ≤ maxArrayLength) (id : Nat) :
    { h with arrays := h.arrays.modify id f }.WithinLimits := by
  refine ⟨fun id' e he => ?_, hw.buffers⟩
  rw [Array.getElem?_modify] at he
  split at he
  · obtain ⟨e', he', rfl⟩ := Option.map_eq_some_iff.1 he
    exact hf e' (hw.arrays id' e' he')
  · exact hw.arrays id' e he

theorem modifyBuffer (hw : h.WithinLimits) {f : ByteArray → ByteArray}
    (hf : ∀ bytes : ByteArray, (f bytes).size = bytes.size) (id : Nat) :
    { h with buffers := h.buffers.modify id f }.WithinLimits := by
  refine ⟨hw.arrays, fun id' bytes hbytes => ?_⟩
  rw [Array.getElem?_modify] at hbytes
  split at hbytes
  · obtain ⟨bytes', hbytes', rfl⟩ := Option.map_eq_some_iff.1 hbytes
    rw [hf]
    exact hw.buffers id' bytes' hbytes'
  · exact hw.buffers id' bytes hbytes

/-! ## Writing -/

theorem setElement (hw : h.WithinLimits) (v : Value) (i : Nat) (x : Value) :
    (h.setElement v i x).WithinLimits := by
  unfold Heap.setElement
  split
  · exact hw.modifyArray (fun _ he => Elements.length_set_le he i x) _
  · exact hw.modifyBuffer (fun bytes => Buffer.size_set bytes i x) _
  · exact hw

theorem set (hw : h.WithinLimits) (v : Value) (key : String) (x : Value) :
    (h.set v key x).WithinLimits := by
  unfold Heap.set
  split
  · exact hw.congr ⟨rfl, rfl⟩
  · exact hw.congr ⟨rfl, rfl⟩
  · split
    · exact hw.setElement _ _ x
    · exact hw
  · split
    · exact hw.setElement _ _ x
    · exact hw
  · exact hw

theorem delete (hw : h.WithinLimits) (v : Value) (key : String) :
    (h.delete v key).WithinLimits := by
  unfold Heap.delete
  split
  · exact hw.congr ⟨rfl, rfl⟩
  · exact hw.congr ⟨rfl, rfl⟩
  · split
    next i _ => exact hw.modifyArray (f := (·.clear i)) (fun _ he => he) _
    next => exact hw
  · exact hw

theorem setIndex (hw : h.WithinLimits) (v : Value) (i : Int) (x : Value) :
    (h.setIndex v i x).WithinLimits := by
  unfold Heap.setIndex
  split
  · exact hw.set _ _ x
  · exact hw.set _ _ x
  · split
    · exact hw
    · exact hw.setElement v _ x

theorem overwrite (hw : h.WithinLimits) (v : Value) (source : ByteArray) :
    (h.setBytes v (Buffer.overwrite ((h.bytes? v).getD .empty) source)).WithinLimits := by
  unfold setBytes
  split
  next id =>
    refine ⟨hw.arrays, fun id' bytes hbytes => ?_⟩
    rw [Array.getElem?_setIfInBounds] at hbytes
    split at hbytes
    next heq =>
      subst heq
      split at hbytes
      next hlt =>
        have hfound : h.bytes? (.bytes id) = some h.buffers[id] := Array.getElem?_eq_getElem hlt
        rw [← Option.some.inj hbytes, Buffer.size_overwrite, hfound]
        exact hw.buffers id _ hfound
      next => cases hbytes
    next => exact hw.buffers id' bytes hbytes
  next => exact hw

end WithinLimits

/-- A property that is no element is written beside the containers. -/
theorem sameContainers_set {key : String} (hkey : indexKey? key = none) (h : Heap) (v x : Value) :
    h.SameContainers (h.set v key x) := by
  unfold set
  split
  · exact ⟨rfl, rfl⟩
  · exact ⟨rfl, rfl⟩
  · rw [hkey]
    exact ⟨rfl, rfl⟩
  · rw [hkey]
    exact ⟨rfl, rfl⟩
  · exact ⟨rfl, rfl⟩

/-! ## Making -/

theorem keepsLimits_pure (a : α) : KeepsLimits (pure a : HeapM α) := fun _ hw => hw

theorem KeepsLimits.bind {f : HeapM α} {g : α → HeapM β} (hf : KeepsLimits f)
    (hg : ∀ a, KeepsLimits (g a)) : KeepsLimits (f >>= g) := fun h hw => hg _ _ (hf h hw)

theorem keepsLimits_put (v : Value) (key : String) (x : Value) : KeepsLimits (put v key x) :=
  fun _ hw => hw.set v key x

theorem keepsLimits_newObject (cls : Class) : KeepsLimits (newObject cls) :=
  fun _ hw => hw.congr ⟨rfl, rfl⟩

theorem keepsLimits_newFunction (name : String) (kind : FunctionKind) :
    KeepsLimits (newFunction name kind) := fun _ hw => hw.congr ⟨rfl, rfl⟩

theorem sameContainers_newObjectWith (cls : Class) (props : List (String × Value)) (h : Heap) :
    h.SameContainers (newObjectWith cls props h).2 := by
  rw [newObjectWith_eq]
  exact ⟨rfl, rfl⟩

theorem keepsLimits_newObjectWith (cls : Class) (props : List (String × Value)) :
    KeepsLimits (newObjectWith cls props) :=
  fun h hw => hw.congr (sameContainers_newObjectWith cls props h)

theorem keepsLimits_newElements {e : Elements} (he : e.length ≤ maxArrayLength) :
    KeepsLimits (newElements e) := fun _ hw => hw.pushArray he

theorem keepsLimits_newArray {items : List Value} (hitems : items.length ≤ maxArrayLength) :
    KeepsLimits (newArray items) := keepsLimits_newElements hitems

theorem keepsLimits_newBytes {bytes : ByteArray} (hbytes : bytes.size ≤ maxBytesLength) :
    KeepsLimits (newBytes bytes) := fun _ hw => hw.pushBuffer hbytes

theorem keepsLimits_throwRange (kind : String) : KeepsLimits (throwRange kind) :=
  (keepsLimits_newObjectWith _ _).bind fun _ => keepsLimits_pure _

theorem requestedLength?_le {n : Double} {limit length : Nat}
    (h : requestedLength? n limit = some length) : length ≤ limit := by
  unfold requestedLength? at h
  split at h
  · split at h
    next hle =>
      cases h
      exact hle.2
    next => cases h
  · cases h

/-- A length that is no natural number within the limit is not granted. -/
theorem requestedLength?_eq_none {n : Double} {limit : Nat}
    (h : ∀ k : Nat, k ≤ limit → n.toInt? ≠ some (k : Int)) : requestedLength? n limit = none := by
  unfold requestedLength?
  split
  next i hi =>
    refine if_neg fun ⟨hnonneg, hle⟩ => h i.toNat hle ?_
    rw [hi, Int.toNat_of_nonneg hnonneg]
  next => rfl

theorem keepsLimits_constructArray {args : List Value} (hargs : args.length ≤ maxArrayLength) :
    KeepsLimits (constructArray args) := by
  unfold constructArray
  split
  · split
    · exact (keepsLimits_newElements (Nat.min_le_right _ _)).bind fun _ => keepsLimits_pure _
    · exact keepsLimits_throwRange _
  · exact (keepsLimits_newArray hargs).bind fun _ => keepsLimits_pure _

theorem size_bytesOfElements (e : Elements) : (bytesOfElements e).size = e.length := by
  have hfold : ∀ (items : List Value) (bytes : ByteArray),
      (items.foldl (fun bytes v => bytes.push (Buffer.byteOf v)) bytes).size =
        bytes.size + items.length := by
    intro items
    induction items with
    | nil => exact fun _ => rfl
    | cons x rest ih =>
      intro bytes
      rw [List.foldl_cons, ih, ByteArray.size_push, List.length_cons, Nat.add_assoc,
        Nat.add_comm 1]
  rw [bytesOfElements, hfold, Elements.length_toList]
  exact Nat.zero_add _

/-- A copy is as long as what it is made of, and an array that is within its limit is within that of
byte arrays. -/
theorem keepsLimits_constructBytes (source : Value) : KeepsLimits (constructBytes source) := by
  intro h hw
  have hempty : ByteArray.empty.size ≤ maxBytesLength := Nat.zero_le _
  have hmax : maxArrayLength ≤ maxBytesLength := by decide
  have hmade : ∀ {bytes : ByteArray}, bytes.size ≤ maxBytesLength →
      (newBytes bytes h).2.WithinLimits := fun hbytes => keepsLimits_newBytes hbytes h hw
  unfold constructBytes
  split
  next n =>
    cases hlength : requestedLength? n maxBytesLength with
    | some length => exact hmade ((Buffer.size_zeros length).symm ▸ requestedLength?_le hlength)
    | none => exact keepsLimits_throwRange _ h hw
  next id =>
    refine hmade ?_
    cases hfound : h.bytes? (.bytes id) with
    | none => exact hempty
    | some bytes => exact hw.buffers id bytes hfound
  next id =>
    refine hmade ?_
    cases hfound : h.elements? (.array id) with
    | none => exact hempty
    | some e =>
      have hlength := hw.arrays id e hfound
      rw [Option.elim_some, size_bytesOfElements]
      exact Nat.le_trans hlength hmax
  next => exact hmade hempty

theorem keepsLimits_constructDate (millis : Double) : KeepsLimits (constructDate millis) :=
  (keepsLimits_newObject .date).bind fun _ => (keepsLimits_newFunction _ _).bind fun _ =>
    (keepsLimits_put _ _ _).bind fun _ => (keepsLimits_newFunction _ _).bind fun _ =>
      (keepsLimits_put _ _ _).bind fun _ => keepsLimits_pure _

theorem keepsLimits_constructObject (first : Value) : KeepsLimits (constructObject first) := by
  unfold constructObject
  split
  · exact keepsLimits_pure _
  · exact (keepsLimits_newObject _).bind fun _ => keepsLimits_pure _

/-! ## Refusing -/

def capacity? (h : Heap) : Value → Option Nat
  | .array _ => some maxArrayLength
  | .bytes id => (h.buffers[id]?).map (·.size)
  | _ => none

/-- A constructor throws back a length beyond the limit and makes no container, and a write past the
capacity of one does nothing. -/
structure Refuses (h : Heap) : Prop where
  array : ∀ n : Double, (∀ k : Nat, k ≤ maxArrayLength → n.toInt? ≠ some (k : Int)) →
    ∃ e h', constructArray [.number n] h = (.thrown e, h') ∧
      h'.get e "name" = .string "RangeError" ∧ h.SameContainers h'
  bytes : ∀ n : Double, (∀ k : Nat, k ≤ maxBytesLength → n.toInt? ≠ some (k : Int)) →
    ∃ e h', constructBytes (.number n) h = (.thrown e, h') ∧
      h'.get e "name" = .string "RangeError" ∧ h.SameContainers h'
  index : ∀ v n (i : Int) x, h.capacity? v = some n → (n : Int) ≤ i → h.setIndex v i x = h
  key : ∀ v n key i x, h.capacity? v = some n → indexKey? key = some i → n ≤ i → h.set v key x = h

theorem throwRange_spec (kind : String) (h : Heap) : ∃ e h', throwRange kind h = (.thrown e, h') ∧
    h'.get e "name" = .string "RangeError" ∧ h.SameContainers h' := by
  let props := [("name", Value.string "RangeError"),
    ("message", Value.string s!"Invalid {kind} length")]
  refine ⟨_, _, rfl, ?_, sameContainers_newObjectWith .error props h⟩
  exact get_newObjectWith .error props h "name"

theorem modify_eq_self {α : Type} {xs : Array α} {id : Nat} {f : α → α}
    (hf : ∀ x, xs[id]? = some x → f x = x) : xs.modify id f = xs := by
  refine Array.ext_getElem? fun j => ?_
  rw [Array.getElem?_modify]
  split
  next hj =>
    subst hj
    cases hx : xs[id]? with
    | none => rfl
    | some x => rw [Option.map_some, hf x hx]
  next => rfl

theorem setElement_past {v : Value} {n i : Nat} (hn : h.capacity? v = some n) (hi : n ≤ i)
    (x : Value) : h.setElement v i x = h := by
  cases v with
  | array id =>
    cases hn
    have hsame : h.arrays.modify id (·.set i x) = h.arrays :=
      modify_eq_self fun e _ => Elements.set_past hi e x
    simp only [setElement, hsame]
  | bytes id =>
    obtain ⟨bytes, hbytes, rfl⟩ := Option.map_eq_some_iff.1 hn
    have hsame : h.buffers.modify id (Buffer.set · i x) = h.buffers := by
      refine modify_eq_self fun bytes' hbytes' => ?_
      cases hbytes.symm.trans hbytes'
      exact Buffer.set_past hi x
    simp only [setElement, hsame]
  | _ => cases hn

theorem refuses (h : Heap) : h.Refuses where
  array n hn := by
    have hnone : constructArray [.number n] h = throwRange "array" h := by
      simp only [constructArray, requestedLength?_eq_none hn]
    rw [hnone]
    exact throwRange_spec _ h
  bytes n hn := by
    have hnone : constructBytes (.number n) h = throwRange "typed array" h := by
      simp only [constructBytes, requestedLength?_eq_none hn]
    rw [hnone]
    exact throwRange_spec _ h
  index v n i x hn hi := by
    have hpast := setElement_past hn (Int.le_toNat (by omega) |>.2 hi) x
    cases v with
    | array id | bytes id =>
      simp only [setIndex]
      rw [if_neg (by omega)]
      exact hpast
    | _ => cases hn
  key v n key i x hn hkey hi := by
    have hpast := setElement_past hn hi x
    cases v with
    | array id | bytes id =>
      simp only [set, hkey]
      exact hpast
    | _ => cases hn

end Heap

end TokenizerHost
