import Mathlib.Algebra.Group.Nat.Defs
import Mathlib.Order.Nat
import Mathlib.Tactic.SplitIfs
import TokenizerHost.ValueTable

set_option autoImplicit false

namespace TokenizerHost

namespace Slot

def handle? : Slot → Option UInt32
  | .ref id _ => some id
  | _ => none

end Slot

namespace Value

/-- A value as a handle keeps it: one NaN stands for all, and one zero for both. -/
def canonical : Value → Value
  | .number n =>
    if n.isNaN then .number .canonicalNaN else if n.isZero then .number .zero else .number n
  | v => v

theorem canonical_of_identity {v : Value} {k : Identity} (h : v.identity? = some k) :
    v.canonical = v := by
  cases v <;> simp_all [identity?, canonical]

end Value

namespace ValueTable

variable {t : ValueTable} {id j : UInt32} {v : Value} {k : Identity}

theorem load_eq_ok_iff : t.load id = .ok v ↔ (t.lookup? id).bind (·.value) = some v := by
  unfold load
  cases (t.lookup? id).bind (·.value) <;> simp

theorem load_eq_error_iff :
    t.load id = .error (.invalidHandle id) ↔ (t.lookup? id).bind (·.value) = none := by
  unfold load
  cases (t.lookup? id).bind (·.value) <;> simp

theorem load_ok_or_error (t : ValueTable) (id : UInt32) :
    (∃ v, t.load id = .ok v) ∨ t.load id = .error (.invalidHandle id) := by
  cases h : (t.lookup? id).bind (·.value) with
  | none => exact .inr (load_eq_error_iff.2 h)
  | some v => exact .inl ⟨v, load_eq_ok_iff.2 h⟩

theorem load_congr {t' : ValueTable} (h : t'.lookup? id = t.lookup? id) : t'.load id = t.load id := by
  simp only [load, h]

theorem lt_size_of_lookup? {e : TableEntry} (h : t.lookup? id = some e) :
    id.toNat < t.entries.size :=
  (Array.getElem?_eq_some_iff.1 h).1

theorem lookup?_of_lt (h : id.toNat < t.entries.size) : ∃ e, t.lookup? id = some e :=
  ⟨_, Array.getElem?_eq_getElem h⟩

@[simp] theorem size_setEntry (e : TableEntry) :
    (t.setEntry id e).entries.size = t.entries.size := by
  simp [setEntry]

theorem lookup?_setEntry (h : id.toNat < t.entries.size) (e : TableEntry) :
    (t.setEntry id e).lookup? j = if j = id then some e else t.lookup? j := by
  by_cases hj : j = id
  · subst hj
    simp [lookup?, setEntry, h]
  · have hne : id.toNat ≠ j.toNat := fun hn => hj (UInt32.toNat_inj.1 hn.symm)
    simp [lookup?, setEntry, hj, Array.getElem?_setIfInBounds_ne hne]

theorem load_recount {n m : UInt32} (h : t.lookup? id = some ⟨some v, .live n⟩) (j : UInt32) :
    (t.setEntry id ⟨some v, .live m⟩).load j = t.load j := by
  by_cases hj : j = id
  · rw [load, load, lookup?_setEntry (lt_size_of_lookup? h), if_pos hj, hj, h]
    rfl
  · exact load_congr (by rw [lookup?_setEntry (lt_size_of_lookup? h), if_neg hj])

/-! ## Retaining -/

theorem retain_of_live {w : Option Value} {n : UInt32} (h : t.lookup? id = some ⟨w, .live n⟩) :
    t.retain id = t.setEntry id ⟨w, .live (succSaturating n)⟩ := by
  simp only [retain, h]

theorem retain_of_not_live (h : ∀ w n, t.lookup? id ≠ some ⟨w, .live n⟩) : t.retain id = t := by
  unfold retain
  split
  · exact absurd ‹_› (h _ _)
  · rfl

@[simp] theorem size_retain (t : ValueTable) (id : UInt32) :
    (t.retain id).entries.size = t.entries.size := by
  unfold retain
  split
  · exact size_setEntry _
  · rfl

/-! ## Allocating -/

theorem size_allocate (t : ValueTable) (v : Value) (k : Identity) :
    (t.allocate v k).2.entries.size =
      if t.free = [] then t.entries.size + 1 else t.entries.size := by
  unfold allocate
  split
  next hfree => simp [hfree, setEntry]
  next hfree => simp [hfree]

/-- What `t'` is when handle `id` has been allocated in `t` to the value `v` of identity `k`. -/
structure Allocates (t : ValueTable) (v : Value) (k : Identity) (id : UInt32) (t' : ValueTable) :
    Prop where
  lookup? : ∀ j, t'.lookup? j = if j = id then some ⟨some v, .live 1⟩ else t.lookup? j
  ids : t'.ids = t.ids.insert k id
  free : t'.free = t.free.tail
  size_le : t.entries.size ≤ t'.entries.size
  /-- The handle comes from the pool, or from past the end of the table if the pool is empty. -/
  source : id ∈ t.free.head? ∧ t'.entries.size = t.entries.size ∨
    t.free = [] ∧ id.toNat = t.entries.size ∧ t'.entries.size = t.entries.size + 1

namespace Allocates

variable {t' : ValueTable}

theorem load_eq_ok_iff (ha : Allocates t v k id t') {w : Value} :
    t'.load j = .ok w ↔ if j = id then v = w else t.load j = .ok w := by
  rw [ValueTable.load_eq_ok_iff, ha.lookup?]
  split
  · simp
  · rw [ValueTable.load_eq_ok_iff]

theorem size_eq (ha : Allocates t v k id t') (hfree : t.free ≠ []) :
    t'.entries.size = t.entries.size := by
  rcases ha.source with ⟨-, hsize⟩ | ⟨hnil, -⟩
  · exact hsize
  · exact absurd hnil hfree

theorem mem_free_iff (ha : Allocates t v k id t') (hj : j ≠ id) : j ∈ t'.free ↔ j ∈ t.free := by
  rw [ha.free]
  rcases ha.source with ⟨hhead, -⟩ | ⟨hfree, -⟩
  · cases hf : t.free with
    | nil => simp
    | cons a rest =>
      have : a = id := by simpa [hf] using hhead
      simp [this, hj]
  · simp [hfree]

/-- An entry that is given its value with a count of zero, and counted once, is allocated. -/
theorem of_retain {u : ValueTable} (hlt : id.toNat < u.entries.size)
    (he : ∀ j, u.lookup? j = if j = id then some ⟨some v, .live 0⟩ else t.lookup? j)
    (hids : u.ids = t.ids.insert k id) (hfree : u.free = t.free.tail)
    (hsource : id ∈ t.free.head? ∧ u.entries.size = t.entries.size ∨
      t.free = [] ∧ id.toNat = t.entries.size ∧ u.entries.size = t.entries.size + 1) :
    Allocates t v k id (u.retain id) := by
  have hle : t.entries.size ≤ u.entries.size := by
    rcases hsource with ⟨-, hsize⟩ | ⟨-, -, hsize⟩ <;> omega
  rw [retain_of_live (by rw [he, if_pos rfl])]
  refine ⟨?_, hids, hfree, by rwa [size_setEntry], by rwa [size_setEntry]⟩
  intro j
  rw [lookup?_setEntry hlt, he]
  split <;> rfl

end Allocates

theorem allocates_from_pool {rest : List UInt32} (hfree : t.free = id :: rest)
    (hlt : id.toNat < t.entries.size) :
    Allocates t v k id (((t.allocate v k).2).retain id) ∧ (t.allocate v k).1 = id := by
  have hu : t.allocate v k = (id,
      { t.setEntry id ⟨some v, .live 0⟩ with ids := t.ids.insert k id, free := rest }) := by
    simp only [allocate, hfree]
  have hsize : (t.setEntry id ⟨some v, .live 0⟩).entries.size = t.entries.size := size_setEntry _
  rw [hu]
  refine ⟨Allocates.of_retain (hlt.trans_eq hsize.symm) (fun j => lookup?_setEntry hlt _) rfl ?_ ?_,
    rfl⟩
  · rw [hfree]
    rfl
  · exact .inl ⟨by simp [hfree], hsize⟩

theorem allocates_at_end (hfree : t.free = []) (hsize : t.entries.size < 2 ^ 32) :
    let id := UInt32.ofNat t.entries.size
    Allocates t v k id (((t.allocate v k).2).retain id) ∧ (t.allocate v k).1 = id := by
  intro id
  have hid : id.toNat = t.entries.size := UInt32.toNat_ofNat_of_lt' hsize
  have hu : t.allocate v k = (id,
      { t with entries := t.entries.push ⟨some v, .live 0⟩, ids := t.ids.insert k id }) := by
    simp only [allocate, hfree, id]
  have hpush : (t.entries.push ⟨some v, .live 0⟩).size = t.entries.size + 1 := Array.size_push _
  rw [hu]
  refine ⟨Allocates.of_retain ?_ (fun j => ?_) rfl ?_ (.inr ⟨hfree, hid, hpush⟩), rfl⟩
  · change id.toNat < (t.entries.push _).size
    omega
  · by_cases hj : j = id
    · subst hj
      simp [lookup?, hid]
    · have hne : j.toNat ≠ t.entries.size := fun hn => hj (UInt32.toNat_inj.1 (hn.trans hid.symm))
      simp [lookup?, hj, Array.getElem?_push, hne]
  · rw [hfree]
    rfl

/-! ## Storing -/

theorem store_of_no_identity (h : v.identity? = none) : (t.store v).2 = t := by
  cases v with
  | undefined | null => rfl
  | bool b => cases b <;> rfl
  | number n =>
    simp only [store]
    split_ifs <;> rfl
  | string | symbol | object | array | bytes | function => simp [Value.identity?] at h

theorem handle?_store_of_no_identity (h : v.identity? = none) (global bridge : Value) :
    (t.store v).1.handle? = some id ↔
      id.toNat < 5 ∧ (reservedValues global bridge)[id.toNat]? = some v.canonical := by
  have hlt : id.toNat < 5 ↔ id = 0 ∨ id = 1 ∨ id = 2 ∨ id = 3 ∨ id = 4 := by
    simp only [← UInt32.toNat_inj, UInt32.reduceToNat]
    omega
  have hnan : Double.canonicalNaN.isNaN = true := by decide
  have hzero : Double.zero.isZero = true := by decide
  rw [hlt]
  constructor
  · intro hid
    cases v with
    | undefined => simp [store, Slot.handle?] at hid
    | null => cases hid; simp [nullHandle, reservedValues, Value.canonical]
    | bool b =>
      cases b <;> cases hid <;> simp [trueHandle, falseHandle, reservedValues, Value.canonical]
    | number n =>
      simp only [store] at hid
      split_ifs at hid with hn hz <;> cases hid
      · simp [nanHandle, reservedValues, Value.canonical, hn]
      · simp [zeroHandle, reservedValues, Value.canonical, hn, hz]
    | string | symbol | object | array | bytes | function => simp [Value.identity?] at h
  · rintro ⟨hid, hv⟩
    cases v with
    | undefined =>
      rcases hid with rfl | rfl | rfl | rfl | rfl <;> simp [reservedValues, Value.canonical] at hv
    | null =>
      rcases hid with rfl | rfl | rfl | rfl | rfl <;> simp [reservedValues, Value.canonical] at hv
      rfl
    | bool b =>
      rcases hid with rfl | rfl | rfl | rfl | rfl <;>
        simp [reservedValues, Value.canonical] at hv <;> subst hv <;> rfl
    | number n =>
      have hne : Double.zero ≠ Double.canonicalNaN := by decide
      simp only [Value.canonical] at hv
      simp only [store]
      split_ifs at hv ⊢ with hn hz <;> rcases hid with rfl | rfl | rfl | rfl | rfl <;>
        simp_all [reservedValues, Slot.handle?, nanHandle, zeroHandle, hne.symm]
    | string | symbol | object | array | bytes | function => simp [Value.identity?] at h

theorem store_of_identity (h : v.identity? = some k) :
    t.store v = (.ref (t.intern v k).1 v.tag, (t.intern v k).2) := by
  cases v <;> simp_all [store, Value.identity?]

theorem intern_known (h : t.ids.find? k = some id) : t.intern v k = (id, t.retain id) := by
  simp only [intern, h]

theorem intern_fresh (h : t.ids.find? k = none)
    (hpool : ∀ id ∈ t.free, id.toNat < t.entries.size)
    (hend : t.free = [] → t.entries.size < 2 ^ 32) :
    Allocates t v k (t.intern v k).1 (t.intern v k).2 := by
  have hi : t.intern v k = ((t.allocate v k).1, (t.allocate v k).2.retain (t.allocate v k).1) := by
    simp only [intern, h]
  rw [hi]
  cases hfree : t.free with
  | nil =>
    obtain ⟨ha, hid⟩ := allocates_at_end (v := v) (k := k) hfree (hend hfree)
    rwa [hid]
  | cons id rest =>
    obtain ⟨ha, hid⟩ := allocates_from_pool (v := v) (k := k) hfree
      (hpool id (by rw [hfree]; exact List.mem_cons_self))
    rwa [hid]

/-- The size of a table after a value has been stored that it does not know. -/
theorem size_intern_fresh (h : t.ids.find? k = none) :
    (t.intern v k).2.entries.size =
      if t.free = [] then t.entries.size + 1 else t.entries.size := by
  rw [← size_allocate t v k]
  simp only [intern, h, size_retain]

theorem size_le_store (t : ValueTable) (v : Value) :
    t.entries.size ≤ (t.store v).2.entries.size := by
  cases hv : v.identity? with
  | none => rw [store_of_no_identity hv]
  | some k =>
    rw [store_of_identity hv]
    cases hk : t.ids.find? k with
    | some id => rw [intern_known hk, size_retain]
    | none =>
      rw [size_intern_fresh hk]
      split_ifs
      · exact Nat.le_succ _
      · exact Nat.le_refl _

/-- A slot that is handed out survives being written and read. -/
theorem canonical_store (t : ValueTable) (v : Value) : (t.store v).1.Canonical := by
  cases v with
  | number n =>
    simp only [store]
    split_ifs with hnan hzero
    · trivial
    · trivial
    · exact ⟨Bool.eq_false_iff.2 hzero, Bool.eq_false_iff.2 hnan⟩
  | undefined | null => trivial
  | bool b => cases b <;> trivial
  | string | symbol | object | array | bytes | function =>
    rw [store_of_identity rfl]
    trivial

/-! ## Releasing -/

theorem release_of_not_counted (h : ∀ w n, t.lookup? id = some ⟨w, .live n⟩ → n = 0) :
    t.release id = t := by
  unfold release
  split
  · rw [if_pos (h _ _ ‹_›)]
  · rfl

theorem release_shared {w : Option Value} {n : UInt32} (h : t.lookup? id = some ⟨w, .live n⟩)
    (hn : 1 < n) : t.release id = t.setEntry id ⟨w, .live (n - 1)⟩ := by
  have h0 : n ≠ 0 := by rintro rfl; exact absurd hn (by decide)
  have h1 : n ≠ 1 := by rintro rfl; exact absurd hn (by decide)
  simp only [release, h, h0, h1, if_false]

theorem release_last {w : Option Value} (h : t.lookup? id = some ⟨w, .live 1⟩) :
    t.release id = t.reclaim id w := by
  simp [release, h]

theorem lookup?_reclaim (h : id.toNat < t.entries.size) (w : Option Value) :
    (t.reclaim id w).lookup? j = if j = id then some ⟨none, .live 0⟩ else t.lookup? j :=
  lookup?_setEntry h _

theorem load_reclaim (h : id.toNat < t.entries.size) (w : Option Value) :
    (t.reclaim id w).load j = .ok v ↔ j ≠ id ∧ t.load j = .ok v := by
  rw [load_eq_ok_iff, load_eq_ok_iff, lookup?_reclaim h]
  split
  next hj => simp [hj]
  next hj => simp [hj]

theorem ids_reclaim_some (h : v.identity? = some k) :
    (t.reclaim id (some v)).ids = t.ids.erase k := by
  simp [reclaim, h]

theorem size_reclaim (w : Option Value) : (t.reclaim id w).entries.size = t.entries.size :=
  size_setEntry _

@[simp] theorem size_release (t : ValueTable) (id : UInt32) :
    (t.release id).entries.size = t.entries.size := by
  unfold release
  split
  · split_ifs
    · rfl
    · exact size_reclaim _
    · exact size_setEntry _
  · rfl

end ValueTable

end TokenizerHost
