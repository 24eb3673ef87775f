import Mathlib.Data.Set.Card
import Mathlib.Tactic.IntervalCases
import TokenizerHost.Proofs.Table.Entries

set_option autoImplicit false

/-!
# Entries, identities and pool agree

A table holds the same facts three times: which handles are live stands in the entries, in the map
of identities, and in the pool of handles to use again. `Consistent` says that the three agree. It
holds of a new table, and storing and releasing keep it; retaining keeps it too, unless the handle
retained is in the pool.
-/

namespace TokenizerHost

inductive TableCall where
  | store (v : Value)
  | retain (id : UInt32)
  | release (id : UInt32)
  deriving DecidableEq

namespace ValueTable

def apply (t : ValueTable) : TableCall → ValueTable
  | .store v => (t.store v).2
  | .retain id => t.retain id
  | .release id => t.release id

def run (t : ValueTable) (calls : List TableCall) : ValueTable := calls.foldl apply t

structure Consistent (global bridge : Value) (t : ValueTable) : Prop where
  /-- The reserved handles are immortal and name their values. -/
  reserved : ∀ id : UInt32, id.toNat < reservedHandles →
    t.lookup? id = some ⟨(reservedValues global bridge)[id.toNat]?, .immortal⟩
  /-- Every other entry is counted. It holds a value exactly if its count is positive, and exactly
  if its handle is not in the pool. -/
  counted : ∀ (id : UInt32) (e : TableEntry), reservedHandles ≤ id.toNat → t.lookup? id = some e →
    ∃ n, e.count = .live n ∧ (e.value.isSome ↔ 0 < n) ∧ (e.value.isSome ↔ id ∉ t.free)
  free_nodup : t.free.Nodup
  free_mem : ∀ id ∈ t.free, reservedHandles ≤ id.toNat ∧ id.toNat < t.entries.size
  /-- The map of identities is the inverse of the entries. -/
  ids_iff : ∀ (k : Identity) (id : UInt32),
    t.ids.find? k = some id ↔ ∃ v, t.load id = .ok v ∧ v.identity? = some k
  identified : ∀ (id : UInt32) (v : Value), reservedHandles ≤ id.toNat → t.load id = .ok v →
    ∃ k, v.identity? = some k

variable {global bridge : Value} {t t' : ValueTable} {id j : UInt32} {v w : Value} {k : Identity}

theorem succSaturating_pos (n : UInt32) : 0 < succSaturating n := by
  unfold succSaturating
  split_ifs with h
  · rw [UInt32.lt_iff_toNat_lt, UInt32.toNat_add, UInt32.toNat_one, Nat.mod_eq_of_lt h]
    exact Nat.succ_pos _
  · rw [UInt32.size] at h
    rw [UInt32.lt_iff_toNat_lt, UInt32.toNat_zero]
    omega

namespace Consistent

theorem reserved_lt_size (h : Consistent global bridge t) : reservedHandles ≤ t.entries.size := by
  have h6 := lt_size_of_lookup? (h.reserved 6 (by decide))
  simp only [UInt32.reduceToNat] at h6
  exact h6

theorem load_reserved (h : Consistent global bridge t) (hid : id.toNat < reservedHandles) :
    t.load id = .ok w ↔ (reservedValues global bridge)[id.toNat]? = some w := by
  rw [load_eq_ok_iff, h.reserved id hid]
  rfl

theorem lookup?_ne_live (h : Consistent global bridge t) (hid : id.toNat < reservedHandles)
    (w : Option Value) (n : UInt32) : t.lookup? id ≠ some ⟨w, .live n⟩ := by
  rw [h.reserved id hid]
  simp

theorem entry_of_load (h : Consistent global bridge t) (hid : reservedHandles ≤ id.toNat)
    (hv : t.load id = .ok v) : ∃ n, t.lookup? id = some ⟨some v, .live n⟩ ∧ 0 < n := by
  obtain ⟨⟨w, c⟩, he, hw⟩ := Option.bind_eq_some_iff.1 (load_eq_ok_iff.1 hv)
  obtain ⟨n, hc, hpos, -⟩ := h.counted id _ hid he
  cases hc
  cases hw
  exact ⟨n, he, hpos.1 rfl⟩

theorem entry_of_mem_free (h : Consistent global bridge t) (hid : id ∈ t.free) :
    t.lookup? id = some ⟨none, .live 0⟩ := by
  obtain ⟨hres, hlt⟩ := h.free_mem id hid
  obtain ⟨⟨w, c⟩, he⟩ := lookup?_of_lt hlt
  obtain ⟨n, hc, hpos, hfree⟩ := h.counted id _ hres he
  have hw : w = none := by
    cases w with
    | none => rfl
    | some w => exact absurd hid (hfree.1 rfl)
  have hn : n = 0 := by
    by_contra hn
    have := hpos.2 (UInt32.pos_iff_ne_zero.2 hn)
    simp [hw] at this
  cases hc
  rw [he, hw, hn]

theorem load_of_mem_free (h : Consistent global bridge t) (hid : id ∈ t.free) :
    t.load id = .error (.invalidHandle id) := by
  rw [load_eq_error_iff, h.entry_of_mem_free hid]
  rfl

theorem eq_of_load (h : Consistent global bridge t) (hk : v.identity? = some k)
    (hi : t.load id = .ok v) (hj : t.load j = .ok v) : id = j := by
  have h1 := (h.ids_iff k id).2 ⟨v, hi, hk⟩
  have h2 := (h.ids_iff k j).2 ⟨v, hj, hk⟩
  exact Option.some.inj (h1.symm.trans h2)

/-! ### What keeps a table consistent -/

theorem allocated_source (h : Consistent global bridge t) (ha : Allocates t v k id t') :
    reservedHandles ≤ id.toNat ∧ t.load id = .error (.invalidHandle id) ∧ id ∉ t.free.tail := by
  rcases ha.source with ⟨hhead, -⟩ | ⟨hfree, hend, -⟩
  · obtain ⟨rest, hfree⟩ : ∃ rest, t.free = id :: rest := by
      cases hf : t.free with
      | nil => simp [hf] at hhead
      | cons a rest => simp [hf] at hhead; exact ⟨rest, by rw [hhead]⟩
    have hmem : id ∈ t.free := by simp [hfree]
    have hnodup := h.free_nodup
    rw [hfree] at hnodup ⊢
    exact ⟨(h.free_mem id hmem).1, h.load_of_mem_free hmem, (List.nodup_cons.1 hnodup).1⟩
  · have hnone : t.lookup? id = none := Array.getElem?_eq_none (by omega)
    have hload : t.load id = .error (.invalidHandle id) := by
      rw [load_eq_error_iff, hnone]
      rfl
    exact ⟨by have := h.reserved_lt_size; omega, hload, by simp [hfree]⟩

theorem find?_allocates (h : Consistent global bridge t) (hk : v.identity? = some k)
    (hnew : t.ids.find? k = none) (ha : Allocates t v k id t') (k' : Identity) (j : UInt32) :
    t'.ids.find? k' = some j ↔ ∃ w, t'.load j = .ok w ∧ w.identity? = some k' := by
  rw [ha.ids, Assoc.find?_insert]
  simp only [ha.load_eq_ok_iff]
  by_cases hkk : k' = k
  · subst hkk
    simp only [if_true, Option.some.injEq]
    constructor
    · rintro rfl
      exact ⟨v, by simp, hk⟩
    · rintro ⟨w, hw, hwk⟩
      by_contra hne
      rw [if_neg (Ne.symm hne)] at hw
      have := (h.ids_iff k' j).2 ⟨w, hw, hwk⟩
      simp [hnew] at this
  · simp only [hkk, if_false]
    rw [h.ids_iff]
    refine exists_congr fun w => and_congr_left fun hwk => ?_
    by_cases hj : j = id
    · subst hj
      have hvw : v ≠ w := by
        rintro rfl
        exact hkk (Option.some.inj (hwk.symm.trans hk))
      simp only [if_true, hvw, (h.allocated_source ha).2.1, reduceCtorEq]
    · rw [if_neg hj]

theorem allocates (h : Consistent global bridge t) (hk : v.identity? = some k)
    (hnew : t.ids.find? k = none) (ha : Allocates t v k id t') : Consistent global bridge t' := by
  obtain ⟨hres, -, htail⟩ := h.allocated_source ha
  refine ⟨?_, ?_, ?_, ?_, h.find?_allocates hk hnew ha, ?_⟩
  · intro j hj
    rw [ha.lookup?, if_neg (by rintro rfl; omega)]
    exact h.reserved j hj
  · intro j e hj he
    rw [ha.lookup?] at he
    split at he
    next heq =>
      subst heq
      cases he
      exact ⟨1, rfl, by simp, by simpa [ha.free] using htail⟩
    next hne =>
      obtain ⟨n, hc, hpos, hfree⟩ := h.counted j e hj he
      exact ⟨n, hc, hpos, by rw [hfree, ha.mem_free_iff hne]⟩
  · rw [ha.free]
    exact h.free_nodup.sublist (List.tail_sublist _)
  · intro j hj
    rw [ha.free] at hj
    obtain ⟨hr, hlt⟩ := h.free_mem j (List.mem_of_mem_tail hj)
    exact ⟨hr, hlt.trans_le ha.size_le⟩
  · intro j w hj hw
    rw [ha.load_eq_ok_iff] at hw
    split at hw
    · exact ⟨k, by rw [← hw]; exact hk⟩
    · exact h.identified j w hj hw

theorem recount (h : Consistent global bridge t) (hres : reservedHandles ≤ id.toNat)
    {n m : UInt32} (he : t.lookup? id = some ⟨some v, .live n⟩) (hm : 0 < m) :
    Consistent global bridge (t.setEntry id ⟨some v, .live m⟩) := by
  have hlt := lt_size_of_lookup? he
  refine ⟨?_, ?_, h.free_nodup, ?_, ?_, ?_⟩
  · intro j hj
    rw [lookup?_setEntry hlt, if_neg (by rintro rfl; omega)]
    exact h.reserved j hj
  · intro j e hj hej
    rw [lookup?_setEntry hlt] at hej
    split at hej
    next heq =>
      subst heq
      cases hej
      obtain ⟨-, -, -, hfree⟩ := h.counted j _ hj he
      exact ⟨m, rfl, by simpa using hm, hfree⟩
    next => exact h.counted j e hj hej
  · intro j hj
    rw [size_setEntry]
    exact h.free_mem j hj
  · intro k j
    simp only [load_recount he]
    exact h.ids_iff k j
  · intro j w hj hw
    rw [load_recount he] at hw
    exact h.identified j w hj hw

theorem find?_reclaim (h : Consistent global bridge t) (hv : t.load id = .ok v)
    (hk : v.identity? = some k) (k' : Identity) (j : UInt32) :
    (t.reclaim id (some v)).ids.find? k' = some j ↔
      ∃ w, (t.reclaim id (some v)).load j = .ok w ∧ w.identity? = some k' := by
  have hlt : id.toNat < t.entries.size := by
    obtain ⟨e, he, -⟩ := Option.bind_eq_some_iff.1 (load_eq_ok_iff.1 hv)
    exact lt_size_of_lookup? he
  rw [ids_reclaim_some hk, Assoc.find?_erase]
  simp only [load_reclaim hlt]
  by_cases hkk : k' = k
  · subst hkk
    simp only [if_true, reduceCtorEq, false_iff, not_exists, not_and]
    intro w hw hwk
    have hwv := Value.identity?_inj hwk hk
    subst hwv
    exact hw.1 (h.eq_of_load hk hw.2 hv)
  · rw [if_neg hkk, h.ids_iff]
    refine exists_congr fun w => and_congr_left fun hwk => ?_
    refine ⟨fun hw => ⟨?_, hw⟩, fun hw => hw.2⟩
    rintro rfl
    have hvw : v = w := by rw [hv] at hw; exact Except.ok.inj hw
    subst hvw
    exact hkk (Option.some.inj (hwk.symm.trans hk))

theorem reclaims (h : Consistent global bridge t) (hres : reservedHandles ≤ id.toNat)
    {n : UInt32} (he : t.lookup? id = some ⟨some v, .live n⟩) :
    Consistent global bridge (t.reclaim id (some v)) := by
  have hlt := lt_size_of_lookup? he
  have hv : t.load id = .ok v := by rw [load_eq_ok_iff, he]; rfl
  obtain ⟨k, hk⟩ := h.identified id v hres hv
  have hnot : id ∉ t.free := by
    obtain ⟨-, -, -, hfree⟩ := h.counted id _ hres he
    exact hfree.1 rfl
  have hfree : (t.reclaim id (some v)).free = id :: t.free := rfl
  refine ⟨?_, ?_, ?_, ?_, h.find?_reclaim hv hk, ?_⟩
  · intro j hj
    rw [lookup?_reclaim hlt, if_neg (by rintro rfl; omega)]
    exact h.reserved j hj
  · intro j e hj hej
    rw [lookup?_reclaim hlt] at hej
    split at hej
    next heq =>
      subst heq
      cases hej
      exact ⟨0, rfl, by simp, by simp [hfree]⟩
    next hne =>
      obtain ⟨m, hc, hpos, hmem⟩ := h.counted j e hj hej
      exact ⟨m, hc, hpos, by simp [hmem, hfree, hne]⟩
  · exact List.nodup_cons.2 ⟨hnot, h.free_nodup⟩
  · intro j hj
    rw [size_reclaim]
    rw [hfree, List.mem_cons] at hj
    rcases hj with rfl | hj
    · exact ⟨hres, hlt⟩
    · exact h.free_mem j hj
  · intro j w hj hw
    exact h.identified j w hj ((load_reclaim hlt _).1 hw).2

/-- A known identity belongs to a reserved value, or to a counted one. -/
theorem find?_cases (h : Consistent global bridge t) (hk : v.identity? = some k)
    (hid : t.ids.find? k = some id) : t.load id = .ok v ∧
      (id.toNat < reservedHandles ∧ t.retain id = t ∨
        reservedHandles ≤ id.toNat ∧ ∃ n, t.lookup? id = some ⟨some v, .live n⟩ ∧ 0 < n ∧
          t.retain id = t.setEntry id ⟨some v, .live (succSaturating n)⟩) := by
  obtain ⟨w, hw, hwk⟩ := (h.ids_iff k id).1 hid
  obtain rfl := Value.identity?_inj hwk hk
  refine ⟨hw, ?_⟩
  rcases Nat.lt_or_ge id.toNat reservedHandles with hlt | hge
  · exact .inl ⟨hlt, retain_of_not_live (h.lookup?_ne_live hlt)⟩
  · obtain ⟨n, he, hn⟩ := h.entry_of_load hge hw
    exact .inr ⟨hge, n, he, hn, retain_of_live he⟩

/-- What storing a value comes to: no counted handle is concerned, or a live one is counted once
more, or one that named nothing is allocated. -/
theorem store_cases (h : Consistent global bridge t) (v : Value)
    (hsize : (t.store v).2.entries.size ≤ 2 ^ 32) :
    ((t.store v).2 = t ∧ ∀ id, (t.store v).1.handle? = some id →
      id.toNat < reservedHandles ∧ t.load id = .ok v.canonical) ∨
    (∃ id n, (t.store v).1 = .ref id v.tag ∧ reservedHandles ≤ id.toNat ∧ v.canonical = v ∧
      t.lookup? id = some ⟨some v, .live n⟩ ∧ 0 < n ∧
      (t.store v).2 = t.setEntry id ⟨some v, .live (succSaturating n)⟩) ∨
    ∃ id k, (t.store v).1 = .ref id v.tag ∧ v.canonical = v ∧ v.identity? = some k ∧
      t.ids.find? k = none ∧ Allocates t v k id (t.store v).2 := by
  cases hv : v.identity? with
  | none =>
    refine .inl ⟨store_of_no_identity hv, fun id hid => ?_⟩
    obtain ⟨hlt, hres⟩ := (handle?_store_of_no_identity hv global bridge).1 hid
    have hid7 : id.toNat < reservedHandles := Nat.lt_trans hlt (by decide)
    exact ⟨hid7, (h.load_reserved hid7).2 hres⟩
  | some k =>
    have hcanon := Value.canonical_of_identity hv
    rw [store_of_identity hv] at hsize ⊢
    cases hk : t.ids.find? k with
    | some id =>
      obtain ⟨hload, ⟨hlt, hret⟩ | ⟨hge, n, he, hn, hret⟩⟩ := h.find?_cases hv hk
      · rw [intern_known hk, hret]
        refine .inl ⟨rfl, ?_⟩
        rintro id' ⟨⟩
        exact ⟨hlt, by rw [hcanon]; exact hload⟩
      · rw [intern_known hk, hret]
        exact .inr (.inl ⟨id, n, rfl, hge, hcanon, he, hn, rfl⟩)
    | none =>
      refine .inr (.inr ⟨_, k, rfl, hcanon, rfl, hk, ?_⟩)
      refine intern_fresh hk (fun id hid => (h.free_mem id hid).2) fun hfree => ?_
      rw [size_intern_fresh hk, if_pos hfree] at hsize
      exact hsize

theorem store (h : Consistent global bridge t) (v : Value)
    (hsize : (t.store v).2.entries.size ≤ 2 ^ 32) : Consistent global bridge (t.store v).2 := by
  rcases h.store_cases v hsize with ⟨ht, -⟩ | ⟨id, n, -, hres, -, he, -, ht⟩ |
    ⟨id, k, -, -, hk, hnew, ha⟩
  · rwa [ht]
  · rw [ht]
    exact h.recount hres he (succSaturating_pos n)
  · exact h.allocates hk hnew ha

/-- What releasing a handle comes to: nothing, or one count less, or the end of what it named. -/
theorem release_cases (h : Consistent global bridge t) (id : UInt32) :
    (t.release id = t ∧ (id.toNat < reservedHandles ∨
      t.load id = .error (.invalidHandle id))) ∨
    ∃ v n, reservedHandles ≤ id.toNat ∧ t.lookup? id = some ⟨some v, .live n⟩ ∧
      (1 < n ∧ t.release id = t.setEntry id ⟨some v, .live (n - 1)⟩ ∨
        n = 1 ∧ t.release id = t.reclaim id (some v)) := by
  rcases Nat.lt_or_ge id.toNat reservedHandles with hlt | hge
  · refine .inl ⟨release_of_not_counted fun w n he => ?_, .inl hlt⟩
    exact absurd he (h.lookup?_ne_live hlt w n)
  · rcases t.load_ok_or_error id with ⟨v, hv⟩ | herr
    · obtain ⟨n, he, hn⟩ := h.entry_of_load hge hv
      refine .inr ⟨v, n, hge, he, ?_⟩
      by_cases h1 : n = 1
      · subst h1
        exact .inr ⟨rfl, release_last he⟩
      · have hlt : 1 < n := by
          have h1' : n.toNat ≠ 1 := fun hc => h1 (UInt32.toNat_inj.1 hc)
          rw [UInt32.lt_iff_toNat_lt, UInt32.toNat_zero] at hn
          rw [UInt32.lt_iff_toNat_lt, UInt32.toNat_one]
          omega
        exact .inl ⟨hlt, release_shared he hlt⟩
    · refine .inl ⟨release_of_not_counted ?_, .inr herr⟩
      intro w n he
      obtain ⟨m, hc, hpos, -⟩ := h.counted id _ hge he
      cases hc
      rw [load_eq_error_iff, he] at herr
      cases herr
      by_contra hn
      simpa using hpos.2 (UInt32.pos_iff_ne_zero.2 hn)

theorem release (h : Consistent global bridge t) (id : UInt32) :
    Consistent global bridge (t.release id) := by
  rcases h.release_cases id with ⟨ht, -⟩ | ⟨v, n, hres, he, ⟨hn, ht⟩ | ⟨-, ht⟩⟩
  · rwa [ht]
  · rw [ht]
    refine h.recount hres he ?_
    rw [UInt32.lt_iff_toNat_lt] at hn
    rw [UInt32.lt_iff_toNat_lt, UInt32.toNat_sub_of_le _ _ (UInt32.le_of_lt hn)]
    simpa using hn
  · rw [ht]
    exact h.reclaims hres he

/-- What retaining a handle outside the pool comes to: nothing, or one count more. -/
theorem retain_cases (h : Consistent global bridge t) (hid : id ∉ t.free) :
    t.retain id = t ∨ ∃ v n, reservedHandles ≤ id.toNat ∧
      t.lookup? id = some ⟨some v, .live n⟩ ∧
      t.retain id = t.setEntry id ⟨some v, .live (succSaturating n)⟩ := by
  by_cases hlive : ∃ w n, t.lookup? id = some ⟨w, .live n⟩
  · obtain ⟨w, n, he⟩ := hlive
    have hge : reservedHandles ≤ id.toNat := by
      by_contra hlt
      exact h.lookup?_ne_live (Nat.lt_of_not_le hlt) w n he
    obtain ⟨m, hc, hpos, hfree⟩ := h.counted id _ hge he
    obtain ⟨v, rfl⟩ := Option.isSome_iff_exists.1 (hfree.2 hid)
    exact .inr ⟨v, n, hge, he, retain_of_live he⟩
  · exact .inl (retain_of_not_live fun w n he => hlive ⟨w, n, he⟩)

/-- Retaining keeps a table consistent unless the handle is in the pool. -/
theorem retain (h : Consistent global bridge t) (hid : id ∉ t.free) :
    Consistent global bridge (t.retain id) := by
  rcases h.retain_cases hid with ht | ⟨v, n, hge, he, ht⟩
  · rwa [ht]
  · rw [ht]
    exact h.recount hge he (succSaturating_pos n)

end Consistent

/-! ## Counting what is held -/

/-- The value that an entry holds and counts references to. -/
def counted? (e : TableEntry) : Option Value := if e.count = .immortal then none else e.value

theorem isSome_counted? (e : TableEntry) : (counted? e).isSome = e.isLive := by
  by_cases h : e.count = .immortal <;> simp [counted?, TableEntry.isLive, h]

def countedValues (t : ValueTable) : List Value := t.entries.toList.filterMap counted?

theorem length_countedValues (t : ValueTable) : t.countedValues.length = t.liveHandles := by
  simp only [countedValues, List.length_filterMap_eq_countP, liveHandles, ← Array.countP_toList,
    isSome_counted?]

namespace Consistent

theorem counted?_eq_some_iff (h : Consistent global bridge t) {e : TableEntry}
    (he : t.lookup? id = some e) :
    counted? e = some v ↔ reservedHandles ≤ id.toNat ∧ t.load id = .ok v := by
  rw [load_eq_ok_iff, he, Option.bind_some]
  rcases Nat.lt_or_ge id.toNat reservedHandles with hlt | hge
  · rw [h.reserved id hlt] at he
    cases he
    simp [counted?, hlt.not_ge]
  · obtain ⟨n, hc, -⟩ := h.counted id e hge he
    simp [counted?, hc, hge]

theorem mem_countedValues (h : Consistent global bridge t) (hsize : t.entries.size ≤ 2 ^ 32) :
    v ∈ t.countedValues ↔ ∃ id : UInt32, reservedHandles ≤ id.toNat ∧ t.load id = .ok v := by
  simp only [countedValues, List.mem_filterMap, Array.mem_toList_iff]
  constructor
  · rintro ⟨e, he, hv⟩
    obtain ⟨i, hi⟩ := Array.getElem?_of_mem he
    have hlt : i < t.entries.size := (Array.getElem?_eq_some_iff.1 hi).1
    have hid : (UInt32.ofNat i).toNat = i := UInt32.toNat_ofNat_of_lt' (hlt.trans_le hsize)
    refine ⟨UInt32.ofNat i, (h.counted?_eq_some_iff ?_).1 hv⟩
    rw [lookup?, hid, hi]
  · rintro ⟨id, hid, hv⟩
    obtain ⟨n, he, -⟩ := h.entry_of_load hid hv
    exact ⟨_, Array.mem_of_getElem? he, (h.counted?_eq_some_iff he).2 ⟨hid, hv⟩⟩

theorem nodup_countedValues (h : Consistent global bridge t) (hsize : t.entries.size ≤ 2 ^ 32) :
    t.countedValues.Nodup := by
  rw [List.Nodup, countedValues, List.pairwise_filterMap, List.pairwise_iff_getElem]
  intro i j hi hj hij v hv w hw hvw
  subst hvw
  simp only [Array.length_toList] at hi hj
  have hentry : ∀ n (hn : n < t.entries.size),
      (UInt32.ofNat n).toNat = n ∧ t.lookup? (UInt32.ofNat n) = some t.entries.toList[n] := by
    intro n hn
    have hid : (UInt32.ofNat n).toNat = n := UInt32.toNat_ofNat_of_lt' (hn.trans_le hsize)
    exact ⟨hid, by rw [lookup?, hid]; simp [hn]⟩
  obtain ⟨hin, hie⟩ := hentry i hi
  obtain ⟨hjn, hje⟩ := hentry j hj
  obtain ⟨hres, hvi⟩ := (h.counted?_eq_some_iff hie).1 hv
  obtain ⟨-, hvj⟩ := (h.counted?_eq_some_iff hje).1 hw
  obtain ⟨k, hk⟩ := h.identified _ _ hres hvi
  have := h.eq_of_load hk hvi hvj
  rw [← UInt32.toNat_inj, hin, hjn] at this
  omega

theorem held_iff (h : Consistent global bridge t) :
    (v ∉ reservedValues global bridge ∧ ∃ id, t.load id = .ok v) ↔
      ∃ id : UInt32, reservedHandles ≤ id.toNat ∧ t.load id = .ok v := by
  constructor
  · rintro ⟨hv, id, hid⟩
    refine ⟨id, ?_, hid⟩
    by_contra hlt
    exact hv (List.mem_of_getElem? ((h.load_reserved (Nat.lt_of_not_le hlt)).1 hid))
  · rintro ⟨id, hge, hid⟩
    refine ⟨fun hmem => ?_, id, hid⟩
    obtain ⟨i, hi⟩ := List.getElem?_of_mem hmem
    have hlt : i < reservedHandles := (List.getElem?_eq_some_iff.1 hi).1
    have hin : (UInt32.ofNat i).toNat = i := UInt32.toNat_ofNat_of_lt' (hlt.trans (by decide))
    obtain ⟨k, hk⟩ := h.identified id v hge hid
    have hres : t.load (UInt32.ofNat i) = .ok v :=
      (h.load_reserved (by rw [hin]; exact hlt)).2 (by rw [hin]; exact hi)
    have := h.eq_of_load hk hid hres
    rw [this, hin] at hge
    omega

theorem liveHandles_eq (h : Consistent global bridge t) (hsize : t.entries.size ≤ 2 ^ 32) :
    t.liveHandles =
      Set.ncard {v | v ∉ reservedValues global bridge ∧ ∃ id, t.load id = .ok v} := by
  have hset : {v | v ∉ reservedValues global bridge ∧ ∃ id, t.load id = .ok v} =
      (t.countedValues.toFinset : Set Value) := by
    ext v
    rw [Set.mem_ofPred_eq, h.held_iff, ← h.mem_countedValues hsize]
    simp
  rw [hset, Set.ncard_coe_finset, List.toFinset_card_of_nodup (h.nodup_countedValues hsize),
    length_countedValues]

/-- A value that a handle names is handed out under that handle. -/
theorem handle?_store (h : Consistent global bridge t) {g b : Nat} (hg : global = .object g)
    (hb : bridge = .object b) (hv : t.load id = .ok v.canonical) :
    (t.store v).1.handle? = some id := by
  cases hk : v.identity? with
  | some k =>
    rw [Value.canonical_of_identity hk] at hv
    have hid : t.ids.find? k = some id := (h.ids_iff k id).2 ⟨v, hv, hk⟩
    rw [store_of_identity hk, intern_known hid]
    rfl
  | none =>
    have hc : v.canonical.identity? = none := by
      cases v <;> simp_all [Value.canonical, Value.identity?]
      split_ifs <;> rfl
    have hlt : id.toNat < reservedHandles := by
      by_contra hge
      obtain ⟨k, hk⟩ := h.identified id _ (Nat.le_of_not_lt hge) hv
      simp [hc] at hk
    have hres := (h.load_reserved hlt).1 hv
    refine (handle?_store_of_no_identity hk global bridge).2 ⟨?_, hres⟩
    by_contra hge
    have h56 : id.toNat = 5 ∨ id.toNat = 6 := by
      have : id.toNat < 7 := hlt
      omega
    -- The last two reserved handles name objects, and those have an identity.
    rcases h56 with h5 | h6
    · have hvg : Value.object g = v.canonical := by simpa [reservedValues, h5, hg] using hres
      simp [← hvg, Value.identity?] at hc
    · have hvb : Value.object b = v.canonical := by simpa [reservedValues, h6, hb] using hres
      simp [← hvb, Value.identity?] at hc

end Consistent

/-! ## Runs -/

theorem lookup?_new (global bridge : Value) (id : UInt32) :
    (new global bridge).lookup? id =
      ((reservedValues global bridge)[id.toNat]?).map fun v => ⟨some v, .immortal⟩ := by
  simp [lookup?, new]

theorem load_new : (new global bridge).load id = .ok v ↔
    (reservedValues global bridge)[id.toNat]? = some v := by
  rw [load_eq_ok_iff, lookup?_new]
  cases (reservedValues global bridge)[id.toNat]? <;> simp

theorem load_new_lt (h : (new global bridge).load id = .ok v) : id.toNat < reservedHandles :=
  (List.getElem?_eq_some_iff.1 (load_new.1 h)).1

theorem find?_new {g b : Nat} (hgb : g ≠ b) (k : Identity) (id : UInt32) :
    (new (.object g) (.object b)).ids.find? k = some id ↔
      ∃ v, (new (.object g) (.object b)).load id = .ok v ∧ v.identity? = some k := by
  have hids : (new (.object g) (.object b)).ids.find? k =
      if k = .object b then some bridgeHandle
      else if k = .object g then some globalHandle else none := by
    simp [new, reserveIdentity, Value.identity?, Assoc.find?_insert]
  rw [hids]
  constructor
  · intro hid
    split_ifs at hid with hb hg <;> cases hid
    · exact ⟨.object b, rfl, hb ▸ rfl⟩
    · exact ⟨.object g, rfl, hg ▸ rfl⟩
  · rintro ⟨v, hload, hk⟩
    have hlt : id.toNat < 7 := load_new_lt hload
    have hv := load_new.1 hload
    have hid : id.toNat = 5 ∨ id.toNat = 6 := by
      by_contra hne
      have h5 : id.toNat < 5 := by omega
      interval_cases id.toNat <;> cases hv <;> simp [Value.identity?] at hk
    rcases hid with h5 | h6
    · rw [h5] at hv
      cases hv
      cases hk
      have : id = globalHandle := UInt32.toNat_inj.1 h5
      simp [hgb, this]
    · rw [h6] at hv
      cases hv
      cases hk
      have : id = bridgeHandle := UInt32.toNat_inj.1 h6
      simp [this]

theorem new_consistent {g b : Nat} (hgb : g ≠ b) :
    Consistent (.object g) (.object b) (new (.object g) (.object b)) := by
  have hlen : (reservedValues (.object g) (.object b)).length = reservedHandles := rfl
  refine ⟨?_, ?_, List.nodup_nil, by simp [new], find?_new hgb, ?_⟩
  · intro id hid
    rw [lookup?_new, List.getElem?_eq_getElem (by rw [hlen]; exact hid)]
    rfl
  · intro id e hid he
    rw [lookup?_new, List.getElem?_eq_none (by rw [hlen]; exact hid)] at he
    cases he
  · intro id v hid hv
    exact absurd (load_new_lt hv) (Nat.not_lt.2 hid)

theorem run_append (t : ValueTable) (a b : List TableCall) : t.run (a ++ b) = (t.run a).run b :=
  List.foldl_append

theorem size_le_apply (t : ValueTable) (c : TableCall) :
    t.entries.size ≤ (t.apply c).entries.size := by
  cases c with
  | store v => exact size_le_store t v
  | retain id => exact (size_retain t id).ge
  | release id => exact (size_release t id).ge

theorem size_le_run (t : ValueTable) (calls : List TableCall) :
    t.entries.size ≤ (t.run calls).entries.size := by
  induction calls generalizing t with
  | nil => exact Nat.le_refl _
  | cons c calls ih => exact (size_le_apply t c).trans (ih (t.apply c))

/-- No call of the sequence retains a handle that is in the pool at the time. -/
def RetainsHeld : ValueTable → List TableCall → Prop
  | _, [] => True
  | t, c :: calls => (∀ id, c = .retain id → id ∉ t.free) ∧ RetainsHeld (t.apply c) calls

theorem Consistent.apply (h : Consistent global bridge t) (c : TableCall)
    (hc : ∀ id, c = .retain id → id ∉ t.free) (hsize : (t.apply c).entries.size ≤ 2 ^ 32) :
    Consistent global bridge (t.apply c) := by
  cases c with
  | store v => exact h.store v hsize
  | retain id => exact h.retain (hc id rfl)
  | release id => exact h.release id

theorem Consistent.run (h : Consistent global bridge t) (calls : List TableCall)
    (hcalls : RetainsHeld t calls) (hsize : (t.run calls).entries.size ≤ 2 ^ 32) :
    Consistent global bridge (t.run calls) := by
  induction calls generalizing t with
  | nil => exact h
  | cons c calls ih =>
    exact ih (h.apply c hcalls.1 ((size_le_run _ calls).trans hsize)) hcalls.2 hsize

theorem retainsHeld_of_no_retain (t : ValueTable) (calls : List TableCall)
    (h : ∀ id, .retain id ∉ calls) : RetainsHeld t calls := by
  induction calls generalizing t with
  | nil => trivial
  | cons c calls ih =>
    refine ⟨fun id hc => absurd (hc ▸ List.mem_cons_self) (h id), ih _ fun id hid => ?_⟩
    exact h id (List.mem_cons_of_mem c hid)

/-- Whatever is stored and released, the reserved handles stay as they are, entries, identities
and pool agree, a value that is held keeps its handle, and the live handles are as many as the
values held. -/
theorem representation_invariant {g b : Nat} (hgb : g ≠ b) (calls : List TableCall)
    (hcalls : ∀ id, .retain id ∉ calls)
    (hsize : ((new (.object g) (.object b)).run calls).entries.size < 2 ^ 32) :
    let t := (new (.object g) (.object b)).run calls
    Consistent (.object g) (.object b) t ∧
      (∀ v id, t.load id = .ok v.canonical → (t.store v).1.handle? = some id) ∧
      t.liveHandles = Set.ncard
        {v | v ∉ reservedValues (.object g) (.object b) ∧ ∃ id, t.load id = .ok v} := by
  intro t
  have h : Consistent (.object g) (.object b) t :=
    (new_consistent hgb).run calls (retainsHeld_of_no_retain _ calls hcalls) (Nat.le_of_lt hsize)
  exact ⟨h, fun v id hv => h.handle?_store rfl rfl hv, h.liveHandles_eq (Nat.le_of_lt hsize)⟩

/-- The handle of a released text is given to an object, and the text stored again gets another. -/
theorem representation_invariant_recycled :
    let calls : List TableCall :=
      [.store (.string "a"), .release 7, .release 7, .store (.object 5), .store (.string "a")]
    let t := (new (.object 0) (.object 1)).run calls
    (∀ id, .retain id ∉ calls) ∧ t.entries.size < 2 ^ 32 ∧
      Consistent (.object 0) (.object 1) t ∧
      (t.store (.object 5)).1.handle? = some 7 ∧ (t.store (.string "a")).1.handle? = some 8 := by
  intro calls t
  have hcalls : ∀ id, .retain id ∉ calls := by simp [calls]
  have hsize : t.entries.size < 2 ^ 32 := by decide +kernel
  obtain ⟨h, hstore, -⟩ := representation_invariant (g := 0) (b := 1) (by decide) calls hcalls hsize
  exact ⟨hcalls, hsize, h, hstore _ 7 (by decide +kernel), hstore _ 8 (by decide +kernel)⟩

end ValueTable

end TokenizerHost
