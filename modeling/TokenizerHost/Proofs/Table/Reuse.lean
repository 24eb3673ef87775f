import TokenizerHost.Proofs.Table.Consistency

set_option autoImplicit false

/-!
# When a handle is given out again

A handle that is held must not be given to another value. `ReuseSafe` says so for a sequence of
calls, and it holds as long as no handle is retained that is in the pool. Retaining such a handle
counts a reference to nothing; its release puts the handle into the pool a second time, and two
values are then given it. `reuseSafe_exact` says both: the calls before are safe, and a retained
handle can be given out twice exactly if it is in the pool.
-/

namespace TokenizerHost.ValueTable

variable {global bridge : Value} {t t' : ValueTable} {id j : UInt32} {v w : Value} {k : Identity}

/-- Whether somebody holds a handle: it is reserved, or its count is positive. -/
def Held (t : ValueTable) (id : UInt32) : Prop :=
  id.toNat < reservedHandles ∨ ∃ n, t.refcount? id = some n ∧ 0 < n

def HeldThrough (id : UInt32) : ValueTable → List TableCall → Prop
  | t, [] => t.Held id
  | t, c :: calls => t.Held id ∧ HeldThrough id (t.apply c) calls

/-- A value that no handle names is handed out under a handle that names nothing. -/
def FreshStore (t : ValueTable) (v : Value) : Prop :=
  (∀ id, t.load id ≠ .ok v.canonical) →
    ∀ id, (t.store v).1.handle? = some id → ∀ w, t.load id ≠ .ok w

structure ReuseSafe (t : ValueTable) (calls : List TableCall) : Prop where
  fresh : ∀ before v after, calls = before ++ .store v :: after → FreshStore (t.run before) v
  /-- A handle goes on naming its value as long as it is held. -/
  steady : ∀ before between after id v, calls = before ++ between ++ after →
    (t.run before).load id = .ok v → HeldThrough id (t.run before) between →
    (t.run (before ++ between)).load id = .ok v
  /-- Two values that are held at one time do not share a handle. -/
  apart : ∀ before v between w after id, calls = before ++ .store v :: (between ++ .store w :: after) →
    ((t.run before).store v).1.handle? = some id →
    HeldThrough id ((t.run before).store v).2 between →
    (((t.run before).store v).2.run between |>.store w).1.handle? = some id →
    w.canonical = v.canonical

theorem retainsHeld_append {a b : List TableCall} :
    RetainsHeld t (a ++ b) ↔ RetainsHeld t a ∧ RetainsHeld (t.run a) b := by
  induction a generalizing t with
  | nil => simp [RetainsHeld, run]
  | cons c a ih =>
    simp only [List.cons_append, RetainsHeld, ih, and_assoc]
    rfl

theorem ReuseSafe.of_append {a b : List TableCall} (h : ReuseSafe t (a ++ b)) :
    ReuseSafe (t.run a) b := by
  refine ⟨?_, ?_, ?_⟩
  · intro before v after hsplit
    have := h.fresh (a ++ before) v after (by rw [hsplit, List.append_assoc])
    rwa [run_append] at this
  · intro before between after id v hsplit hv hheld
    have := h.steady (a ++ before) between after id v (by rw [hsplit]; simp only [List.append_assoc])
    simp only [run_append] at this hv hheld ⊢
    exact this hv hheld
  · intro before v between w after id hsplit hid hheld hw
    have := h.apart (a ++ before) v between w after id (by rw [hsplit, List.append_assoc])
    rw [run_append] at this
    exact this hid hheld hw

namespace Consistent

theorem load_of_held (h : Consistent global bridge t) (hid : t.Held id) :
    ∃ v, t.load id = .ok v := by
  rcases hid with hlt | ⟨n, hn, hpos⟩
  · have hlen : id.toNat < (reservedValues global bridge).length := hlt
    exact ⟨_, (h.load_reserved hlt).2 (List.getElem?_eq_getElem hlen)⟩
  · obtain ⟨w, he⟩ : ∃ w, t.lookup? id = some ⟨w, .live n⟩ := by
      unfold refcount? at hn
      split at hn
      next w m he => cases hn; exact ⟨w, he⟩
      next => cases hn
    have hge : reservedHandles ≤ id.toNat := by
      by_contra hlt
      exact h.lookup?_ne_live (Nat.lt_of_not_le hlt) w n he
    obtain ⟨m, hc, hsome, -⟩ := h.counted id _ hge he
    cases hc
    obtain ⟨v, rfl⟩ := Option.isSome_iff_exists.1 (hsome.2 hpos)
    exact ⟨v, by rw [load_eq_ok_iff, he]; rfl⟩

theorem load_store (h : Consistent global bridge t) (hsize : (t.store v).2.entries.size ≤ 2 ^ 32)
    (hid : (t.store v).1.handle? = some id) : (t.store v).2.load id = .ok v.canonical := by
  rcases h.store_cases v hsize with ⟨ht, hres⟩ | ⟨i, n, hs, -, hcanon, he, -, ht⟩ |
    ⟨i, k, hs, hcanon, -, -, ha⟩
  · rw [ht]
    exact (hres id hid).2
  · rw [hs] at hid
    cases hid
    rw [ht, hcanon, load_recount he, load_eq_ok_iff, he]
    rfl
  · rw [hs] at hid
    cases hid
    rw [hcanon, ha.load_eq_ok_iff, if_pos rfl]

theorem resolve_store (h : Consistent global bridge t)
    (hsize : (t.store v).2.entries.size ≤ 2 ^ 32) :
    (t.store v).2.resolve (t.store v).1 = .ok v.canonical := by
  have hhandle : ∀ id tag, (t.store v).1 = .ref id tag →
      (t.store v).2.resolve (t.store v).1 = .ok v.canonical := by
    intro id tag hslot
    have hid : (t.store v).1.handle? = some id := by rw [hslot]; rfl
    rw [hslot]
    exact h.load_store hsize hid
  cases v with
  | undefined => rfl
  | null => exact hhandle _ _ rfl
  | bool b => cases b <;> exact hhandle _ _ rfl
  | number n =>
    by_cases hnan : n.isNaN = true
    · exact hhandle nanHandle .none (by simp only [ValueTable.store, if_pos hnan])
    · by_cases hzero : n.isZero = true
      · exact hhandle zeroHandle .none (by simp only [ValueTable.store, if_neg hnan, if_pos hzero])
      · simp only [ValueTable.store, Value.canonical, if_neg hnan, if_neg hzero, resolve]
  | string | symbol | object | array | bytes | function =>
    exact hhandle _ _ (by rw [store_of_identity rfl])

theorem freshStore (h : Consistent global bridge t)
    (hsize : (t.store v).2.entries.size ≤ 2 ^ 32) : FreshStore t v := by
  intro hnew id hid w hw
  rcases h.store_cases v hsize with ⟨-, hres⟩ | ⟨i, n, hs, -, hcanon, he, -, -⟩ |
    ⟨i, k, hs, -, -, -, ha⟩
  · exact hnew id (hres id hid).2
  · exact hnew i (by rw [hcanon, load_eq_ok_iff, he]; rfl)
  · rw [hs] at hid
    cases hid
    cases hw.symm.trans (h.allocated_source ha).2.1

/-- No call makes a live handle name another value. -/
theorem load_apply (h : Consistent global bridge t) (c : TableCall)
    (hc : ∀ id, c = .retain id → id ∉ t.free) (hsize : (t.apply c).entries.size ≤ 2 ^ 32)
    (hv : t.load id = .ok v) (hw : (t.apply c).load id = .ok w) : w = v := by
  have same : (t.apply c).load id = t.load id → w = v := fun hsame =>
    Except.ok.inj ((hw.symm.trans hsame).trans hv)
  cases c with
  | store x =>
    rcases h.store_cases x hsize with ⟨ht, -⟩ | ⟨i, n, -, -, -, he, -, ht⟩ | ⟨i, k, -, -, -, -, ha⟩
    · exact same (by rw [show t.apply (.store x) = t from ht])
    · exact same (by rw [show t.apply (.store x) = _ from ht, load_recount he])
    · change (t.store x).2.load id = .ok w at hw
      rw [ha.load_eq_ok_iff] at hw
      split at hw
      next hi =>
        rw [hi] at hv
        cases hv.symm.trans (h.allocated_source ha).2.1
      next => exact Except.ok.inj (hw.symm.trans hv)
  | retain i =>
    rcases h.retain_cases (hc i rfl) with ht | ⟨x, n, -, he, ht⟩
    · exact same (by rw [show t.apply (.retain i) = t from ht])
    · exact same (by rw [show t.apply (.retain i) = _ from ht, load_recount he])
  | release i =>
    rcases h.release_cases i with ⟨ht, -⟩ | ⟨x, n, -, he, ⟨-, ht⟩ | ⟨-, ht⟩⟩
    · exact same (by rw [show t.apply (.release i) = t from ht])
    · exact same (by rw [show t.apply (.release i) = _ from ht, load_recount he])
    · rw [show t.apply (.release i) = _ from ht, load_reclaim (lt_size_of_lookup? he)] at hw
      exact Except.ok.inj (hw.2.symm.trans hv)

/-- A live handle that is held through the calls names at their end what it named before them. -/
theorem load_run (h : Consistent global bridge t) {calls : List TableCall}
    (hcalls : RetainsHeld t calls) (hsize : (t.run calls).entries.size ≤ 2 ^ 32)
    (hv : t.load id = .ok v) (hheld : HeldThrough id t calls) : (t.run calls).load id = .ok v := by
  induction calls generalizing t with
  | nil => exact hv
  | cons c calls ih =>
    have hfit : (t.apply c).entries.size ≤ 2 ^ 32 := (size_le_run _ calls).trans hsize
    have hnext := h.apply c hcalls.1 hfit
    have hlater : (t.apply c).Held id := by
      cases calls with
      | nil => exact hheld.2
      | cons => exact hheld.2.1
    obtain ⟨w, hw⟩ := hnext.load_of_held hlater
    obtain rfl := h.load_apply c hcalls.1 hfit hv hw
    exact ih hnext hcalls.2 hsize hw hheld.2

/-- Calls that retain nothing from the pool never give a held handle to another value. -/
theorem reuseSafe (h : Consistent global bridge t) {calls : List TableCall}
    (hcalls : RetainsHeld t calls) (hsize : (t.run calls).entries.size ≤ 2 ^ 32) :
    ReuseSafe t calls := by
  refine ⟨?_, ?_, ?_⟩
  · intro before v after hsplit
    rw [hsplit, retainsHeld_append] at hcalls
    rw [hsplit, run_append] at hsize
    have hfit : ((t.run before).store v).2.entries.size ≤ 2 ^ 32 := (size_le_run _ after).trans hsize
    exact (h.run before hcalls.1 ((size_le_store _ v).trans hfit)).freshStore hfit
  · intro before between after id v hsplit hv hheld
    rw [hsplit, retainsHeld_append, retainsHeld_append] at hcalls
    rw [hsplit, run_append] at hsize
    have hfit := (size_le_run _ after).trans hsize
    rw [run_append] at hfit ⊢
    exact (h.run before hcalls.1.1 ((size_le_run _ between).trans hfit)).load_run hcalls.1.2 hfit hv
      hheld
  · intro before v between w after id hsplit hid hheld hw
    rw [hsplit, retainsHeld_append] at hcalls
    rw [hsplit, run_append] at hsize
    obtain ⟨hbefore, -, hrest⟩ := hcalls
    rw [retainsHeld_append] at hrest
    have hsize' : (((((t.run before).store v).2.run between).store w).2.run after).entries.size ≤
        2 ^ 32 := by
      change ((((t.run before).store v).2.run (between ++ .store w :: after)).entries.size ≤ _) at hsize
      rw [run_append] at hsize
      exact hsize
    have hfit3 := (size_le_run _ after).trans hsize'
    have hfit2 := (size_le_store _ w).trans hfit3
    have hfit1 := (size_le_run _ between).trans hfit2
    have h1 := h.run before hbefore ((size_le_store _ v).trans hfit1)
    have h2 := h1.store v hfit1
    have hlive := h2.load_run hrest.1 hfit2 (h1.load_store hfit1 hid) hheld
    have h3 := h2.run between hrest.1 hfit2
    have hgiven := h3.load_store hfit3 hw
    exact h3.load_apply (.store w) (fun i hi => by cases hi) hfit3 hlive hgiven

end Consistent

/-! ## Retaining a handle of the pool -/

def UnknownFrom (t : ValueTable) (n : Nat) : Prop :=
  ∀ m, n ≤ m → t.ids.find? (.object m) = none ∧ ∀ id, t.load id ≠ .ok (.object m)

theorem lookup_object_unbounded (entries : List (Identity × UInt32)) :
    ∃ n, ∀ m, n ≤ m → entries.lookup (.object m) = none := by
  induction entries with
  | nil => exact ⟨0, fun _ _ => rfl⟩
  | cons e entries ih =>
    obtain ⟨n, hn⟩ := ih
    obtain ⟨k, i⟩ := e
    obtain ⟨a, ha⟩ : ∃ a, ∀ m, a ≤ m → Identity.object m ≠ k := by
      cases k with
      | object a => exact ⟨a + 1, fun m hm => by simp; omega⟩
      | text | symbol | array | bytes | function => exact ⟨0, fun m _ => by simp⟩
    refine ⟨max n a, fun m hm => ?_⟩
    have hne : (Identity.object m == k) = false := by simpa using ha m (le_of_max_le_right hm)
    rw [List.lookup_cons, hne]
    exact hn m (le_of_max_le_left hm)

theorem Consistent.exists_unknownFrom (h : Consistent global bridge t) : ∃ n, t.UnknownFrom n := by
  obtain ⟨n, hn⟩ := lookup_object_unbounded t.ids.entries
  refine ⟨n, fun m hm => ⟨hn m hm, fun id hid => ?_⟩⟩
  have := (h.ids_iff (.object m) id).2 ⟨_, hid, rfl⟩
  rw [show t.ids.find? (.object m) = none from hn m hm] at this
  cases this

theorem store_object_of_pool {rest : List UInt32} {n : Nat} (hfree : t.free = id :: rest)
    (hpool : ∀ i ∈ t.free, i.toNat < t.entries.size) (hnew : t.UnknownFrom n) :
    (t.store (.object n)).1 = .ref id .object ∧
      Allocates t (.object n) (.object n) id (t.store (.object n)).2 := by
  have hlt := hpool id (by simp [hfree])
  obtain ⟨ha, hid⟩ := allocates_from_pool (v := .object n) (k := .object n) hfree hlt
  have hs : t.store (.object n) = (.ref id .object, (t.allocate (.object n) (.object n)).2.retain id) := by
    rw [store_of_identity (k := .object n) rfl]
    simp only [intern, (hnew n (Nat.le_refl n)).1, hid]
    rfl
  rw [hs]
  exact ⟨rfl, ha⟩

theorem Allocates.unknownFrom {n : Nat} (ha : Allocates t (.object n) (.object n) id t')
    (hnew : t.UnknownFrom n) : t'.UnknownFrom (n + 1) := by
  intro m hm
  refine ⟨?_, fun i hi => ?_⟩
  · rw [ha.ids, Assoc.find?_insert, if_neg (by simp; omega)]
    exact (hnew m (by omega)).1
  · rw [ha.load_eq_ok_iff] at hi
    split at hi
    · cases hi
      omega
    · exact (hnew m (by omega)).2 i hi

/-- Where a live handle is in the pool, storing objects gets to it. -/
theorem exists_unfresh_store {before : List UInt32} (hlive : ∃ w, t.load id = .ok w)
    (hpool : ∀ i ∈ t.free, i.toNat < t.entries.size) {n : Nat} (hnew : t.UnknownFrom n)
    {after : List UInt32} (hfree : t.free = before ++ id :: after) (hid : id ∉ before) :
    ∃ (stores : List TableCall) (v : Value), (∀ i, .retain i ∉ stores) ∧
      (t.run (stores ++ [.store v])).entries.size = t.entries.size ∧
      ¬ FreshStore (t.run stores) v := by
  induction before generalizing t n with
  | nil =>
    obtain ⟨hs, ha⟩ := store_object_of_pool hfree hpool hnew
    obtain ⟨w, hw⟩ := hlive
    refine ⟨[], .object n, by simp, ha.size_eq (by simp [hfree]), fun hfresh => ?_⟩
    exact hfresh (hnew n (Nat.le_refl n)).2 id (by rw [show t.run [] = t from rfl, hs]; rfl) w hw
  | cons first before ih =>
    obtain ⟨hs, ha⟩ := store_object_of_pool hfree hpool hnew
    have hsize : (t.store (.object n)).2.entries.size = t.entries.size :=
      ha.size_eq (by simp [hfree])
    obtain ⟨w, hw⟩ := hlive
    have hne : id ≠ first := fun hc => hid (hc ▸ List.mem_cons_self)
    have hrest : (t.store (.object n)).2.free = before ++ id :: after := by rw [ha.free, hfree]; rfl
    obtain ⟨stores, v, hstores, hfit, hbad⟩ := ih (t := (t.store (.object n)).2)
      ⟨w, by rwa [ha.load_eq_ok_iff, if_neg hne]⟩
      (fun i hi => by
        rw [hsize]
        rw [ha.free] at hi
        exact hpool i (List.mem_of_mem_tail hi))
      (ha.unknownFrom hnew) hrest (fun hc => hid (List.mem_cons_of_mem _ hc))
    refine ⟨.store (.object n) :: stores, v, by simpa using hstores, ?_, hbad⟩
    exact hfit.trans hsize

/-- A handle of the pool that is retained and released stands in the pool twice. -/
theorem release_retain_of_mem_free (h : Consistent global bridge t) (hid : id ∈ t.free) :
    ((t.retain id).release id).free = id :: t.free ∧
      ((t.retain id).release id).ids = t.ids ∧
      ∀ j, ((t.retain id).release id).lookup? j = t.lookup? j := by
  have he := h.entry_of_mem_free hid
  have hlt := lt_size_of_lookup? he
  have hret : t.retain id = t.setEntry id ⟨none, .live 1⟩ := retain_of_live he
  have hlt' : id.toNat < (t.retain id).entries.size := by rwa [size_retain]
  have hrel : (t.retain id).release id = (t.retain id).reclaim id none :=
    release_last (by rw [hret, lookup?_setEntry hlt, if_pos rfl])
  rw [hrel]
  refine ⟨by rw [hret]; rfl, by rw [hret]; rfl, fun j => ?_⟩
  rw [lookup?_reclaim hlt', hret, lookup?_setEntry hlt]
  split
  next hj => rw [hj, he]
  next => rfl

theorem exists_unsafe_reuse (h : Consistent global bridge t) (hid : id ∈ t.free) :
    ∃ later : List TableCall, (∀ i, .retain i ∉ later) ∧
      ((t.retain id).run later).entries.size = t.entries.size ∧
      ¬ ReuseSafe t (.retain id :: later) := by
  obtain ⟨n, hn⟩ := h.exists_unknownFrom
  obtain ⟨hfree, hids, hentry⟩ := release_retain_of_mem_free h hid
  let u := (t.retain id).release id
  have husize : u.entries.size = t.entries.size := by simp only [u, size_release, size_retain]
  have hu : u.UnknownFrom n := fun m hm =>
    ⟨by rw [hids]; exact (hn m hm).1, fun i hi => (hn m hm).2 i (by rw [← load_congr (hentry i)]; exact hi)⟩
  have hpool : ∀ i ∈ u.free, i.toNat < u.entries.size := by
    intro i hi
    rw [husize]
    rw [show u.free = id :: t.free from hfree, List.mem_cons] at hi
    rcases hi with rfl | hi
    · exact (h.free_mem i hid).2
    · exact (h.free_mem i hi).2
  -- The first object takes one of the two places of the handle in the pool; the other is left.
  have ha : Allocates u (.object n) (.object n) id (u.store (.object n)).2 :=
    (store_object_of_pool hfree hpool hu).2
  have hsize1 : (u.store (.object n)).2.entries.size = t.entries.size :=
    (ha.size_eq (by simp [u, hfree])).trans husize
  obtain ⟨before, after, hsplit, hnot⟩ : ∃ before after, t.free = before ++ id :: after ∧ id ∉ before := by
    obtain ⟨before, after, hsplit⟩ := List.append_of_mem hid
    have hnodup := h.free_nodup
    rw [hsplit, List.nodup_append] at hnodup
    exact ⟨before, after, hsplit, fun hmem => hnodup.2.2 id hmem id List.mem_cons_self rfl⟩
  have hlive : (u.store (.object n)).2.load id = .ok (.object n) := by
    rw [ha.load_eq_ok_iff, if_pos rfl]
  obtain ⟨stores, v, hstores, hfit, hbad⟩ := exists_unfresh_store ⟨_, hlive⟩
    (fun i hi => by
      rw [hsize1, ← husize]
      rw [ha.free] at hi
      exact hpool i (List.mem_of_mem_tail hi))
    (ha.unknownFrom hu) (by rw [ha.free, hfree]; exact hsplit) hnot
  have hrun : (t.retain id).run (.release id :: .store (.object n) :: (stores ++ [.store v])) =
      (u.store (.object n)).2.run (stores ++ [.store v]) := rfl
  refine ⟨.release id :: .store (.object n) :: (stores ++ [.store v]), by simpa using hstores, ?_, ?_⟩
  · rw [hrun]
    exact hfit.trans hsize1
  · intro hsafe
    refine hbad ?_
    exact hsafe.fresh (.retain id :: .release id :: .store (.object n) :: stores) v [] (by simp)

/-- A table is safe as long as nothing is retained that is in the pool, and not beyond: a handle
that is retained can be given out twice, by later stores and releases alone, exactly if it is in
the pool. -/
theorem reuseSafe_exact {g b : Nat} (hgb : g ≠ b) (calls : List TableCall)
    (hcalls : RetainsHeld (new (.object g) (.object b)) calls) (id : UInt32)
    (hsize : ((new (.object g) (.object b)).run calls).entries.size < 2 ^ 32) :
    ReuseSafe (new (.object g) (.object b)) calls ∧
      (id ∈ ((new (.object g) (.object b)).run calls).free ↔
        ∃ later : List TableCall, (∀ i, .retain i ∉ later) ∧
          ((new (.object g) (.object b)).run (calls ++ .retain id :: later)).entries.size < 2 ^ 32 ∧
          ¬ ReuseSafe (new (.object g) (.object b)) (calls ++ .retain id :: later)) := by
  have hnew := new_consistent hgb
  refine ⟨hnew.reuseSafe hcalls (Nat.le_of_lt hsize), ?_, ?_⟩
  · intro hid
    have h := hnew.run calls hcalls (Nat.le_of_lt hsize)
    obtain ⟨later, hlater, hfit, hbad⟩ := exists_unsafe_reuse h hid
    refine ⟨later, hlater, ?_, fun hsafe => hbad ?_⟩
    · rw [run_append]
      exact lt_of_eq_of_lt hfit hsize
    · exact hsafe.of_append
  · rintro ⟨later, hlater, hfit, hbad⟩
    by_contra hid
    refine hbad (hnew.reuseSafe ?_ (Nat.le_of_lt hfit))
    rw [retainsHeld_append]
    refine ⟨hcalls, ?_, retainsHeld_of_no_retain _ later hlater⟩
    rintro i ⟨⟩
    exact hid

/-- An object that is stored, released and retained once more. -/
theorem reuseSafe_exact_released :
    (7 : UInt32) ∈ ((new (.object 0) (.object 1)).run [.store (.object 2), .release 7]).free ∧
      ∃ later : List TableCall, (∀ i, .retain i ∉ later) ∧
        ((new (.object 0) (.object 1)).run
          ([.store (.object 2), .release 7] ++ .retain 7 :: later)).entries.size < 2 ^ 32 ∧
        ¬ ReuseSafe (new (.object 0) (.object 1))
          ([.store (.object 2), .release 7] ++ .retain 7 :: later) := by
  have hid : (7 : UInt32) ∈
      ((new (.object 0) (.object 1)).run [.store (.object 2), .release 7]).free := by
    decide +kernel
  have hexact := reuseSafe_exact (g := 0) (b := 1) (by decide) [.store (.object 2), .release 7]
    (retainsHeld_of_no_retain _ _ (by simp)) 7 (by decide +kernel)
  exact ⟨hid, hexact.2.1 hid⟩

/-- The second of two strings is given the handle that the first one holds. -/
theorem reuse_after_dead_retain :
    ¬ ReuseSafe (new (.object 0) (.object 1)) [.store (.object 2), .release 7, .retain 7,
      .release 7, .store (.string "a"), .store (.string "b")] := by
  intro hsafe
  have hshared := hsafe.apart [.store (.object 2), .release 7, .retain 7, .release 7] (.string "a")
    [] (.string "b") [] 7 rfl (by decide +kernel) (.inr ⟨1, by decide +kernel, by decide⟩)
    (by decide +kernel)
  exact absurd hshared (by decide +kernel)

end TokenizerHost.ValueTable
