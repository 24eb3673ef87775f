import TokenizerHost.Proofs.Run.Exit
import TokenizerHost.Proofs.Table.Consistency

set_option autoImplicit false

/-!
# Reference accounting over a whole run

The account of a handle is read off the journal: the value it was last allocated to, how many slots
naming it the guest has been handed since, and how often it has been finalized since. As long as
every import succeeds, the table agrees with every account at every moment of a run
(`reference_accounting`): a handle with more slots handed out than finalized names its value and
its count is the difference, and any other handle names nothing.
-/

namespace TokenizerHost

open Host

structure Account where
  value : Value
  handed : Nat
  finalized : Nat
  deriving DecidableEq

namespace Account

/-- How an event changes the account of a handle. -/
def book (id : UInt32) : Event → Option Account → Option Account
  | .allocated i v, a => if i = id then some ⟨v, 0, 0⟩ else a
  | .handed _ slot, a =>
    if slot.handle? = some id then a.map fun a => { a with handed := a.handed + 1 } else a
  | .finalized i, a =>
    if i = id then a.map fun a => { a with finalized := a.finalized + 1 } else a
  | _, a => a

def of (id : UInt32) (journal : List Event) : Option Account := journal.foldr (book id) none

theorem of_cons (id : UInt32) (e : Event) (journal : List Event) :
    of id (e :: journal) = book id e (of id journal) := rfl

end Account

namespace ValueTable

variable {global bridge : Value} {t : ValueTable} {id i : UInt32} {v : Value} {k : Identity}
  {a : Option Account}

/-- A handle is as its account says. -/
def Agrees (t : ValueTable) (id : UInt32) : Option Account → Prop
  | none => t.load id = .error (.invalidHandle id)
  | some a =>
    if a.finalized < a.handed then
      ∃ n : UInt32, t.lookup? id = some ⟨some a.value, .live n⟩ ∧ n.toNat + a.finalized = a.handed
    else t.load id = .error (.invalidHandle id)

theorem agrees_some {x : Account} : t.Agrees id (some x) ↔
    (∃ n : UInt32, t.lookup? id = some ⟨some x.value, .live n⟩ ∧ x.finalized < x.handed ∧
      n.toNat + x.finalized = x.handed) ∨
    x.handed ≤ x.finalized ∧ t.load id = .error (.invalidHandle id) := by
  change (if _ then _ else _) ↔ _
  by_cases hlt : x.finalized < x.handed
  · rw [if_pos hlt]
    constructor
    · rintro ⟨n, hn, hcount⟩
      exact .inl ⟨n, hn, hlt, hcount⟩
    · rintro (⟨n, hn, -, hcount⟩ | ⟨hle, -⟩)
      · exact ⟨n, hn, hcount⟩
      · omega
  · rw [if_neg hlt]
    constructor
    · exact fun h => .inr ⟨Nat.le_of_not_lt hlt, h⟩
    · rintro (⟨n, -, hlt', -⟩ | ⟨-, h⟩)
      · exact absurd hlt' hlt
      · exact h

namespace Agrees

theorem congr {t' : ValueTable} (h : t.Agrees id a) (he : t'.lookup? id = t.lookup? id) :
    t'.Agrees id a := by
  cases a with
  | none => exact (load_congr he).trans h
  | some x => rwa [agrees_some, he, load_congr he, ← agrees_some]

theorem of_entry {x : Account} {n : UInt32} (he : t.lookup? id = some ⟨some x.value, .live n⟩)
    (hn : 0 < n.toNat) (hcount : n.toNat + x.finalized = x.handed) : t.Agrees id (some x) :=
  agrees_some.2 (.inl ⟨n, he, by omega, hcount⟩)

theorem other {e e' : TableEntry} (h : t.Agrees id a) (he : t.lookup? i = some e) (hne : id ≠ i) :
    (t.setEntry i e').Agrees id a :=
  h.congr (by rw [lookup?_setEntry (lt_size_of_lookup? he), if_neg hne])

theorem of_live {n : UInt32} (h : t.Agrees id a) (he : t.lookup? id = some ⟨some v, .live n⟩) :
    ∃ x, a = some x ∧ x.value = v ∧ n.toNat + x.finalized = x.handed := by
  have hload : t.load id ≠ .error (.invalidHandle id) := by
    rw [ne_eq, load_eq_error_iff, he]
    simp
  cases a with
  | none => exact absurd h hload
  | some x =>
    rcases agrees_some.1 h with ⟨m, hm, -, hcount⟩ | ⟨-, herr⟩
    · rw [he] at hm
      cases hm
      exact ⟨x, rfl, rfl, hcount⟩
    · exact absurd herr hload

theorem of_dead (h : t.Agrees id a) (he : t.load id = .error (.invalidHandle id)) :
    ∀ x, a = some x → x.handed ≤ x.finalized := by
  rintro x rfl
  rcases agrees_some.1 h with ⟨n, hn, -, -⟩ | ⟨hle, -⟩
  · rw [load_eq_error_iff, hn] at he
    simp at he
  · exact hle

theorem dead (he : t.load id = .error (.invalidHandle id))
    (ha : ∀ x, a = some x → x.handed ≤ x.finalized) : t.Agrees id a := by
  cases a with
  | none => exact he
  | some x => exact agrees_some.2 (.inr ⟨ha x rfl, he⟩)

end Agrees

theorem allocates?_of_known (h : t.ids.find? k = some id) (hv : v.identity? = some k) :
    t.allocates? v = none := by
  simp [allocates?, hv, h]

theorem allocates?_of_fresh (h : t.ids.find? k = none) (hv : v.identity? = some k)
    (hs : (t.store v).1 = .ref id v.tag) : t.allocates? v = some id := by
  rw [store_of_identity hv] at hs
  simp only [intern, h] at hs
  cases hs
  simp [allocates?, hv, h]

theorem toNat_succSaturating {n : UInt32} (h : n.toNat + 1 < UInt32.size) :
    (succSaturating n).toNat = n.toNat + 1 := by
  rw [succSaturating, if_pos h, UInt32.toNat_add, UInt32.toNat_one, Nat.mod_eq_of_lt h]

namespace Consistent

def bookStore (t : ValueTable) (v : Value) (address : Nat) (id : UInt32) (a : Option Account) :
    Option Account :=
  Account.book id (.handed address (t.store v).1)
    (match t.allocates? v with
      | some i => Account.book id (.allocated i v) a
      | none => a)

theorem allocates?_of_reserved (h : Consistent global bridge t)
    (hres : ∀ id, (t.store v).1.handle? = some id → t.load id = .ok v.canonical) :
    t.allocates? v = none := by
  cases hv : v.identity? with
  | none => simp [allocates?, hv]
  | some k =>
    have hload := hres (t.intern v k).1 (by rw [store_of_identity hv]; rfl)
    rw [Value.canonical_of_identity hv] at hload
    exact allocates?_of_known ((h.ids_iff k _).2 ⟨v, hload, hv⟩) hv

theorem agrees_recount {n : UInt32} (he : t.lookup? i = some ⟨some v, .live n⟩) (address : Nat)
    (tag : TypeTag) (ha : t.Agrees id a)
    (hfit : ∀ x, Account.book id (.handed address (.ref i tag)) a = some x →
      x.handed - x.finalized < 2 ^ 32) :
    (t.setEntry i ⟨some v, .live (succSaturating n)⟩).Agrees id
      (Account.book id (.handed address (.ref i tag)) a) := by
  by_cases hi : i = id
  · subst hi
    obtain ⟨x, rfl, rfl, hcount⟩ := ha.of_live he
    simp only [Account.book, Slot.handle?, if_true, Option.map_some] at hfit ⊢
    have hlt := hfit _ rfl
    dsimp only at hlt
    have hsucc := toNat_succSaturating (n := n) (by rw [UInt32.size]; omega)
    refine .of_entry (n := succSaturating n) ?_ (by omega) ?_
    · rw [lookup?_setEntry (lt_size_of_lookup? he), if_pos rfl]
    · dsimp only
      omega
  · have hother : (Slot.ref i tag).handle? ≠ some id := fun hc => hi (by cases hc; rfl)
    simp only [Account.book, if_neg hother]
    exact ha.other he (Ne.symm hi)

theorem agrees_allocate {t' : ValueTable} (halloc : Allocates t v k i t') (address : Nat)
    (tag : TypeTag) (ha : t.Agrees id a) :
    t'.Agrees id (Account.book id (.handed address (.ref i tag))
      (Account.book id (.allocated i v) a)) := by
  by_cases hi : i = id
  · subst hi
    simp only [Account.book, Slot.handle?, if_true, Option.map_some]
    exact .of_entry (n := 1) (by rw [halloc.lookup?, if_pos rfl]) Nat.one_pos rfl
  · have hother : (Slot.ref i tag).handle? ≠ some id := fun hc => hi (by cases hc; rfl)
    simp only [Account.book, if_neg hother, if_neg hi]
    exact ha.congr (by rw [halloc.lookup?, if_neg (Ne.symm hi)])

theorem agrees_store (h : Consistent global bridge t)
    (hsize : (t.store v).2.entries.size ≤ 2 ^ 32) (address : Nat) (hid : reservedHandles ≤ id.toNat)
    (ha : t.Agrees id a)
    (hfit : ∀ x, bookStore t v address id a = some x → x.handed - x.finalized < 2 ^ 32) :
    (t.store v).2.Agrees id (bookStore t v address id a) := by
  unfold bookStore at hfit ⊢
  rcases h.store_cases v hsize with ⟨ht, hres⟩ | ⟨i, n, hs, hge, -, he, -, ht⟩ |
    ⟨i, k, hs, -, hk, hnew, halloc⟩
  · have hother : (t.store v).1.handle? ≠ some id := by
      intro hc
      have := (hres id hc).1
      omega
    rw [h.allocates?_of_reserved fun id hid => (hres id hid).2, ht]
    simpa only [Account.book, if_neg hother] using ha
  · have hload : t.load i = .ok v := by
      rw [load_eq_ok_iff, he]
      rfl
    obtain ⟨k, hk⟩ := h.identified i v hge hload
    rw [allocates?_of_known ((h.ids_iff k i).2 ⟨v, hload, hk⟩) hk, hs] at hfit ⊢
    rw [ht]
    exact agrees_recount he address v.tag ha hfit
  · rw [allocates?_of_fresh hnew hk hs, hs]
    exact agrees_allocate halloc address v.tag ha

theorem agrees_release (h : Consistent global bridge t) (i : UInt32)
    (hid : reservedHandles ≤ id.toNat) (ha : t.Agrees id a) :
    (t.release i).Agrees id (Account.book id (.finalized i) a) := by
  by_cases hi : i = id
  · subst hi
    simp only [Account.book, if_true]
    rcases h.release_cases i with ⟨ht, hdead⟩ | ⟨v, n, -, he, hcase⟩
    · have herr : t.load i = .error (.invalidHandle i) := by
        rcases hdead with hlt | herr
        · omega
        · exact herr
      rw [ht]
      refine .dead herr fun x hx => ?_
      obtain ⟨y, rfl, rfl⟩ := Option.map_eq_some_iff.1 hx
      have := ha.of_dead herr y rfl
      dsimp only
      omega
    · obtain ⟨x, rfl, rfl, hcount⟩ := ha.of_live he
      rcases hcase with ⟨hn, ht⟩ | ⟨rfl, ht⟩
      · have hn' : 1 < n.toNat := UInt32.lt_iff_toNat_lt.1 hn
        have hpred := UInt32.toNat_sub_of_le _ _ (UInt32.le_of_lt hn)
        rw [UInt32.toNat_one] at hpred
        rw [ht, Option.map_some]
        refine .of_entry (n := n - 1) ?_ (by omega) ?_
        · rw [lookup?_setEntry (lt_size_of_lookup? he), if_pos rfl]
        · dsimp only
          omega
      · rw [ht]
        refine .dead ?_ fun y hy => ?_
        · rw [load_eq_error_iff, lookup?_reclaim (lt_size_of_lookup? he), if_pos rfl]
          rfl
        · cases hy
          rw [UInt32.toNat_one] at hcount
          dsimp only
          omega
  · have hne : id ≠ i := Ne.symm hi
    simp only [Account.book, if_neg hi]
    rcases h.release_cases i with ⟨ht, -⟩ | ⟨v, n, -, he, ⟨-, ht⟩ | ⟨-, ht⟩⟩
    · rwa [ht]
    · rw [ht]
      exact ha.other he hne
    · rw [ht]
      exact ha.congr (by rw [lookup?_reclaim (lt_size_of_lookup? he), if_neg hne])

end Consistent

end ValueTable

variable {σ : Type}

def Event.failed : Event → Bool
  | .answered _ (some _) => true
  | _ => false

namespace World

def Faultless (w : World σ) : Prop := ∀ i e, .answered i (some e) ∉ w.journal

theorem faultless_iff {w : World σ} :
    w.Faultless ↔ ∀ e ∈ w.journal, e.failed = false := by
  constructor
  · intro h e hmem
    cases e with
    | answered i fault =>
      cases fault with
      | none => rfl
      | some e => exact absurd hmem (h i e)
    | _ => rfl
  · intro h i e hmem
    cases h _ hmem

instance (w : World σ) : Decidable w.Faultless := decidable_of_iff _ faultless_iff.symm

/-- No count is past what 32 bits hold: not the references to a handle, at any time, and not the
entries of the table. -/
structure WithinCounts (w : World σ) : Prop where
  references : ∀ earlier, earlier <:+ w.journal → ∀ id a, Account.of id earlier = some a →
    a.handed - a.finalized < 2 ^ 32
  entries : ∀ t, w.table = some t → t.entries.size ≤ 2 ^ 32

/-- The table is consistent and agrees with every account, as long as imports succeed. -/
def Accounted (global bridge : Value) (w : World σ) : Prop :=
  w.Faultless → w.WithinCounts → ∀ t, w.table = some t → ValueTable.Consistent global bridge t ∧
    ∀ id : UInt32, ValueTable.reservedHandles ≤ id.toNat → t.Agrees id (Account.of id w.journal)

end World

/-- Whether an event is in nobody's account. -/
def Event.Silent : Event → Prop
  | .allocated _ _ | .handed _ _ | .finalized _ => False
  | _ => True

theorem Account.of_silent {e : Event} (he : e.Silent) (id : UInt32) (journal : List Event) :
    of id (e :: journal) = of id journal := by
  rw [of_cons]
  cases e with
  | allocated | handed | finalized => exact he.elim
  | entered | wrote | printed | answered | exited => rfl

section Runs

variable {global bridge : Value} {w u : World σ}

theorem World.Faultless.of_suffix (h : u.Faultless) (hj : w.journal <:+ u.journal) : w.Faultless :=
  fun i e hmem => h i e (hj.subset hmem)

theorem World.WithinCounts.of_suffix (h : u.WithinCounts) (hj : w.journal <:+ u.journal)
    (ht : ∀ t, w.table = some t → ∃ t', u.table = some t' ∧ t.entries.size ≤ t'.entries.size) :
    w.WithinCounts := by
  refine ⟨fun earlier hearlier => h.references earlier (hearlier.trans hj), fun t hw => ?_⟩
  obtain ⟨t', hu, hsize⟩ := ht t hw
  exact hsize.trans (h.entries t' hu)

/-- What is accounted for after an event was accounted for before it. -/
theorem World.Accounted.before (hw : w.Accounted global bridge) (hfaultless : u.Faultless)
    (hcounts : u.WithinCounts) (hj : w.journal <:+ u.journal) {t t' : ValueTable}
    (ht : w.table = some t) (ht' : u.table = some t')
    (hsize : t.entries.size ≤ t'.entries.size) : ValueTable.Consistent global bridge t ∧
    ∀ id : UInt32, ValueTable.reservedHandles ≤ id.toNat → t.Agrees id (Account.of id w.journal) := by
  refine hw (hfaultless.of_suffix hj) (hcounts.of_suffix hj fun t₀ ht₀ => ⟨t', ht', ?_⟩) t ht
  cases ht.symm.trans ht₀
  exact hsize

theorem World.Accounted.silent (hw : w.Accounted global bridge) (ht : u.table = w.table)
    (hj : u.journal = w.journal ∨ ∃ e : Event, e.Silent ∧ u.journal = e :: w.journal) :
    u.Accounted global bridge := by
  intro hfaultless hcounts t hu
  have hsuffix : w.journal <:+ u.journal := by
    rcases hj with hj | ⟨e, -, hj⟩
    · rw [hj]
    · rw [hj]
      exact List.suffix_cons e _
  obtain ⟨hcons, hagrees⟩ :=
    hw.before hfaultless hcounts hsuffix (ht.symm.trans hu) hu (Nat.le_refl _)
  refine ⟨hcons, fun id hid => ?_⟩
  rcases hj with hj | ⟨e, he, hj⟩
  · rw [hj]
    exact hagrees id hid
  · rw [hj, Account.of_silent he]
    exact hagrees id hid

theorem account_stored (w : World σ) (t : ValueTable) (v : Value) (m : Memory) (address : Nat)
    (id : UInt32) :
    Account.of id ((w.stored t v m).record (.handed address (t.store v).1)).journal =
      ValueTable.Consistent.bookStore t v address id (Account.of id w.journal) := by
  simp only [World.record, World.stored, World.storing, ValueTable.Consistent.bookStore]
  cases t.allocates? v with
  | some i => rfl
  | none => rfl

theorem suffix_stored (w : World σ) (t : ValueTable) (v : Value) (m : Memory) :
    w.journal <:+ (w.stored t v m).journal := by
  simp only [World.record, World.stored, World.storing]
  cases t.allocates? v with
  | some i => exact ⟨[.wrote, .allocated i v], rfl⟩
  | none => exact ⟨[.wrote], rfl⟩

theorem Minor.accounted (h : Minor w u) (hw : w.Accounted global bridge) :
    u.Accounted global bridge := by
  cases h with
  | quiet h => exact hw.silent h.table (.inl h.journal)
  | printed stream console => exact hw.silent rfl (.inr ⟨.printed stream, trivial, rfl⟩)
  | wrote memory hrun => exact hw.silent rfl (.inr ⟨.wrote, trivial, rfl⟩)
  | ticked s h => exact hw.silent rfl (.inl rfl)

theorem Action.accounted (h : Action w u) (hw : w.Accounted global bridge) :
    u.Accounted global bridge := by
  cases h with
  | minor h => exact h.accounted hw
  | owned s m => exact hw.silent rfl (.inl rfl)
  | answered i => exact hw.silent rfl (.inr ⟨.answered i none, trivial, rfl⟩)
  | entered s h => exact hw.silent rfl (.inr ⟨.entered, trivial, rfl⟩)
  | left => exact hw.silent rfl (.inl rfl)
  | failed i e h => exact fun hfaultless => absurd List.mem_cons_self (hfaultless i e)
  | exited code hrun => exact fun _ _ t ht => nomatch ht
  | handed t v m address hrun ht =>
    intro hfaultless hcounts t' ht'
    cases ht'
    have hsuffix := (suffix_stored w t v m).trans (List.suffix_cons (.handed address (t.store v).1) _)
    have hsize : (t.store v).2.entries.size ≤ 2 ^ 32 := hcounts.entries _ rfl
    obtain ⟨hcons, hagrees⟩ :=
      hw.before hfaultless hcounts hsuffix ht rfl (ValueTable.size_le_store t v)
    refine ⟨hcons.store v hsize, fun id hid => ?_⟩
    have hbound := hcounts.references _ (List.suffix_refl _) id
    rw [account_stored] at hbound ⊢
    exact hcons.agrees_store hsize address hid (hagrees id hid) hbound
  | finalized i hrun =>
    intro hfaultless hcounts t' ht'
    obtain ⟨t, ht, rfl⟩ := Option.map_eq_some_iff.1 ht'
    have hsuffix : w.journal <:+ .finalized i :: w.journal := List.suffix_cons _ _
    obtain ⟨hcons, hagrees⟩ :=
      hw.before hfaultless hcounts hsuffix ht ht' (ValueTable.size_release t i).ge
    refine ⟨hcons.release i, fun id hid => ?_⟩
    exact hcons.agrees_release i hid (hagrees id hid)

end Runs

theorem firstObjects_fst : Heap.firstObjects.1 = (.object 0, .object 5) := by
  decide +kernel

theorem table_fresh (o : HostOptions) (memory : Memory) (around : Surroundings) (own : σ) :
    (World.fresh o memory around own).table = some (.new (.object 0) (.object 5)) := by
  have hfst := firstObjects_fst
  unfold World.fresh
  generalize Heap.firstObjects = x at hfst ⊢
  obtain ⟨⟨global, bridge⟩, heap⟩ := x
  cases hfst
  rfl

theorem journal_fresh (o : HostOptions) (memory : Memory) (around : Surroundings) (own : σ) :
    (World.fresh o memory around own).journal = [] := by
  unfold World.fresh
  generalize Heap.firstObjects = x
  obtain ⟨⟨global, bridge⟩, heap⟩ := x
  rfl

theorem accounted_fresh (o : HostOptions) (memory : Memory) (around : Surroundings) (own : σ) :
    (World.fresh o memory around own).Accounted (.object 0) (.object 5) := by
  intro _ _ t ht
  rw [table_fresh] at ht
  cases ht
  refine ⟨ValueTable.new_consistent (by decide), fun id hid => ?_⟩
  rw [journal_fresh]
  change ValueTable.load _ id = _
  rw [ValueTable.load_eq_error_iff, ValueTable.lookup?_new, List.getElem?_eq_none hid]
  rfl

/-! ## Imports that leave every account alone -/

def Import.hands : Import → Bool
  | .stringVal | .valueGet | .valueIndex | .valueCall | .valueInvoke | .valueNew
  | .valuePrepareString => true
  | _ => false

def SameAccounts (w u : World σ) : Prop :=
  u.table = w.table ∧ ∀ id, Account.of id u.journal = Account.of id w.journal

instance : Tolerant (SameAccounts : World σ → World σ → Prop) where
  refl _ := ⟨rfl, fun _ => rfl⟩
  trans hwu hux := ⟨hux.1.trans hwu.1, fun id => (hux.2 id).trans (hwu.2 id)⟩
  minor h := by
    cases h with
    | quiet h => exact ⟨h.table, fun id => by rw [h.journal]⟩
    | printed stream console => exact ⟨rfl, fun id => rfl⟩
    | wrote memory hrun => exact ⟨rfl, fun id => rfl⟩
    | ticked s h => exact ⟨rfl, fun id => rfl⟩

theorem sameAccounts_dispatch (c : Calls σ) {i : Import} (hhands : i.hands = false)
    (hfinalize : i ≠ .finalizeRef) (hexit : i ≠ .wasmExit) (sp : Nat) (w : World σ) :
    SameAccounts w (after (Import.dispatch c i sp w)) := by
  rcases Import.dispatch_cases c i sp w with ⟨-, h⟩ | ⟨e, h, -⟩ | ⟨operands, r, hv, hr, h⟩
  · rw [h]
    exact Tolerant.refl w
  · rw [h]
    exact Tolerant.refl w
  · rw [h]
    have hminor : r.isMinor = true := by
      obtain rfl := Request.import_of_decode hr
      cases r with
      | exit => exact absurd rfl hexit
      | finalize => exact absurd rfl hfinalize
      | intern | get | index | method | invoke | construct | prepareText => cases hhands
      | _ => rfl
    exact Import.perform_minor c sp hminor (Import.view_ok hv).2.1

/-! ## The law -/

/-- What the account of a handle promises: as long as the guest has been handed more slots than it
has finalized, the handle names the value it was allocated to and its count is the difference;
else every use of it is refused. -/
structure Honoured (t : ValueTable) (id : UInt32) (a : Option Account) : Prop where
  held : ∀ x, a = some x → x.finalized < x.handed →
    (∀ tag, t.resolve (.ref id tag) = .ok x.value) ∧
    ∃ n, t.refcount? id = some n ∧ n.toNat = x.handed - x.finalized
  dead : (∀ x, a = some x → x.handed ≤ x.finalized) →
    (∀ tag, t.resolve (.ref id tag) = .error (.invalidHandle id)) ∧
    ∀ (m : Memory) (address : Nat) (tag : TypeTag), m.loadSlot address = .ok (.ref id tag) →
      m.loadValue t address = .error (.invalidHandle id)

theorem ValueTable.Agrees.honoured {t : ValueTable} {id : UInt32} {a : Option Account}
    (h : t.Agrees id a) : Honoured t id a := by
  refine ⟨?_, fun hdead => ?_⟩
  · rintro x rfl hlt
    rcases ValueTable.agrees_some.1 h with ⟨n, hn, -, hcount⟩ | ⟨hle, -⟩
    · refine ⟨fun tag => ?_, n, ?_, by omega⟩
      · exact ValueTable.load_eq_ok_iff.2 (by rw [hn]; rfl)
      · simp only [ValueTable.refcount?, hn]
    · omega
  · have hload : t.load id = .error (.invalidHandle id) := by
      cases a with
      | none => exact h
      | some x =>
        rcases ValueTable.agrees_some.1 h with ⟨n, -, hlt, -⟩ | ⟨-, herr⟩
        · exact absurd (hdead x rfl) (Nat.not_le.2 hlt)
        · exact herr
    refine ⟨fun tag => hload, fun m address tag hslot => ?_⟩
    unfold Memory.loadValue
    rw [hslot]
    exact hload

/-- At every moment of a run in which every import succeeded, a guest that has not exited holds
exactly the references that its journal accounts for, and no import changes a count but those that
hand out values, finalize one, or end the guest. -/
theorem reference_accounting (p : Program σ) (o : HostOptions) (memory : Memory)
    (around : Surroundings) (own : σ) {control : Control σ} {w : World σ}
    (h : Moment p (.fresh o memory around own) control w) (hrun : w.exitCode? = none)
    (hfaultless : w.Faultless) (hcounts : w.WithinCounts) :
    ∃ t, w.table = some t ∧
      (∀ id : UInt32, ValueTable.reservedHandles ≤ id.toNat →
        Honoured t id (Account.of id w.journal)) ∧
      ∀ (c : Calls σ) (i : Import) (sp : Nat), i.hands = false → i ≠ .finalizeRef →
        i ≠ .wasmExit → SameAccounts w (after (Import.dispatch c i sp w)) := by
  have hsettled := h.settled (settled_fresh o memory around own)
  obtain ⟨t, ht⟩ := Option.isSome_iff_exists.1 (hsettled.running hrun).1
  have haccounted := h.reaches.keeps (fun _ _ haction hw => haction.accounted hw)
    (accounted_fresh o memory around own)
  obtain ⟨-, hagrees⟩ := haccounted hfaultless hcounts t ht
  refine ⟨t, ht, fun id hid => (hagrees id hid).honoured, fun c i sp hhands hfinalize hexit => ?_⟩
  exact sameAccounts_dispatch c hhands hfinalize hexit sp w

theorem Account.handed_le_length {id : UInt32} {journal : List Event} {a : Account}
    (h : of id journal = some a) : a.handed ≤ journal.length := by
  induction journal generalizing a with
  | nil => cases h
  | cons e journal ih =>
    rw [of_cons] at h
    cases e with
    | allocated i v =>
      simp only [book] at h
      split at h
      · cases h
        exact Nat.zero_le _
      · exact (ih h).trans (Nat.le_succ _)
    | handed address slot =>
      simp only [book] at h
      split at h
      · obtain ⟨x, hx, rfl⟩ := Option.map_eq_some_iff.1 h
        exact Nat.succ_le_succ (ih hx)
      · exact (ih h).trans (Nat.le_succ _)
    | finalized i =>
      simp only [book] at h
      split at h
      · obtain ⟨x, hx, rfl⟩ := Option.map_eq_some_iff.1 h
        exact (ih hx).trans (Nat.le_succ _)
      · exact (ih h).trans (Nat.le_succ _)
    | entered | wrote | printed | answered | exited => exact (ih h).trans (Nat.le_succ _)

def askingTwice : Program Unit where
  stackPointer _ := 0
  run _ := .request .stringVal 0 fun _ => .request .finalizeRef 16 fun _ =>
    .request .stringVal 0 fun _ => .done ()
  resume := .done ()
  functions _ _ _ := .done (.returned .undefined)

def askedTwice : World Unit :=
  after ((Drive.run ⟨0, 0⟩).step askingTwice (.fresh .standard (.zeros 64) ⟨0, 0⟩ ()))

theorem reference_accounting_asked : Account.of 7 askedTwice.journal = some ⟨.string "", 1, 0⟩ ∧
    ∃ t, askedTwice.table = some t ∧ t.resolve (.ref 7 .string) = .ok (.string "") := by
  have haccount : Account.of 7 askedTwice.journal = some ⟨.string "", 1, 0⟩ := by
    decide +kernel
  have hjournal : askedTwice.journal.length < 2 ^ 32 := by
    decide +kernel
  have hfaultless : askedTwice.Faultless := by
    decide +kernel
  have hentries : askedTwice.table.elim 0 (·.entries.size) ≤ 2 ^ 32 := by
    decide +kernel
  have hcounts : askedTwice.WithinCounts := by
    refine ⟨fun earlier hearlier id a ha => ?_, fun t ht => ?_⟩
    · have := Account.handed_le_length ha
      have := hearlier.length_le
      omega
    · rwa [ht] at hentries
  obtain ⟨t, ht, hhonoured, -⟩ := reference_accounting askingTwice .standard (.zeros 64) ⟨0, 0⟩ ()
    (Moment.start.drive (.run ⟨0, 0⟩)) (by decide +kernel) hfaultless hcounts
  refine ⟨haccount, t, ht, ?_⟩
  exact ((hhonoured 7 (by decide)).held _ haccount (by decide)).1 .string

end TokenizerHost
