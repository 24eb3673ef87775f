import Mathlib.Data.List.Nodup
import TokenizerHost.Toml.Reader

set_option autoImplicit false

namespace TokenizerHost.Toml

section Keyed

variable {α : Type} {P : α → Prop} {key : String} {f : Option α → α} {es : List (String × α)}

def keys (es : List (String × α)) : List String := es.map (·.1)

@[simp] theorem keys_cons (e : String × α) (es : List (String × α)) :
    keys (e :: es) = e.1 :: keys es := rfl

theorem lookup_cons_of_ne {other : String} (h : other ≠ key) (x : α) (es : List (String × α)) :
    ((key, x) :: es).lookup other = es.lookup other := by
  rw [List.lookup_cons, beq_false_of_ne h]

theorem lookup_eq_none_iff : es.lookup key = none ↔ key ∉ keys es := by
  simp only [List.lookup_eq_none_iff, keys, List.mem_map, bne_iff_ne]
  grind

theorem mem_of_lookup {x : α} (h : es.lookup key = some x) : (key, x) ∈ es := by
  obtain ⟨before, after, rfl, -⟩ := List.lookup_eq_some_iff.1 h
  simp

theorem lookup_of_mem {x : α} (hnodup : (keys es).Nodup) (h : (key, x) ∈ es) :
    es.lookup key = some x := by
  induction es with
  | nil => cases h
  | cons e es ih =>
    obtain ⟨k, y⟩ := e
    rw [keys_cons, List.nodup_cons] at hnodup
    rcases List.mem_cons.1 h with heq | hmem
    · cases heq
      exact List.lookup_cons_self
    · have hne : key ≠ k := by
        rintro rfl
        exact hnodup.1 (List.mem_map.2 ⟨_, hmem, rfl⟩)
      rw [lookup_cons_of_ne hne]
      exact ih hnodup.2 hmem

theorem keys_upsert (key : String) (f : Option α → α) (es : List (String × α)) :
    keys (upsert key f es) = if key ∈ keys es then keys es else keys es ++ [key] := by
  induction es with
  | nil => rfl
  | cons e es ih =>
    by_cases hk : e.1 = key
    · simp [upsert, hk]
    · rw [upsert, if_neg hk, keys_cons, ih]
      by_cases hmem : key ∈ keys es
      · simp [hmem]
      · simp [hmem, Ne.symm hk]

theorem lookup_upsert (key other : String) (f : Option α → α) (es : List (String × α)) :
    (upsert key f es).lookup other =
      if other = key then some (f (es.lookup key)) else es.lookup other := by
  induction es with
  | nil =>
    by_cases h : other = key
    · simp [upsert, h]
    · simp [upsert, lookup_cons_of_ne h, h]
  | cons e es ih =>
    obtain ⟨k, y⟩ := e
    by_cases hk : k = key
    · subst hk
      by_cases h : other = k
      · simp [upsert, h]
      · rw [upsert, if_pos rfl, lookup_cons_of_ne h, if_neg h, lookup_cons_of_ne h]
    · rw [upsert, if_neg hk, lookup_cons_of_ne (Ne.symm hk)]
      by_cases h : other = k
      · subst h
        simp [hk]
      · rw [lookup_cons_of_ne h, lookup_cons_of_ne h, ih]

theorem nodup_concat {keys : List String} (hnodup : keys.Nodup) (hnew : key ∉ keys) :
    (keys ++ [key]).Nodup := by
  rw [List.nodup_append]
  exact ⟨hnodup, List.nodup_singleton key, by simp; grind⟩

structure Keyed (P : α → Prop) (es : List (String × α)) : Prop where
  nodup : (keys es).Nodup
  values : ∀ e ∈ es, P e.2

namespace Keyed

theorem nil : Keyed P [] := ⟨List.nodup_nil, nofun⟩

theorem lookup (h : Keyed P es) {x : α} (hx : es.lookup key = some x) : P x :=
  h.values (key, x) (mem_of_lookup hx)

theorem append (h : Keyed P es) {x : α} (hnew : key ∉ keys es) (hx : P x) :
    Keyed P (es ++ [(key, x)]) := by
  refine ⟨?_, List.forall_mem_append.2 ⟨h.values, List.forall_mem_singleton.2 hx⟩⟩
  rw [keys, List.map_append]
  exact nodup_concat h.nodup hnew

theorem filter (h : Keyed P es) (p : String × α → Bool) : Keyed P (es.filter p) :=
  ⟨h.nodup.sublist (List.filter_sublist.map _), fun e he => h.values e (List.mem_filter.1 he).1⟩

theorem upsert (h : Keyed P es) (key : String) (hf : P (f (es.lookup key))) :
    Keyed P (upsert key f es) := by
  have hnodup : (keys (Toml.upsert key f es)).Nodup := by
    rw [keys_upsert]
    split
    · exact h.nodup
    next hnew => exact nodup_concat h.nodup hnew
  refine ⟨hnodup, fun e he => ?_⟩
  have hlookup := lookup_of_mem hnodup he
  rw [lookup_upsert] at hlookup
  split at hlookup
  · exact Option.some.inj hlookup ▸ hf
  · exact h.lookup hlookup

end Keyed

end Keyed

/-! ## Trees -/

inductive Distinct : Toml → Prop where
  | plain {t : Toml} (hitems : ∀ items, t ≠ .array items) (hentries : ∀ es, t ≠ .table es) : Distinct t
  | array {items : List Toml} (hitems : ∀ t ∈ items, Distinct t) : Distinct (.array items)
  | table {es : List (String × Toml)} (hnodup : (keys es).Nodup) (hvalues : ∀ e ∈ es, Distinct e.2) :
      Distinct (.table es)

theorem distinct_table_iff {es : List (String × Toml)} : Distinct (.table es) ↔ Keyed Distinct es := by
  refine ⟨fun h => ?_, fun h => .table h.nodup h.values⟩
  cases h with
  | plain _ hentries => exact absurd rfl (hentries es)
  | table hnodup hvalues => exact ⟨hnodup, hvalues⟩

theorem distinct_bool (b : Bool) : Distinct (.bool b) := .plain nofun nofun

theorem distinct_integer (n : Int) : Distinct (.integer n) := .plain nofun nofun

theorem distinct_float (s : String) : Distinct (.float s) := .plain nofun nofun

theorem distinct_string (s : String) : Distinct (.string s) := .plain nofun nofun

theorem distinct_moment (s : String) : Distinct (.moment s) := .plain nofun nofun

inductive Node.Distinct : Node → Prop where
  | leaf {t : Toml} (h : t.Distinct) : Node.Distinct (.leaf t)
  | branch {origin : Origin} {es : Entries} (hnodup : (keys es).Nodup)
      (hvalues : ∀ e ∈ es, Node.Distinct e.2) : Node.Distinct (.branch origin es)
  | list {items : List Entries} (hnodup : ∀ es ∈ items, (keys es).Nodup)
      (hvalues : ∀ es ∈ items, ∀ e ∈ es, Node.Distinct e.2) : Node.Distinct (.list items)

theorem Node.distinct_branch_iff {origin : Origin} {es : Entries} :
    Node.Distinct (.branch origin es) ↔ Keyed Node.Distinct es := by
  refine ⟨fun h => ?_, fun h => .branch h.nodup h.values⟩
  cases h with
  | branch hnodup hvalues => exact ⟨hnodup, hvalues⟩

theorem Node.distinct_list_iff {items : List Entries} :
    Node.Distinct (.list items) ↔ ∀ es ∈ items, Keyed Node.Distinct es := by
  refine ⟨fun h => ?_, fun h => .list (fun es hes => (h es hes).nodup) fun es hes => (h es hes).values⟩
  cases h with
  | list hnodup hvalues => exact fun es hes => ⟨hnodup es hes, hvalues es hes⟩

theorem entriesToToml_eq (es : Entries) : entriesToToml es = es.map fun e => (e.1, e.2.toToml) := by
  induction es with
  | nil => rfl
  | cons e es ih => rw [entriesToToml, ih]; rfl

theorem itemsToToml_eq (items : List Entries) :
    itemsToToml items = items.map fun es => .table (entriesToToml es) := by
  induction items with
  | nil => rfl
  | cons es items ih => rw [itemsToToml, ih]; rfl

theorem Keyed.entriesToToml {es : Entries} (hnodup : (keys es).Nodup)
    (hvalues : ∀ e ∈ es, e.2.toToml.Distinct) : Keyed Distinct (entriesToToml es) := by
  rw [entriesToToml_eq]
  refine ⟨?_, List.forall_mem_map.2 hvalues⟩
  rw [keys, List.map_map]
  exact hnodup

theorem Node.Distinct.toToml {node : Node} (h : node.Distinct) : node.toToml.Distinct := by
  induction h with
  | leaf h => exact h
  | branch hnodup _ ih => exact distinct_table_iff.2 (.entriesToToml hnodup ih)
  | list hnodup _ ih =>
    rw [Node.toToml, itemsToToml_eq]
    refine .array (List.forall_mem_map.2 fun es hes => ?_)
    exact distinct_table_iff.2 (.entriesToToml (hnodup es hes) (ih es hes))

theorem distinct_table_entriesToToml {es : Entries} (h : Keyed Node.Distinct es) :
    Distinct (.table (entriesToToml es)) :=
  distinct_table_iff.2 (.entriesToToml h.nodup fun e he => (h.values e he).toToml)

namespace Entries

variable {es es' : Entries} {key : String} {path : List String}

/-- A change of a table that leaves its keys distinct. -/
def KeepsKeys (f : Entries → Option Entries) : Prop :=
  ∀ {es es'}, Keyed Node.Distinct es → f es = some es' → Keyed Node.Distinct es'

theorem keepsKeys_alter {f : Option Node → Option Node}
    (hf : ∀ {old node}, (∀ n ∈ old, Node.Distinct n) → f old = some node → node.Distinct) :
    KeepsKeys (alter? key f) := by
  intro es es' hes h
  obtain ⟨node, hnode, heq⟩ := Option.bind_eq_some_iff.1 h
  cases heq
  exact hes.upsert key (hf (fun n hn => hes.lookup hn) hnode)

theorem keepsKeys_descend {dotted : Bool} {f : Origin → Entries → Option Entries}
    (hf : ∀ origin, KeepsKeys (f origin)) (path : List String) (origin : Origin) :
    KeepsKeys (descend? dotted f path origin) := by
  induction path generalizing origin with
  | nil => exact hf origin
  | cons key path ih =>
    refine keepsKeys_alter fun {old node} hold hnode => ?_
    match old with
    | none =>
      obtain ⟨inner, hinner, rfl⟩ := Option.map_eq_some_iff.1 hnode
      exact Node.distinct_branch_iff.2 (ih _ .nil hinner)
    | some (.leaf t) => cases hnode
    | some (.branch origin inner) =>
      simp only at hnode
      split at hnode
      · cases hnode
      · obtain ⟨inner', hinner, rfl⟩ := Option.map_eq_some_iff.1 hnode
        have hbefore := Node.distinct_branch_iff.1 (hold _ rfl)
        exact Node.distinct_branch_iff.2 (ih _ hbefore hinner)
    | some (.list items) =>
      have hitems := Node.distinct_list_iff.1 (hold _ rfl)
      simp only at hnode
      split at hnode
      next last hlast =>
        obtain ⟨new, hnew, rfl⟩ := Option.map_eq_some_iff.1 hnode
        refine Node.distinct_list_iff.2 (List.forall_mem_append.2 ⟨?_, ?_⟩)
        · exact fun es hes => hitems es (List.dropLast_subset _ hes)
        · exact List.forall_mem_singleton.2 (ih _ (hitems last (List.mem_of_getLast? hlast)) hnew)
      next => cases hnode

theorem keepsKeys_assign {value : Toml} (hvalue : value.Distinct) (path : List String) (key : String)
    (origin : Origin) : KeepsKeys (assign? path key value origin) := by
  refine keepsKeys_descend (fun origin es es' hes h => ?_) path origin
  split at h
  · cases h
  · refine keepsKeys_alter (fun {old node} _ hnode => ?_) hes h
    cases old with
    | none => exact Option.some.inj hnode ▸ .leaf hvalue
    | some => cases hnode

theorem keepsKeys_openTable (path : List String) (key : String) : KeepsKeys (openTable? path key) := by
  refine keepsKeys_descend (fun _ es es' hes h => ?_) path .opened
  split at h
  next hnew =>
    cases h
    exact hes.append (lookup_eq_none_iff.1 hnew) (Node.distinct_branch_iff.2 .nil)
  -- an implied table is moved behind the others
  next inner hinner =>
    cases h
    have hbefore := Node.distinct_branch_iff.1 (hes.lookup hinner)
    refine (hes.filter _).append ?_ (Node.distinct_branch_iff.2 hbefore)
    simp [keys]
  next => cases h

theorem keepsKeys_openItem (path : List String) (key : String) : KeepsKeys (openItem? path key) := by
  refine keepsKeys_descend (fun _ => keepsKeys_alter fun {old node} hold hnode => ?_) path .opened
  match old with
  | none =>
    cases hnode
    exact Node.distinct_list_iff.2 (List.forall_mem_singleton.2 .nil)
  | some (.list items) =>
    cases hnode
    have hitems := Node.distinct_list_iff.1 (hold _ rfl)
    exact Node.distinct_list_iff.2
      (List.forall_mem_append.2 ⟨hitems, List.forall_mem_singleton.2 .nil⟩)
  | some (.leaf t) => cases hnode
  | some (.branch origin inner) => cases hnode

theorem keepsKeys_assignUnder {value : Toml} (hvalue : value.Distinct) (header path : List String)
    (key : String) : KeepsKeys (assignUnder? header path key value) :=
  keepsKeys_descend (fun origin => keepsKeys_assign hvalue path key origin) header .opened

end Entries

/-! ## Reading -/

theorem distinct_of_integer? {n : Int} {t : Toml} (h : integer? n = some t) : t.Distinct := by
  rw [integer?] at h
  split at h
  · cases h
    exact distinct_integer n
  · cases h

theorem distinct_of_readInBase {base : Nat} {cs rest : List Char} {t : Toml}
    (h : readInBase base cs = some (t, rest)) : t.Distinct := by
  obtain ⟨⟨ds, after⟩, -, h⟩ := Option.bind_eq_some_iff.1 h
  obtain ⟨t', ht', h⟩ := Option.bind_eq_some_iff.1 h
  cases h
  exact distinct_of_integer? ht'

theorem distinct_of_readDecimal {negative : Bool} {cs rest : List Char} {t : Toml}
    (h : readDecimal negative cs = some (t, rest)) : t.Distinct := by
  obtain ⟨⟨whole, after⟩, -, h⟩ := Option.bind_eq_some_iff.1 h
  obtain ⟨⟨fraction, after⟩, -, h⟩ := Option.bind_eq_some_iff.1 h
  obtain ⟨⟨exponent, after⟩, -, h⟩ := Option.bind_eq_some_iff.1 h
  dsimp only at h
  split at h
  · obtain ⟨t', ht', h⟩ := Option.bind_eq_some_iff.1 h
    cases h
    exact distinct_of_integer? ht'
  · split at h
    · cases h
    · cases h
      exact distinct_float _

theorem distinct_of_readNumber {cs rest : List Char} {t : Toml} (h : readNumber cs = some (t, rest)) :
    t.Distinct := by
  unfold readNumber at h
  split at h
  · exact distinct_of_readInBase h
  · exact distinct_of_readInBase h
  · exact distinct_of_readInBase h
  · dsimp only at h
    split at h
    · cases h
      exact distinct_float _
    · cases h
      exact distinct_float _
    · exact distinct_of_readDecimal h

structure ReadsDistinct (fuel : Nat) : Prop where
  value : ∀ {depth cs t rest}, readValue fuel depth cs = some (t, rest) → t.Distinct
  items : ∀ {depth read cs items rest}, (∀ t ∈ read, Distinct t) →
    readItems fuel depth read cs = some (items, rest) → ∀ t ∈ items, Distinct t
  pairs : ∀ {depth read cs es rest}, Keyed Node.Distinct read →
    readPairs fuel depth read cs = some (es, rest) → Keyed Node.Distinct es
  assignment : ∀ {depth cs parts t rest},
    readAssignment fuel depth cs = some (parts, t, rest) → t.Distinct

namespace ReadsDistinct

variable {fuel depth : Nat} {cs rest : List Char}

theorem readValue (ih : ReadsDistinct fuel) {t : Toml}
    (h : Toml.readValue (fuel + 1) depth cs = some (t, rest)) : t.Distinct := by
  unfold Toml.readValue at h
  split at h
  · cases h
    exact distinct_bool true
  · cases h
    exact distinct_bool false
  · obtain ⟨_, -, h⟩ := Option.map_eq_some_iff.1 h
    cases h
    exact distinct_string _
  · obtain ⟨_, -, h⟩ := Option.map_eq_some_iff.1 h
    cases h
    exact distinct_string _
  -- an array
  · split at h
    · cases h
    · obtain ⟨_, hitems, h⟩ := Option.map_eq_some_iff.1 h
      cases h
      exact .array (ih.items (by simp) hitems)
  -- an inline table
  · split at h
    · cases h
    · split at h
      · cases h
        exact distinct_table_iff.2 .nil
      · obtain ⟨_, hpairs, h⟩ := Option.map_eq_some_iff.1 h
        cases h
        exact distinct_table_entriesToToml (ih.pairs .nil hpairs)
  · split at h
    · obtain ⟨_, -, h⟩ := Option.map_eq_some_iff.1 h
      cases h
      exact distinct_moment _
    · split at h
      · obtain ⟨_, -, h⟩ := Option.map_eq_some_iff.1 h
        cases h
        exact distinct_moment _
      · exact distinct_of_readNumber h

theorem readItems (ih : ReadsDistinct fuel) {read items : List Toml} (hread : ∀ t ∈ read, Distinct t)
    (h : Toml.readItems (fuel + 1) depth read cs = some (items, rest)) : ∀ t ∈ items, Distinct t := by
  rw [Toml.readItems] at h
  split at h
  · cases h
    simpa using hread
  · split at h
    · cases h
    next item _ hitem =>
      have hmore : ∀ t ∈ item :: read, Distinct t :=
        List.forall_mem_cons.2 ⟨ih.value hitem, hread⟩
      split at h
      · exact ih.items hmore h
      · cases h
        exact fun t ht => hmore t (List.mem_reverse.1 ht)
      · cases h

theorem readPairs (ih : ReadsDistinct fuel) {read es : Entries} (hread : Keyed Node.Distinct read)
    (h : Toml.readPairs (fuel + 1) depth read cs = some (es, rest)) : Keyed Node.Distinct es := by
  rw [Toml.readPairs] at h
  split at h
  · cases h
  next hvalue =>
    split at h
    · cases h
    next hassign =>
      obtain ⟨⟨path, key⟩, -, hassign⟩ := Option.bind_eq_some_iff.1 hassign
      have hmore := Entries.keepsKeys_assign (ih.assignment hvalue) path key .opened hread hassign
      split at h
      · exact ih.pairs hmore h
      · cases h
        exact hmore
      · cases h

theorem readAssignment (ih : ReadsDistinct fuel) {parts : List String} {t : Toml}
    (h : Toml.readAssignment (fuel + 1) depth cs = some (parts, t, rest)) : t.Distinct := by
  rw [Toml.readAssignment] at h
  split at h
  · obtain ⟨_, hvalue, h⟩ := Option.map_eq_some_iff.1 h
    cases h
    exact ih.value hvalue
  · cases h

end ReadsDistinct

-- The readers call each other with less fuel, so all four go by one induction.
theorem readsDistinct (fuel : Nat) : ReadsDistinct fuel := by
  induction fuel with
  | zero =>
    refine ⟨fun h => ?_, fun _ h => ?_, fun _ h => ?_, fun h => ?_⟩
    · simp [readValue] at h
    · simp [readItems] at h
    · simp [readPairs] at h
    · simp [readAssignment] at h
  | succ fuel ih => exact ⟨ih.readValue, ih.readItems, ih.readPairs, ih.readAssignment⟩

namespace Draft

variable {d d' : Draft} {parts : List String}

theorem keyed_of_openTable? (hd : Keyed Node.Distinct d.root) (h : d.openTable? parts = some d') :
    Keyed Node.Distinct d'.root := by
  obtain ⟨⟨path, key⟩, -, h⟩ := Option.bind_eq_some_iff.1 h
  obtain ⟨root, hroot, h⟩ := Option.bind_eq_some_iff.1 h
  cases h
  exact Entries.keepsKeys_openTable path key hd hroot

theorem keyed_of_openItem? (hd : Keyed Node.Distinct d.root) (h : d.openItem? parts = some d') :
    Keyed Node.Distinct d'.root := by
  obtain ⟨⟨path, key⟩, -, h⟩ := Option.bind_eq_some_iff.1 h
  obtain ⟨root, hroot, h⟩ := Option.bind_eq_some_iff.1 h
  cases h
  exact Entries.keepsKeys_openItem path key hd hroot

theorem keyed_of_assign? {value : Toml} (hvalue : value.Distinct) (hd : Keyed Node.Distinct d.root)
    (h : d.assign? parts value = some d') : Keyed Node.Distinct d'.root := by
  obtain ⟨⟨path, key⟩, -, h⟩ := Option.bind_eq_some_iff.1 h
  obtain ⟨root, hroot, h⟩ := Option.bind_eq_some_iff.1 h
  cases h
  exact Entries.keepsKeys_assignUnder hvalue d.header path key hd hroot

end Draft

theorem keyed_of_readStatement {fuel : Nat} {d d' : Draft} {cs rest : List Char}
    (hd : Keyed Node.Distinct d.root) (h : readStatement fuel d cs = some (d', rest)) :
    Keyed Node.Distinct d'.root := by
  unfold readStatement at h
  split at h
  · obtain ⟨⟨parts, after⟩, -, h⟩ := Option.bind_eq_some_iff.1 h
    split at h
    · obtain ⟨_, hopen, h⟩ := Option.bind_eq_some_iff.1 h
      obtain ⟨_, -, h⟩ := Option.bind_eq_some_iff.1 h
      cases h
      exact d.keyed_of_openItem? hd hopen
    · cases h
  · obtain ⟨⟨parts, after⟩, -, h⟩ := Option.bind_eq_some_iff.1 h
    split at h
    · obtain ⟨_, hopen, h⟩ := Option.bind_eq_some_iff.1 h
      obtain ⟨_, -, h⟩ := Option.bind_eq_some_iff.1 h
      cases h
      exact d.keyed_of_openTable? hd hopen
    · cases h
  · obtain ⟨⟨parts, value, after⟩, hvalue, h⟩ := Option.bind_eq_some_iff.1 h
    obtain ⟨_, hassign, h⟩ := Option.bind_eq_some_iff.1 h
    obtain ⟨_, -, h⟩ := Option.bind_eq_some_iff.1 h
    cases h
    exact d.keyed_of_assign? ((readsDistinct fuel).assignment hvalue) hd hassign

theorem keyed_of_readLines {fuel : Nat} {d d' : Draft} {cs : List Char}
    (hd : Keyed Node.Distinct d.root) (h : readLines fuel d cs = some d') :
    Keyed Node.Distinct d'.root := by
  induction fuel generalizing d cs with
  | zero => simp [readLines] at h
  | succ fuel ih =>
    unfold readLines at h
    split at h
    · cases h
      exact hd
    · obtain ⟨_, -, h⟩ := Option.bind_eq_some_iff.1 h
      exact ih hd h
    · split at h
      · exact ih hd h
      · split at h
        next hstatement => exact ih (keyed_of_readStatement hd hstatement) h
        · cases h

/-! ## Moments -/

theorem distinct_of_markedMoment? {t t' : Toml} (h : markedMoment? t = some t') : t'.Distinct := by
  unfold markedMoment? at h
  split at h
  · obtain ⟨_, -, h⟩ := Option.map_eq_some_iff.1 h
    cases h
    exact distinct_moment _
  · cases h

theorem settleEntries?_cons {key : String} {t : Toml} {rest es : List (String × Toml)}
    (h : settleEntries? ((key, t) :: rest) = some es) :
    ∃ t' rest', settle? t = some t' ∧ settleEntries? rest = some rest' ∧ es = (key, t') :: rest' := by
  rw [settleEntries?] at h
  obtain ⟨t', ht, h⟩ := Option.bind_eq_some_iff.1 h
  obtain ⟨rest', hrest, h⟩ := Option.bind_eq_some_iff.1 h
  cases h
  exact ⟨t', rest', ht, hrest, rfl⟩

theorem keys_settleEntries? {es es' : List (String × Toml)} (h : settleEntries? es = some es') :
    keys es' = keys es := by
  induction es generalizing es' with
  | nil =>
    cases h
    rfl
  | cons e es ih =>
    obtain ⟨t', rest', -, hrest, rfl⟩ := settleEntries?_cons h
    simp [ih hrest]

theorem exists_of_mem_settleEntries? {es es' : List (String × Toml)} {e' : String × Toml}
    (h : settleEntries? es = some es') (he : e' ∈ es') : ∃ e ∈ es, settle? e.2 = some e'.2 := by
  induction es generalizing es' with
  | nil =>
    cases h
    cases he
  | cons e es ih =>
    obtain ⟨t', rest', ht, hrest, rfl⟩ := settleEntries?_cons h
    rcases List.mem_cons.1 he with rfl | he
    · exact ⟨e, List.mem_cons_self, ht⟩
    · obtain ⟨e, hmem, hsettle⟩ := ih hrest he
      exact ⟨e, List.mem_cons_of_mem _ hmem, hsettle⟩

theorem exists_of_mem_settleItems? {items items' : List Toml} {t' : Toml}
    (h : settleItems? items = some items') (ht : t' ∈ items') : ∃ t ∈ items, settle? t = some t' := by
  induction items generalizing items' with
  | nil =>
    cases h
    cases ht
  | cons t items ih =>
    rw [settleItems?] at h
    obtain ⟨first, hfirst, h⟩ := Option.bind_eq_some_iff.1 h
    obtain ⟨rest, hrest, h⟩ := Option.bind_eq_some_iff.1 h
    cases h
    rcases List.mem_cons.1 ht with rfl | ht
    · exact ⟨t, List.mem_cons_self, hfirst⟩
    · obtain ⟨t, hmem, hsettle⟩ := ih hrest ht
      exact ⟨t, List.mem_cons_of_mem _ hmem, hsettle⟩

theorem settle?_table {es : List (String × Toml)} {t : Toml} (h : settle? (.table es) = some t) :
    (∃ mark, markedMoment? mark = some t) ∨ ∃ es', settleEntries? es = some es' ∧ t = .table es' := by
  cases es with
  | nil =>
    cases h
    exact .inr ⟨[], rfl, rfl⟩
  | cons e rest =>
    obtain ⟨key, first⟩ := e
    rw [settle?] at h
    split at h
    · exact .inl ⟨first, h⟩
    · obtain ⟨first', hfirst, h⟩ := Option.bind_eq_some_iff.1 h
      obtain ⟨rest', hrest, h⟩ := Option.bind_eq_some_iff.1 h
      cases h
      exact .inr ⟨(key, first') :: rest', by simp [settleEntries?, hfirst, hrest], rfl⟩

theorem distinct_of_settle? {t t' : Toml} (ht : t.Distinct) (h : settle? t = some t') :
    t'.Distinct := by
  induction ht generalizing t' with
  | @plain t hitems hentries =>
    cases t with
    | array items => exact absurd rfl (hitems items)
    | table es => exact absurd rfl (hentries es)
    | _ =>
      cases h
      exact .plain hitems hentries
  | array _ ih =>
    rw [settle?] at h
    obtain ⟨settled, hsettled, rfl⟩ := Option.map_eq_some_iff.1 h
    refine .array fun item hitem => ?_
    obtain ⟨before, hmem, hsettle⟩ := exists_of_mem_settleItems? hsettled hitem
    exact ih before hmem hsettle
  | table hnodup _ ih =>
    obtain ⟨mark, hmark⟩ | ⟨es', hes, rfl⟩ := settle?_table h
    · exact distinct_of_markedMoment? hmark
    · refine .table (keys_settleEntries? hes ▸ hnodup) fun e he => ?_
      obtain ⟨before, hmem, hsettle⟩ := exists_of_mem_settleEntries? hes he
      exact ih before hmem hsettle

theorem distinct_of_parse? {text : String} {t : Toml} (h : parse? text = some t) : t.Distinct := by
  obtain ⟨d, hlines, h⟩ := Option.bind_eq_some_iff.1 h
  have hroot : Keyed Node.Distinct d.root := keyed_of_readLines .nil hlines
  exact distinct_of_settle? (distinct_table_entriesToToml hroot) h

/-- The tree of a document is a table or a moment. -/
theorem table_or_moment_of_parse? {text : String} {t : Toml} (h : parse? text = some t) :
    (∃ es, t = .table es) ∨ ∃ moment, t = .moment moment := by
  obtain ⟨d, -, h⟩ := Option.bind_eq_some_iff.1 h
  obtain ⟨mark, hmark⟩ | ⟨es', -, rfl⟩ := settle?_table h
  · unfold markedMoment? at hmark
    split at hmark
    · obtain ⟨moment, -, rfl⟩ := Option.map_eq_some_iff.1 hmark
      exact .inr ⟨moment, rfl⟩
    · cases hmark
  · exact .inl ⟨es', rfl⟩

end TokenizerHost.Toml
