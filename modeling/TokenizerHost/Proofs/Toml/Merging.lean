import Mathlib.Data.List.Nodup
import TokenizerHost.Config.Layers
import TokenizerHost.Proofs.Json.Records
import TokenizerHost.Proofs.Toml.Keys

set_option autoImplicit false

namespace TokenizerHost.Toml

variable {base above t v : Toml} {es entries : List (String × Toml)} {key name : String}

/-! ## Laying one tree over another -/

/-- A value laid over what was there before it, if anything was. -/
def layOver (old : Option Toml) (v : Toml) : Toml :=
  match old with
  | some old => merge old v
  | none => v

@[simp] theorem layOver_none (v : Toml) : layOver none v = v := rfl

@[simp] theorem layOver_some (old v : Toml) : layOver (some old) v = merge old v := rfl

@[simp] theorem mergeEntries_nil (base : List (String × Toml)) : mergeEntries base [] = base := rfl

theorem mergeEntries_cons (base : List (String × Toml)) (e : String × Toml)
    (rest : List (String × Toml)) :
    mergeEntries base (e :: rest) =
      mergeEntries (upsert e.1 (fun old => layOver old e.2) base) rest := rfl

@[simp] theorem merge_table (lower upper : List (String × Toml)) :
    merge (.table lower) (.table upper) = .table (mergeEntries lower upper) := rfl

theorem merge_of_not_table (base : Toml) (habove : ∀ es, above ≠ .table es) : merge base above = above := by
  cases above with
  | table es => exact absurd rfl (habove es)
  | _ => rfl

/-- Under each key stands what the upper table has there, laid over what the lower one has. -/
theorem lookup_mergeEntries {upper : List (String × Toml)} (hnodup : (keys upper).Nodup)
    (lower : List (String × Toml)) (key : String) :
    (mergeEntries lower upper).lookup key =
      ((upper.lookup key).map (layOver (lower.lookup key))).or (lower.lookup key) := by
  induction upper generalizing lower with
  | nil => simp
  | cons e rest ih =>
    obtain ⟨k, v⟩ := e
    rw [keys_cons, List.nodup_cons] at hnodup
    rw [mergeEntries_cons, ih hnodup.2, lookup_upsert]
    by_cases hk : key = k
    · subst hk
      simp [lookup_eq_none_iff.2 hnodup.1]
    · rw [if_neg hk, lookup_cons_of_ne hk]

theorem keyed_mergeEntries {lower upper : List (String × Toml)}
    (hmerge : ∀ e ∈ upper, ∀ base, Distinct base → Distinct (merge base e.2))
    (hupper : ∀ e ∈ upper, Distinct e.2) (hlower : Keyed Distinct lower) :
    Keyed Distinct (mergeEntries lower upper) := by
  induction upper generalizing lower with
  | nil => exact hlower
  | cons e rest ih =>
    rw [List.forall_mem_cons] at hmerge hupper
    refine ih hmerge.2 hupper.2 (hlower.upsert e.1 ?_)
    cases hold : lower.lookup e.1 with
    | none => exact hupper.1
    | some old => exact hmerge.1 old (hlower.lookup hold)

theorem Distinct.merge (habove : above.Distinct) : ∀ base, Distinct base → Distinct (merge base above) := by
  induction habove with
  | plain hitems hentries =>
    intro base _
    rw [merge_of_not_table base hentries]
    exact .plain hitems hentries
  | array hitems => exact fun _ _ => .array hitems
  | table hnodup hvalues ih =>
    intro base hbase
    cases base with
    | table lower => exact distinct_table_iff.2 (keyed_mergeEntries ih hvalues (distinct_table_iff.1 hbase))
    | _ => exact .table hnodup hvalues

theorem upsert_of_not_mem {f : Option Toml → Toml} (h : key ∉ keys es) :
    upsert key f es = es ++ [(key, f none)] := by
  induction es with
  | nil => rfl
  | cons e es ih =>
    rw [keys_cons, List.mem_cons, not_or] at h
    rw [upsert, if_neg (Ne.symm h.1), ih h.2, List.cons_append]

theorem mergeEntries_disjoint {lower upper : List (String × Toml)}
    (hnodup : (keys (lower ++ upper)).Nodup) : mergeEntries lower upper = lower ++ upper := by
  induction upper generalizing lower with
  | nil => simp
  | cons e rest ih =>
    have hnew : e.1 ∉ keys lower := by
      rw [keys, List.map_append, List.nodup_append] at hnodup
      exact fun h => hnodup.2.2 _ h e.1 (by simp) rfl
    have hassoc : lower ++ e :: rest = (lower ++ [e]) ++ rest := by simp
    rw [mergeEntries_cons, upsert_of_not_mem hnew, hassoc]
    exact ih (hassoc ▸ hnodup)

/-- Whatever is laid over the tree takes its place as a whole. -/
def Yields (t : Toml) : Prop := ∀ above, Distinct above → merge t above = above

theorem yields_of_not_table (ht : ∀ es, t ≠ .table es) : t.Yields := by
  intro above _
  cases above with
  | table es =>
    cases t with
    | table entries => exact absurd rfl (ht entries)
    | _ => rfl
  | _ => rfl

@[simp] theorem yields_string (s : String) : Yields (.string s) := yields_of_not_table nofun

@[simp] theorem yields_integer (n : Int) : Yields (.integer n) := yields_of_not_table nofun

@[simp] theorem yields_array (items : List Toml) : Yields (.array items) := yields_of_not_table nofun

@[simp] theorem yields_empty : Yields (.table []) := by
  intro above habove
  cases above with
  | table es =>
    have hjoined : mergeEntries [] es = [] ++ es :=
      mergeEntries_disjoint (distinct_table_iff.1 habove).nodup
    rw [merge_table, hjoined, List.nil_append]
  | _ => rfl

/-! ## Setting a key -/

def isOpen (t : Toml) (name : String) : Bool :=
  match t with
  | .table es =>
    match es.lookup name with
    | none => true
    | some (.table _) => true
    | some _ => false
  | _ => false

def entriesAt (es : List (String × Toml)) (name : String) : List (String × Toml) :=
  match es.lookup name with
  | some (.table inner) => inner
  | _ => []

theorem setIn_of_isOpen (hopen : isOpen (.table es) name) :
    setIn (.table es) name key v =
      (.table (upsert name (fun _ => .table (upsert key (fun _ => v) (entriesAt es name))) es), true) := by
  unfold isOpen at hopen
  unfold setIn entriesAt
  dsimp only at hopen ⊢
  cases hpart : es.lookup name with
  | none =>
    rw [upsert_of_not_mem (lookup_eq_none_iff.1 hpart)]
    rfl
  | some part =>
    rw [hpart] at hopen
    cases part with
    | table inner => rfl
    | _ => cases hopen

theorem setIn_of_not_isOpen (hopen : isOpen t name = false) : setIn t name key v = (t, false) := by
  unfold isOpen at hopen
  unfold setIn
  cases t with
  | table es =>
    dsimp only at hopen ⊢
    cases hpart : es.lookup name with
    | none =>
      rw [hpart] at hopen
      cases hopen
    | some part =>
      rw [hpart] at hopen
      cases part with
      | table inner => cases hopen
      | _ => rfl
  | _ => rfl

theorem setIn_snd (t : Toml) (name key : String) (v : Toml) : (setIn t name key v).2 = t.isOpen name := by
  cases hopen : t.isOpen name with
  | false => rw [setIn_of_not_isOpen hopen]
  | true =>
    cases t with
    | table es => rw [setIn_of_isOpen hopen]
    | _ => cases hopen

theorem isOpen_setIn (t : Toml) (name key other : String) (v : Toml) :
    (setIn t name key v).1.isOpen other = t.isOpen other := by
  cases hopen : t.isOpen name with
  | false => rw [setIn_of_not_isOpen hopen]
  | true =>
    cases t with
    | table es =>
      rw [setIn_of_isOpen hopen, isOpen, lookup_upsert]
      by_cases hother : other = name
      · rw [if_pos hother, hother, hopen]
      · rw [if_neg hother]
        rfl
    | _ => cases hopen

theorem Distinct.setIn (ht : t.Distinct) (hv : v.Distinct) (name key : String) :
    (setIn t name key v).1.Distinct := by
  cases hopen : t.isOpen name with
  | false => rwa [setIn_of_not_isOpen hopen]
  | true =>
    cases t with
    | table es =>
      have hes := distinct_table_iff.1 ht
      have hinner : Keyed Distinct (entriesAt es name) := by
        unfold entriesAt
        split
        next hpart => exact distinct_table_iff.1 (hes.lookup hpart)
        · exact .nil
      rw [setIn_of_isOpen hopen]
      exact distinct_table_iff.2 (hes.upsert name (distinct_table_iff.2 (hinner.upsert key hv)))
    | _ => cases hopen

def isArrayAt (t : Toml) (name : String) : Bool :=
  match t.child? name with
  | some (.array _) => true
  | _ => false

theorem isArrayAt_of_isOpen (h : t.isOpen name) :
    t.isArrayAt name = false := by
  cases t with
  | table es =>
    unfold isOpen at h
    unfold isArrayAt child?
    dsimp only at h ⊢
    cases hpart : es.lookup name with
    | none => rfl
    | some part =>
      rw [hpart] at h
      cases part with
      | table => rfl
      | _ => cases h
  | _ => cases h

/-! ## Tables as records -/

def members (es : List (String × Toml)) : List (String × Json) :=
  es.map fun e => (e.1, e.2.toJson)

theorem toJson_table (es : List (String × Toml)) : toJson (.table es) = .record (members es) := by
  rw [toJson, Json.record]
  refine congrArg Json.object ?_
  induction es with
  | nil => rfl
  | cons e es ih => rw [entriesToJson, ih]; rfl

theorem keys_members (es : List (String × Toml)) : keys (members es) = keys es := by
  rw [keys, members, List.map_map]
  rfl

theorem lookup_members (es : List (String × Toml)) (name : String) :
    (members es).lookup name = (es.lookup name).map toJson := by
  induction es with
  | nil => rfl
  | cons e es ih =>
    rw [members, List.map_cons, List.lookup_cons, List.lookup_cons]
    split
    · rfl
    · exact ih

/-- Under distinct keys, what stands for each field of a record is found by its name. -/
theorem fields?_table (hnodup : (keys es).Nodup) (names : List String) :
    (toJson (.table es)).fields? names = some (names.map fun name => (es.lookup name).map toJson) := by
  have hmembers : (keys (members es)).Nodup := by rwa [keys_members]
  rw [toJson_table, Json.fields?_record hmembers]
  simp only [lookup_members]

end TokenizerHost.Toml
