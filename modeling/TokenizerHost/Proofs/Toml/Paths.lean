import TokenizerHost.Proofs.Toml.Merging

set_option autoImplicit false

/-!
# Merged trees by path

A tree is seen through the values that paths of keys lead to. What a path leads to in a merged tree
follows from what it leads to in the two trees (`LaidOver`), and merging the upper tree a second time
changes nothing (`merge_merge`). Over many layers the topmost one that has a path decides it, unless a
layer has something else than a table where a lower one has a table (`ShowsTopmost.append`).
-/

namespace TokenizerHost.Toml

variable {base above lower upper t v w : Toml} {key : String} {path before after : List String}
  {layers : List Toml}

/-! ## Following paths -/

def IsTable (t : Toml) : Prop := ∃ es, t = .table es

@[simp] theorem get?_nil (t : Toml) : t.get? [] = some t := rfl

theorem get?_cons (key : String) (path : List String) (t : Toml) :
    t.get? (key :: path) = (t.child? key).bind (get? path) := rfl

theorem get?_table (key : String) (path : List String) (es : List (String × Toml)) :
    get? (key :: path) (.table es) = (es.lookup key).bind (get? path) := rfl

theorem get?_append (before after : List String) (t : Toml) :
    t.get? (before ++ after) = (t.get? before).bind (get? after) := by
  induction before generalizing t with
  | nil => rfl
  | cons key before ih =>
    rw [List.cons_append, get?_cons, get?_cons]
    cases t.child? key with
    | none => rfl
    | some v => exact ih v

theorem isTable_of_child? (h : t.child? key = some v) : t.IsTable := by
  cases t with
  | table es => exact ⟨es, rfl⟩
  | _ => cases h

theorem get?_of_not_isTable (h : ¬ t.IsTable) (key : String) (path : List String) :
    t.get? (key :: path) = none := by
  rw [get?_cons]
  cases hchild : t.child? key with
  | none => rfl
  | some v => exact absurd (isTable_of_child? hchild) h

/-- Nothing but tables stands at a path and on the way to it. -/
def Open (t : Toml) (path : List String) : Prop := ∀ before, before <+: path → ∀ v, t.get? before = some v → v.IsTable

theorem Open.isTable (h : t.Open path) : t.IsTable := h [] (List.nil_prefix) t rfl

theorem Open.child (h : t.Open (key :: path)) (hv : t.child? key = some v) : v.Open path := by
  intro before hbefore w hw
  refine h (key :: before) (List.cons_prefix_cons.2 ⟨rfl, hbefore⟩) w ?_
  rw [get?_cons, hv]
  exact hw

theorem isTable_of_prefix (hleads : before <+: path) (hne : before ≠ path) (hpath : t.get? path = some v) :
    ∃ w, t.get? before = some w ∧ w.IsTable := by
  obtain ⟨after, rfl⟩ := hleads
  cases after with
  | nil => exact absurd (List.append_nil before).symm hne
  | cons key after =>
    rw [get?_append] at hpath
    obtain ⟨w, hw, hafter⟩ := Option.bind_eq_some_iff.1 hpath
    refine ⟨w, hw, Classical.byContradiction fun htable => ?_⟩
    rw [get?_of_not_isTable htable] at hafter
    cases hafter

/-! ## One tree over another -/

theorem merge_of_not_isTable (base : Toml) (h : ¬ above.IsTable) : merge base above = above :=
  merge_of_not_table base fun es hes => h ⟨es, hes⟩

theorem layOver_of_not_isTable (old : Option Toml) (h : ¬ v.IsTable) : layOver old v = v := by
  cases old with
  | none => rfl
  | some old => exact merge_of_not_isTable old h

theorem isTable_layOver (old : Option Toml) (h : v.IsTable) : (layOver old v).IsTable := by
  obtain ⟨es, rfl⟩ := h
  cases old with
  | none => exact ⟨es, rfl⟩
  | some old => cases old <;> exact ⟨_, rfl⟩

theorem child?_merge (habove : above.Distinct) (htable : above.IsTable) (base : Toml) (key : String) :
    (merge base above).child? key =
      ((above.child? key).map (layOver (base.child? key))).or (base.child? key) := by
  obtain ⟨upper, rfl⟩ := htable
  cases base with
  | table lower => exact lookup_mergeEntries (distinct_table_iff.1 habove).nodup lower key
  | _ =>
    simp only [merge, child?, Option.or_none]
    cases upper.lookup key <;> rfl

theorem Distinct.child (h : t.Distinct) (hv : t.child? key = some v) : v.Distinct := by
  cases t with
  | table es => exact (distinct_table_iff.1 h).lookup hv
  | _ => cases hv

theorem Distinct.get? (h : t.Distinct) (hv : t.get? path = some v) : v.Distinct := by
  induction path generalizing t with
  | nil =>
    cases hv
    exact h
  | cons key path ih =>
    obtain ⟨part, hpart, hv⟩ := Option.bind_eq_some_iff.1 hv
    exact ih (h.child hpart) hv

/-- Where the upper tree has a value, it stands in the merged tree, laid over what the lower one has. -/
theorem get?_merge_of_some (habove : above.Distinct) (base : Toml) (hv : above.get? path = some v) :
    (merge base above).get? path = some (layOver (base.get? path) v) := by
  induction path generalizing base above with
  | nil =>
    cases hv
    rfl
  | cons key path ih =>
    rw [get?_cons] at hv
    obtain ⟨part, hpart, hv⟩ := Option.bind_eq_some_iff.1 hv
    rw [get?_cons, child?_merge habove (isTable_of_child? hpart), hpart, get?_cons]
    cases base.child? key with
    | none => exact hv
    | some old => exact ih (habove.child hpart) old hv

/-- Where the upper tree has nothing, and nothing but tables on the way, the lower tree shows. -/
theorem get?_merge_of_open (habove : above.Distinct) (base : Toml) (hnone : above.get? path = none)
    (hopen : above.Open path) : (merge base above).get? path = base.get? path := by
  induction path generalizing base above with
  | nil => cases hnone
  | cons key path ih =>
    rw [get?_cons, child?_merge habove hopen.isTable, get?_cons]
    cases hpart : above.child? key with
    | none => rfl
    | some part =>
      rw [get?_cons, hpart] at hnone
      cases base.child? key with
      | none => exact hnone
      | some old => exact ih (habove.child hpart) old hnone (hopen.child hpart)

/-- A value of the upper tree that is no table ends all longer paths. -/
theorem get?_merge_of_not_open (habove : above.Distinct) (base : Toml) (hnone : above.get? path = none)
    (hopen : ¬ above.Open path) : (merge base above).get? path = none := by
  simp only [Open, not_forall] at hopen
  obtain ⟨before, ⟨after, rfl⟩, v, hv, htable⟩ := hopen
  rw [get?_append, get?_merge_of_some habove base hv, layOver_of_not_isTable _ htable, Option.bind_some]
  rwa [get?_append, hv] at hnone

structure LaidOver (base above t : Toml) : Prop where
  upper : ∀ path v, above.get? path = some v → ¬ v.IsTable → t.get? path = some v
  lower : ∀ path v, base.get? path = some v → above.get? path = none →
    (∀ before, before <+: path → ∀ w, above.get? before = some w → w.IsTable) → t.get? path = some v
  covered : ∀ path, (t.get? path).isSome → (base.get? path).isSome ∨ (above.get? path).isSome

theorem laidOver_merge (habove : above.Distinct) (base : Toml) : LaidOver base above (merge base above) where
  upper path v hv htable := by
    rw [get?_merge_of_some habove base hv, layOver_of_not_isTable _ htable]
  lower path v hv hnone hopen := (get?_merge_of_open habove base hnone hopen).trans hv
  covered path hsome := by
    cases hpath : above.get? path with
    | some v => exact .inr rfl
    | none =>
      by_cases hopen : above.Open path
      · rw [get?_merge_of_open habove base hpath hopen] at hsome
        exact .inl hsome
      · rw [get?_merge_of_not_open habove base hpath hopen] at hsome
        cases hsome

/-! ## Merging again -/

theorem upsert_eq_self {f : Option Toml → Toml} {es : List (String × Toml)} (h : es.lookup key = some v)
    (hf : f (some v) = v) : upsert key f es = es := by
  induction es with
  | nil => cases h
  | cons e es ih =>
    obtain ⟨k, x⟩ := e
    by_cases hk : k = key
    · subst hk
      cases List.lookup_cons_self.symm.trans h
      rw [upsert, if_pos rfl, hf]
    · rw [lookup_cons_of_ne (Ne.symm hk)] at h
      rw [upsert, if_neg hk, ih h]

theorem mergeEntries_eq_self {es upper : List (String × Toml)}
    (h : ∀ e ∈ upper, ∃ v, es.lookup e.1 = some v ∧ merge v e.2 = v) : mergeEntries es upper = es := by
  induction upper with
  | nil => rfl
  | cons e rest ih =>
    rw [List.forall_mem_cons] at h
    obtain ⟨⟨v, hv, hmerge⟩, hrest⟩ := h
    rw [mergeEntries_cons, upsert_eq_self hv hmerge]
    exact ih hrest

theorem merge_merge (habove : above.Distinct) : ∀ base, merge (merge base above) above = merge base above := by
  induction habove with
  | plain hitems hentries =>
    intro base
    rw [merge_of_not_table _ hentries, merge_of_not_table _ hentries]
  | array hitems => exact fun _ => rfl
  | @table upper hnodup hvalues ih =>
    -- a value merged into itself is one that was merged into an empty table before
    have hself : ∀ e ∈ upper, merge e.2 e.2 = e.2 := fun e he => by
      have hagain := ih e he (.table [])
      rwa [yields_empty e.2 (hvalues e he)] at hagain
    have hagain : ∀ lower : List (String × Toml),
        mergeEntries (mergeEntries lower upper) upper = mergeEntries lower upper := by
      intro lower
      refine mergeEntries_eq_self fun e he => ?_
      refine ⟨layOver (lower.lookup e.1) e.2, ?_, ?_⟩
      · rw [lookup_mergeEntries hnodup, lookup_of_mem hnodup he]
        rfl
      · cases lower.lookup e.1 with
        | none => exact hself e he
        | some old => exact ih e he old
    have halone : mergeEntries upper upper = upper :=
      mergeEntries_eq_self fun e he => ⟨e.2, lookup_of_mem hnodup he, hself e he⟩
    intro base
    cases base with
    | table lower => exact congrArg Toml.table (hagain lower)
    | _ => exact congrArg Toml.table halone

/-! ## Many layers -/

/-- Where the lower tree has a table, the upper one has a table too, or nothing. -/
def KeepsTables (lower upper : Toml) : Prop :=
  ∀ path v w, lower.get? path = some v → v.IsTable → upper.get? path = some w → w.IsTable

/-- A tree that is no table anywhere below gives way to all others. -/
theorem keepsTables_of_not_isTable (h : ¬ lower.IsTable) : KeepsTables lower upper := by
  rintro (_ | ⟨key, path⟩) v w hv htable hw
  · cases hv
    exact absurd htable h
  · rw [get?_of_not_isTable h] at hv
    cases hv

theorem keepsTables_table {lower upper : List (String × Toml)}
    (h : ∀ e ∈ upper, ∀ v ∈ lower.lookup e.1, KeepsTables v e.2) : KeepsTables (.table lower) (.table upper) := by
  rintro (_ | ⟨key, path⟩) v w hv htable hw
  · cases hw
    exact ⟨upper, rfl⟩
  · obtain ⟨part, hpart, hv⟩ := Option.bind_eq_some_iff.1 hv
    obtain ⟨above, habove, hw⟩ := Option.bind_eq_some_iff.1 hw
    exact h (key, above) (mem_of_lookup habove) part hpart path v w hv htable hw

theorem keepsTables_singleton {lower : List (String × Toml)} (h : ∀ v ∈ lower.lookup key, KeepsTables v t) :
    KeepsTables (.table lower) (.table [(key, t)]) :=
  keepsTables_table (List.forall_mem_singleton.2 h)

def topmost? (layers : List Toml) (path : List String) : Option Toml := (layers.filterMap (get? path)).getLast?

theorem topmost?_concat (layers : List Toml) (t : Toml) (path : List String) :
    topmost? (layers ++ [t]) path = (t.get? path).or (topmost? layers path) := by
  rw [topmost?, topmost?, List.filterMap_append]
  cases hpath : t.get? path with
  | none => simp [hpath]
  | some v => simp [hpath]

theorem exists_of_topmost? (h : topmost? layers path = some v) : ∃ t ∈ layers, t.get? path = some v := by
  have hmem := List.mem_of_getLast? h
  exact List.mem_filterMap.1 hmem

/-- A layer that replaces no tables of the others leaves their paths open. -/
theorem open_of_keepsTables (hlower : lower.get? path = some v) (hupper : upper.get? path = none)
    (hkeeps : KeepsTables lower upper) : upper.Open path := by
  intro before hleads w hw
  by_cases hne : before = path
  · rw [hne, hupper] at hw
    cases hw
  · obtain ⟨u, hu, htable⟩ := isTable_of_prefix hleads hne hlower
    exact hkeeps before u w hu htable hw

/-- Each path leads to what the topmost layer has there, if that is no table, and else to a table;
where no layer has anything, there is nothing. -/
structure ShowsTopmost (layers : List Toml) (t : Toml) : Prop where
  value : ∀ path v, topmost? layers path = some v → ¬ v.IsTable → t.get? path = some v
  table : ∀ path v, topmost? layers path = some v → v.IsTable → ∃ w, t.get? path = some w ∧ w.IsTable
  nothing : ∀ path, topmost? layers path = none → t.get? path = none

/-- What a layer leaves as it is where it has nothing itself. -/
theorem get?_merge_of_keepsTables (hupper : upper.Distinct) (hkeeps : ∀ lower ∈ layers, KeepsTables lower upper)
    (htop : topmost? layers path = some v) (hnone : upper.get? path = none) :
    (merge t upper).get? path = t.get? path := by
  obtain ⟨lower, hmem, hlower⟩ := exists_of_topmost? htop
  exact get?_merge_of_open hupper t hnone (open_of_keepsTables hlower hnone (hkeeps lower hmem))

theorem ShowsTopmost.concat (h : ShowsTopmost layers t) (hupper : upper.Distinct)
    (hkeeps : ∀ lower ∈ layers, KeepsTables lower upper) : ShowsTopmost (layers ++ [upper]) (merge t upper) where
  value path v htop htable := by
    rw [topmost?_concat] at htop
    cases hpath : upper.get? path with
    | some w =>
      rw [hpath] at htop
      cases htop
      exact (laidOver_merge hupper t).upper path v hpath htable
    | none =>
      rw [hpath, Option.none_or] at htop
      rw [get?_merge_of_keepsTables hupper hkeeps htop hpath]
      exact h.value path v htop htable
  table path v htop htable := by
    rw [topmost?_concat] at htop
    cases hpath : upper.get? path with
    | some w =>
      rw [hpath] at htop
      cases htop
      exact ⟨_, get?_merge_of_some hupper t hpath, isTable_layOver _ htable⟩
    | none =>
      rw [hpath, Option.none_or] at htop
      rw [get?_merge_of_keepsTables hupper hkeeps htop hpath]
      exact h.table path v htop htable
  nothing path htop := by
    rw [topmost?_concat, Option.or_eq_none_iff] at htop
    have hcovered := (laidOver_merge hupper t).covered path
    rw [h.nothing path htop.2, htop.1] at hcovered
    simpa using hcovered

-- The induction takes the layers from below; what is kept is what the tree shows of those so far.
theorem ShowsTopmost.append (h : ShowsTopmost layers t) {more : List Toml} (hmore : ∀ u ∈ more, Distinct u)
    (hkeeps : (layers ++ more).Pairwise KeepsTables) : ShowsTopmost (layers ++ more) (more.foldl merge t) := by
  induction more generalizing layers t with
  | nil => simpa using h
  | cons u more ih =>
    rw [List.forall_mem_cons] at hmore
    rw [List.append_cons] at hkeeps ⊢
    have hbelow := (List.pairwise_append.1 (List.pairwise_append.1 hkeeps).1).2.2
    exact ih (h.concat hmore.1 fun lower hmem => hbelow lower hmem u (List.mem_singleton_self u)) hmore.2 hkeeps

theorem showsTopmost_singleton (t : Toml) : ShowsTopmost [t] t := by
  have htop : ∀ path, topmost? [t] path = t.get? path := fun path => by
    cases hpath : t.get? path <;> simp [topmost?, hpath]
  exact ⟨fun path v hv _ => (htop path).symm.trans hv,
    fun path v hv htable => ⟨v, (htop path).symm.trans hv, htable⟩,
    fun path hnone => (htop path).symm.trans hnone⟩

/-- A table of the lowest layer stays a table. -/
theorem ShowsTopmost.isTable {lowest : Toml} {more : List Toml} (h : ShowsTopmost (lowest :: more) t)
    (hkeeps : (lowest :: more).Pairwise KeepsTables) (htable : ∃ v, lowest.get? path = some v ∧ v.IsTable) :
    ∃ v, t.get? path = some v ∧ v.IsTable := by
  obtain ⟨v, hv, htable⟩ := htable
  have hsome : (topmost? (lowest :: more) path).isSome := by
    simp [topmost?, hv]
  obtain ⟨w, hw⟩ := Option.isSome_iff_exists.1 hsome
  refine h.table path w hw ?_
  obtain ⟨layer, hmem, hlayer⟩ := exists_of_topmost? hw
  rcases List.mem_cons.1 hmem with rfl | hmore
  · cases hv.symm.trans hlayer
    exact htable
  · exact (List.pairwise_cons.1 hkeeps).1 layer hmore path v w hv htable hlayer

end TokenizerHost.Toml
