import TokenizerHost.Proofs.Config.Defaults

set_option autoImplicit false

namespace TokenizerHost

namespace Setting

open Config (settings)

variable {s : Setting} {es : List (String × Toml)} {t : Toml} {name key : String}

theorem inSection?_entriesAt (hs : s ∈ settings) (hes : Toml.Keyed Toml.Distinct es)
    (hopen : Toml.isOpen (.table es) s.sectionName) :
    s.inSection? ((es.lookup s.sectionName).map Toml.toJson) =
      Json.orElse s.standard s.read?
        (((Toml.entriesAt es s.sectionName).lookup s.key).map Toml.toJson) := by
  unfold Toml.isOpen at hopen
  unfold Toml.entriesAt
  cases hpart : es.lookup s.sectionName with
  | none => rfl
  | some part =>
    cases part with
    | table inner => exact inSection?_table (Toml.distinct_table_iff.1 (hes.lookup hpart)).nodup hs
    | _ => simp [hpart] at hopen

def StandsAt (s : Setting) (name key : String) : Prop := s.sectionName = name ∧ s.key = key

variable {v : Toml}

theorem value?_setIn_of_isOpen (hs : s ∈ settings) (ht : t.Distinct) (hv : v.Distinct)
    (hopen : t.isOpen s.sectionName) (key : String) :
    s.value? (t.setIn s.sectionName key v).1.toJson =
      if s.key = key then s.read? v.toJson else s.value? t.toJson := by
  cases t with
  | table es =>
    have hes := Toml.distinct_table_iff.1 ht
    have hset := ht.setIn hv s.sectionName key
    rw [Toml.setIn_of_isOpen hopen] at hset ⊢
    have hset := Toml.distinct_table_iff.1 hset
    have hinner := hset.lookup (by rw [Toml.lookup_upsert, if_pos rfl])
    rw [value?_table hset.nodup hs, value?_table hes.nodup hs, Toml.lookup_upsert, if_pos rfl,
      Option.map_some, inSection?_table (Toml.distinct_table_iff.1 hinner).nodup hs,
      Toml.lookup_upsert, inSection?_entriesAt hs hes hopen]
    split
    · rfl
    · rfl
  | _ => cases hopen

theorem value?_setIn_other (hs : s ∈ settings) (ht : t.Distinct) (hv : v.Distinct)
    (hplace : ¬ s.StandsAt name key) : s.value? (t.setIn name key v).1.toJson = s.value? t.toJson := by
  cases hopen : t.isOpen name with
  | false => rw [Toml.setIn_of_not_isOpen hopen]
  | true =>
    by_cases hname : s.sectionName = name
    · subst hname
      rw [value?_setIn_of_isOpen hs ht hv hopen, if_neg fun hkey => hplace ⟨rfl, hkey⟩]
    · cases t with
      | table es =>
        have hes := Toml.distinct_table_iff.1 ht
        have hset := ht.setIn hv name key
        rw [Toml.setIn_of_isOpen hopen] at hset ⊢
        rw [value?_table (Toml.distinct_table_iff.1 hset).nodup hs, value?_table hes.nodup hs,
          Toml.lookup_upsert, if_neg hname]
      | _ => cases hopen

end Setting

namespace Override

open Config (settings)

variable {vars : Environment} {tree : Toml} {state : Toml × Nat} {o : Override} {s : Setting}
  {done rest : List Override} {value : String}

/-- The variable is set, and its section can take its key. -/
def effective (o : Override) (vars : Environment) (tree : Toml) : Bool :=
  (o.value? vars).isSome && tree.isOpen o.sectionName

theorem isOpen_apply (o : Override) (vars : Environment) (state : Toml × Nat) (name : String) :
    (o.apply vars state).1.isOpen name = state.1.isOpen name := by
  cases hvalue : o.value? vars with
  | none => rw [apply_of_unset hvalue]
  | some value => rw [apply_of_set hvalue, Toml.isOpen_setIn]

theorem distinct_apply (h : state.1.Distinct) : (o.apply vars state).1.Distinct := by
  cases hvalue : o.value? vars with
  | none => rwa [apply_of_unset hvalue]
  | some value =>
    rw [apply_of_set hvalue]
    exact h.setIn (Toml.distinct_string value) _ _

theorem count_apply (o : Override) (vars : Environment) (state : Toml × Nat) :
    (o.apply vars state).2 = state.2 + if o.effective vars state.1 then 1 else 0 := by
  cases hvalue : o.value? vars with
  | none => simp [apply_of_unset hvalue, effective, hvalue]
  | some value =>
    rw [apply_of_set hvalue, Toml.setIn_snd, effective, hvalue]
    cases state.1.isOpen o.sectionName with
    | false => rfl
    | true => rfl

theorem value?_apply_same (hs : s ∈ settings) (hdistinct : state.1.Distinct)
    (hvalue : o.value? vars = some value) (hopen : state.1.isOpen o.sectionName)
    (hplace : s.StandsAt o.sectionName o.key) :
    s.value? (o.apply vars state).1.toJson = s.read? (.string value) := by
  rw [apply_of_set hvalue, ← hplace.1, ← hplace.2]
  rw [← hplace.1] at hopen
  rw [Setting.value?_setIn_of_isOpen hs hdistinct (Toml.distinct_string value) hopen, if_pos rfl]
  rfl

theorem value?_apply_other (hs : s ∈ settings) (hdistinct : state.1.Distinct)
    (hplace : ¬ s.StandsAt o.sectionName o.key) :
    s.value? (o.apply vars state).1.toJson = s.value? state.1.toJson := by
  cases hvalue : o.value? vars with
  | none => rw [apply_of_unset hvalue]
  | some value =>
    rw [apply_of_set hvalue]
    exact Setting.value?_setIn_other hs hdistinct (Toml.distinct_string value) hplace

theorem apply_fst_of_not_effective (h : o.effective vars state.1 = false) :
    (o.apply vars state).1 = state.1 := by
  cases hvalue : o.value? vars with
  | none => rw [apply_of_unset hvalue]
  | some value =>
    have hopen : state.1.isOpen o.sectionName = false := by simpa [effective, hvalue] using h
    rw [apply_of_set hvalue, Toml.setIn_of_not_isOpen hopen]

/-- What the variables of a list have done to a tree, and how many of them were counted. -/
structure Overridden (vars : Environment) (tree : Toml) (done : List Override) (state : Toml × Nat) :
    Prop where
  distinct : state.1.Distinct
  isOpen : ∀ name, state.1.isOpen name = tree.isOpen name
  count : state.2 = done.countP (·.effective vars tree)
  kept : ∀ s ∈ settings,
    (∀ o ∈ done, s.StandsAt o.sectionName o.key → o.effective vars tree = false) →
      s.value? state.1.toJson = s.value? tree.toJson
  replaced : ∀ o ∈ done, ∀ value, o.value? vars = some value → tree.isOpen o.sectionName →
    ∀ s ∈ settings, s.StandsAt o.sectionName o.key →
      s.value? state.1.toJson = s.read? (.string value)

theorem Overridden.start (htree : tree.Distinct) : Overridden vars tree [] (tree, 0) where
  distinct := htree
  isOpen _ := rfl
  count := rfl
  kept _ _ _ := rfl
  replaced := nofun

theorem effective_congr (h : ∀ name, state.1.isOpen name = tree.isOpen name) :
    o.effective vars state.1 = o.effective vars tree := by
  rw [effective, effective, h]

def Apart (p o : Override) : Prop := ¬ (p.sectionName = o.sectionName ∧ p.key = o.key)

theorem Overridden.step (h : Overridden vars tree done state) (hnew : ∀ p ∈ done, p.Apart o) :
    Overridden vars tree (done ++ [o]) (o.apply vars state) where
  distinct := distinct_apply h.distinct
  isOpen name := (isOpen_apply o vars state name).trans (h.isOpen name)
  count := by
    rw [count_apply, effective_congr h.isOpen, h.count, List.countP_append, List.countP_singleton]
  -- either the variable did nothing, or it set another key
  kept s hs hcond := by
    have hbefore := h.kept s hs fun p hp => hcond p (List.mem_append_left _ hp)
    by_cases hplace : s.StandsAt o.sectionName o.key
    · have hineffective := hcond o (by simp) hplace
      rw [apply_fst_of_not_effective ((effective_congr h.isOpen).trans hineffective), hbefore]
    · rw [value?_apply_other hs h.distinct hplace, hbefore]
  replaced p hp value hvalue hopen s hs hplace := by
    rcases List.mem_append.1 hp with hp | hp
    · have hother : ¬ s.StandsAt o.sectionName o.key := fun hplace' =>
        hnew p hp ⟨hplace.1.symm.trans hplace'.1, hplace.2.symm.trans hplace'.2⟩
      rw [value?_apply_other hs h.distinct hother]
      exact h.replaced p hp value hvalue hopen s hs hplace
    · cases List.mem_singleton.1 hp
      exact value?_apply_same hs h.distinct hvalue ((h.isOpen _).trans hopen) hplace

-- No variable is applied at a place where another was before.
theorem Overridden.run (h : Overridden vars tree done state)
    (hplaces : (done ++ rest).Pairwise Apart) :
    Overridden vars tree (done ++ rest) (rest.foldl (fun state o => o.apply vars state) state) := by
  induction rest generalizing done state with
  | nil => simpa using h
  | cons o rest ih =>
    rw [List.append_cons] at hplaces ⊢
    have hbefore := (List.pairwise_append.1 (List.pairwise_append.1 hplaces).1).2.2
    exact ih (h.step fun p hp => hbefore p hp o (List.mem_singleton_self o)) hplaces

theorem pairwise_apart : overrides.Pairwise Apart := by simp [overrides, Apart]

theorem overridden_applyAll (htree : tree.Distinct) :
    Overridden vars tree overrides (applyAll vars tree) :=
  Overridden.run (.start htree) pairwise_apart

end Override

/-! ## What is loaded -/

theorem Setting.isOpen_eq_not_isArrayAt {s : Setting} {tree : Toml} {x : s.Value}
    (hs : s ∈ Config.settings) (htree : Config.OfDocuments tree) (hread : s.value? tree.toJson = some x) :
    tree.isOpen s.sectionName = !tree.isArrayAt s.sectionName := by
  obtain ⟨es, rfl⟩ | ⟨moment, rfl⟩ := htree.shape
  · rw [value?_table (Toml.distinct_table_iff.1 htree.distinct).nodup hs] at hread
    unfold Toml.isOpen Toml.isArrayAt Toml.child?
    dsimp only
    cases hpart : es.lookup s.sectionName with
    | none => rfl
    | some part =>
      rw [hpart] at hread
      cases part with
      | array | table => rfl
      | _ => simp [inSection?, Json.field?, Toml.toJson, Json.fields?] at hread
  · simp [value?, Json.field?, Toml.toJson, Json.fields?] at hread

namespace Override

/-- The variable is set, and its section is not written as an array. -/
def wins (o : Override) (vars : Environment) (tree : Toml) : Bool :=
  (o.value? vars).isSome && !tree.isArrayAt o.sectionName

def targets : List (Override × (Config → String)) :=
  overrides.zip [(·.guest.source), (·.guest.functionName), (·.logging.level), (·.logging.format)]

theorem exists_target {o : Override} (h : o ∈ overrides) : ∃ field, (o, field) ∈ targets := by
  have htargets : overrides = targets.map (·.1) := rfl
  rw [htargets] at h
  obtain ⟨⟨o, field⟩, hmem, rfl⟩ := List.mem_map.1 h
  exact ⟨field, hmem⟩

theorem exists_setting_of_mem_targets {o : Override} {field : Config → String}
    (h : (o, field) ∈ targets) :
    ∃ s ∈ Config.settings, s.StandsAt o.sectionName o.key ∧
      ∀ value c, s.read? (.string value) = some (s.get c) → field c = value := by
  have hread (value x : String) (h : Json.string? (.string value) = some x) : x = value := by
    cases h
    rfl
  simp only [targets, overrides, List.zip_cons_cons, List.zip_nil_right, List.mem_cons,
    List.not_mem_nil, or_false, Prod.mk.injEq] at h
  obtain ⟨rfl, rfl⟩ | ⟨rfl, rfl⟩ | ⟨rfl, rfl⟩ | ⟨rfl, rfl⟩ := h
  · exact ⟨ModuleSettings.setting "source" (·.source) Json.string?,
      by simp [Config.settings, ModuleSettings.settings], ⟨rfl, rfl⟩, fun _ _ => hread _ _⟩
  · exact ⟨ModuleSettings.setting "export" (·.functionName) Json.string?,
      by simp [Config.settings, ModuleSettings.settings], ⟨rfl, rfl⟩, fun _ _ => hread _ _⟩
  · exact ⟨LoggingSettings.setting "level" (·.level) Json.string?,
      by simp [Config.settings, LoggingSettings.settings], ⟨rfl, rfl⟩, fun _ _ => hread _ _⟩
  · exact ⟨LoggingSettings.setting "format" (·.format) Json.string?,
      by simp [Config.settings, LoggingSettings.settings], ⟨rfl, rfl⟩, fun _ _ => hread _ _⟩

end Override

namespace Config

variable {user : LayerFile} {explicit : Option LayerFile} {vars : Environment} {tree : Toml}
  {resolved : ResolvedConfig}

/-- A tree that could be read after all has been set: sections that took no key are arrays. -/
theorem effective_eq_wins {state : Toml × Nat} {c : Config} (htree : OfDocuments tree)
    (hdone : Override.Overridden vars tree overrides state) (hread : ofJson? state.1.toJson = some c)
    {o : Override} (ho : o ∈ overrides) : o.effective vars tree = o.wins vars tree := by
  have hopen : tree.isOpen o.sectionName = !tree.isArrayAt o.sectionName := by
    cases hopen : tree.isOpen o.sectionName with
    | true => rw [Toml.isArrayAt_of_isOpen hopen, Bool.not_false]
    | false =>
      obtain ⟨field, hfield⟩ := Override.exists_target ho
      obtain ⟨s, hs, hplace, -⟩ := Override.exists_setting_of_mem_targets hfield
      have hkept := hdone.kept s hs fun p _ hp => by
        rw [Override.effective, ← hp.1, hplace.1, hopen, Bool.and_false]
      have hvalue := hkept.symm.trans (ofJson?_eq_some_iff.1 hread s hs)
      rw [← hopen, ← hplace.1]
      exact Setting.isOpen_eq_not_isArrayAt hs htree hvalue
  rw [Override.effective, Override.wins, hopen]

/-- What the variables come to: each that is set to something sets its field, unless its section is
written as an array; all other settings are what the documents make them; and the variables that did
set their field are counted. -/
theorem variables_win_unless_array (h : loadLayers user explicit vars = .ok resolved) :
    ∃ tree, layeredTree user explicit = .ok tree ∧
      (∀ o field value, (o, field) ∈ Override.targets → o.value? vars = some value →
        o.wins vars tree → field resolved.config = value) ∧
      (∀ s ∈ settings,
        (∀ o ∈ overrides, s.StandsAt o.sectionName o.key → o.wins vars tree = false) →
          s.value? tree.toJson = some (s.get resolved.config) ∧
          ∀ plain, loadLayers user explicit .empty = .ok plain →
            s.get resolved.config = s.get plain.config) ∧
      resolved.overrideCount = overrides.countP (·.wins vars tree) := by
  obtain ⟨tree, htree, hread, hcount⟩ := exists_layeredTree h
  have hdocuments := ofDocuments_layeredTree htree
  have hdone : Override.Overridden vars tree overrides (Override.applyAll vars tree) :=
    Override.overridden_applyAll hdocuments.distinct
  have hsettings := ofJson?_eq_some_iff.1 hread
  have hwins : ∀ o ∈ overrides, o.effective vars tree = o.wins vars tree := fun o ho =>
    effective_eq_wins hdocuments hdone hread ho
  refine ⟨tree, htree, fun o field value hfield hvalue hwin => ?_, fun s hs hcond => ?_, ?_⟩
  · have ho : o ∈ overrides := List.of_mem_zip hfield |>.1
    obtain ⟨s, hs, hplace, hget⟩ := Override.exists_setting_of_mem_targets hfield
    have hopen : tree.isOpen o.sectionName := by
      have heffective := (hwins o ho).trans hwin
      exact (Bool.and_eq_true_iff.1 heffective).2
    apply hget
    rw [← hsettings s hs]
    exact (hdone.replaced o ho value hvalue hopen s hs hplace).symm
  · have hkept := hdone.kept s hs fun o ho hplace => (hwins o ho).trans (hcond o ho hplace)
    have hvalue := hkept.symm.trans (hsettings s hs)
    refine ⟨hvalue, fun plain hplain => ?_⟩
    obtain ⟨tree', htree', hread', -⟩ := exists_layeredTree hplain
    cases htree.symm.trans htree'
    rw [Override.applyAll_of_unset fun _ _ => rfl] at hread'
    exact Option.some.inj (hvalue.symm.trans (ofJson?_eq_some_iff.1 hread' s hs))
  · rw [hcount, hdone.count]
    exact List.countP_congr fun o ho => by rw [hwins o ho]

def arrayDocument : LayerFile := ⟨"home/config.toml", .ok "module = [\"s\"]\n".toUTF8⟩

theorem tree?_arrayDocument :
    arrayDocument.tree? = .ok (some (.table [("module", .array [.string "s"])])) :=
  LayerFile.tree?_of_tree (LayerFile.tree_of_text (by decide) (by cbv))

theorem variables_win_unless_array_mixed :
    let vars : Environment :=
      .ofList [("KOTOBA_MODULE_SOURCE", "env.wasm"), ("KOTOBA_LOG_LEVEL", "debug")]
    let resolved : ResolvedConfig :=
      ⟨{ standard with guest.source := "s", logging.level := "debug" }, ["home/config.toml"], 1⟩
    loadLayers arrayDocument none vars = .ok resolved ∧
      ∃ tree, layeredTree arrayDocument none = .ok tree ∧
        (∀ o field value, (o, field) ∈ Override.targets → o.value? vars = some value →
          o.wins vars tree → field resolved.config = value) ∧
        resolved.overrideCount = overrides.countP (·.wins vars tree) := by
  intro vars resolved
  have hload : loadLayers arrayDocument none vars = .ok resolved := by
    rw [loadLayers, standardLayer_eq, tree?_arrayDocument]
    cbv
  obtain ⟨tree, hlayered, hwin, -, hcount⟩ := variables_win_unless_array hload
  exact ⟨hload, tree, hlayered, hwin, hcount⟩

/-- A variable that is set does not always set its field. -/
theorem variable_lost_in_array_section :
    let vars : Environment := .ofList [("KOTOBA_MODULE_SOURCE", "env.wasm")]
    ∃ resolved, loadLayers arrayDocument none vars = .ok resolved ∧
      vars.find? "KOTOBA_MODULE_SOURCE" = some "env.wasm" ∧
        resolved.config.guest.source ≠ "env.wasm" ∧ resolved.overrideCount ≠ 1 := by
  intro vars
  refine ⟨⟨{ standard with guest.source := "s" }, ["home/config.toml"], 0⟩, ?_, rfl, by decide, by decide⟩
  rw [loadLayers, standardLayer_eq, tree?_arrayDocument]
  cbv

end Config

end TokenizerHost
