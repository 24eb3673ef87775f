import TokenizerHost.Proofs.Config.Overrides
import TokenizerHost.Proofs.Toml.Paths

set_option autoImplicit false

namespace TokenizerHost

namespace Assoc

variable {κ υ : Type} [DecidableEq κ]

theorem find?_foldl_insert {pairs : List (κ × υ)} (hnodup : (pairs.map (·.1)).Nodup) (m : Assoc κ υ)
    (k : κ) :
    (pairs.foldl (fun m e => m.insert e.1 e.2) m).find? k = (pairs.lookup k).or (m.find? k) := by
  induction pairs generalizing m with
  | nil => rfl
  | cons e pairs ih =>
    obtain ⟨a, b⟩ := e
    rw [List.map_cons, List.nodup_cons] at hnodup
    rw [List.foldl_cons, ih hnodup.2, find?_insert, List.lookup_cons]
    by_cases hk : k = a
    · subst hk
      have hnone : pairs.lookup k = none := by
        rw [List.lookup_eq_none_iff]
        intro e he
        exact bne_iff_ne.2 fun heq => hnodup.1 (List.mem_map.2 ⟨e, he, heq.symm⟩)
      simp [hnone]
    · simp [hk, beq_false_of_ne hk]

theorem find?_ofList {pairs : List (κ × υ)} (hnodup : (pairs.map (·.1)).Nodup) (k : κ) :
    (ofList pairs).find? k = pairs.lookup k := by
  rw [ofList, find?_foldl_insert hnodup, find?_empty, Option.or_none]

end Assoc

namespace Environment

variable {es : List (String × Toml)} {pairs : List (String × String)} {env : Environment}

theorem mapM_setting? (h : (Toml.entriesToJson es).mapM ofJson?.setting? = some pairs) :
    pairs.map (·.1) = Toml.keys es ∧
      ∀ name, pairs.lookup name = (es.lookup name).bind fun v => v.toJson.string? := by
  induction es generalizing pairs with
  | nil =>
    cases h
    exact ⟨rfl, fun _ => rfl⟩
  | cons e es ih =>
    obtain ⟨key, v⟩ := e
    rw [Toml.entriesToJson, List.mapM_cons] at h
    obtain ⟨pair, hpair, h⟩ := Option.bind_eq_some_iff.1 h
    obtain ⟨rest, hrest, h⟩ := Option.bind_eq_some_iff.1 h
    cases h
    obtain ⟨text, htext, hpair⟩ := Option.bind_eq_some_iff.1 hpair
    cases hpair
    obtain ⟨hkeys, hlookup⟩ := ih hrest
    refine ⟨congrArg (key :: ·) hkeys, fun name => ?_⟩
    by_cases hname : name = key
    · subst hname
      rw [List.lookup_cons_self, List.lookup_cons_self, Option.bind_some, htext]
    · rw [Toml.lookup_cons_of_ne hname, Toml.lookup_cons_of_ne hname, hlookup]

theorem find?_of_ofJson? (hkeys : (Toml.keys es).Nodup) (h : ofJson? (Toml.table es).toJson = some env)
    (name : String) : env.find? name = (es.lookup name).bind fun v => v.toJson.string? := by
  rw [Toml.toJson, ofJson?] at h
  obtain ⟨pairs, hpairs, rfl⟩ := Option.map_eq_some_iff.1 h
  obtain ⟨hnames, hlookup⟩ := mapM_setting? hpairs
  rw [Assoc.find?_ofList (hnames ▸ hkeys), hlookup]

end Environment

namespace Setting

open Config (settings standardTree)

variable {s : Setting} {t : Toml} {layers more : List Toml}

theorem value?_of_isTable (hs : s ∈ settings) (ht : t.Distinct)
    (hsection : ∃ v, t.get? [s.sectionName] = some v ∧ v.IsTable) :
    s.value? t.toJson =
      Json.orElse s.standard s.read? ((t.get? [s.sectionName, s.key]).map Toml.toJson) := by
  obtain ⟨_, hpart, entries, rfl⟩ := hsection
  obtain ⟨es, rfl⟩ : t.IsTable := by
    obtain ⟨_, hchild, -⟩ := Option.bind_eq_some_iff.1 hpart
    exact Toml.isTable_of_child? hchild
  have hes := Toml.distinct_table_iff.1 ht
  have hlookup : es.lookup s.sectionName = some (.table entries) := by
    rw [Toml.get?_table] at hpart
    obtain ⟨_, hlookup, hsame⟩ := Option.bind_eq_some_iff.1 hpart
    cases hsame
    exact hlookup
  rw [value?_table hes.nodup hs, hlookup, Option.map_some,
    inSection?_table (Toml.distinct_table_iff.1 (hes.lookup hlookup)).nodup hs, Toml.get?_table, hlookup,
    Option.bind_some, Toml.get?_table]
  cases entries.lookup s.key <;> rfl

theorem isTable_standardTree (hs : s ∈ settings) :
    ∃ v, standardTree.get? [s.sectionName] = some v ∧ v.IsTable := by
  obtain ⟨entries, hchild, -⟩ := standardTree_spec hs
  exact ⟨.table entries, by rw [Toml.get?_cons, hchild]; rfl, entries, rfl⟩

theorem read?_of_isTable (hs : s ∈ settings) (hkey : s.key ≠ "env") (ht : t.IsTable) :
    s.read? t.toJson = none := by
  obtain ⟨es, rfl⟩ := ht
  revert s
  simp [settings, ModuleSettings.settings, ModuleSettings.setting, SchedulerSettings.settings,
    SchedulerSettings.setting, AnalyzerSettings.settings, AnalyzerSettings.setting,
    LoggingSettings.settings, LoggingSettings.setting, Toml.toJson, Json.string?, Json.list?, Json.word?,
    Json.nullable?]

/-- What a setting is that some layers leave: it is read where the topmost of them has it. -/
theorem value?_of_showsTopmost (hs : s ∈ settings) (hkey : s.key ≠ "env") (ht : t.Distinct)
    (hshows : Toml.ShowsTopmost (standardTree :: more) t)
    (hkeeps : (standardTree :: more).Pairwise Toml.KeepsTables) :
    s.value? t.toJson = Json.orElse s.standard s.read?
      ((Toml.topmost? (standardTree :: more) [s.sectionName, s.key]).map Toml.toJson) := by
  rw [value?_of_isTable hs ht (hshows.isTable hkeeps (isTable_standardTree hs))]
  cases htop : Toml.topmost? (standardTree :: more) [s.sectionName, s.key] with
  | none => rw [hshows.nothing _ htop]
  | some v =>
    by_cases htable : v.IsTable
    -- neither the table in the layer nor the one that it is merged into can be read
    · obtain ⟨w, hw, hwtable⟩ := hshows.table _ v htop htable
      rw [hw, Option.map_some, Option.map_some, Json.orElse, Json.orElse, read?_of_isTable hs hkey htable,
        read?_of_isTable hs hkey hwtable]
    · rw [hshows.value _ v htop htable]

end Setting

namespace LayerFile

variable {path path' : String} {content : Except ReadFailure ByteArray} {t : Toml}

theorem tree?_isSome (hfound : content ≠ .error .notFound) {found : Option Toml}
    (h : tree? ⟨path, content⟩ = .ok found) : found.isSome := by
  unfold tree? at h
  split at h
  next hmissing => exact absurd hmissing hfound
  · cases h
  · split at h
    · cases h
    · split at h
      · cases h
      · split at h
        · cases h
          rfl
        · cases h

/-- Only errors name the path. -/
theorem tree?_moved (h : tree? ⟨path, content⟩ = .ok (some t)) : tree? ⟨path', content⟩ = .ok (some t) := by
  unfold tree? at h ⊢
  dsimp only at h ⊢
  split at h
  · cases h
  · cases h
  · split at h
    · cases h
    · split at h
      · cases h
      next hsize =>
        split at h
        next hparse =>
          cases h
          simp only [*, if_false]
        · cases h

theorem tree_of_tree? {f : LayerFile} (h : f.tree? = .ok (some t)) : f.tree = .ok t := by
  rw [tree, h]
  rfl

end LayerFile

def Config.envSetting : Setting := ModuleSettings.setting "env" (·.env) Environment.ofJson?

theorem Config.envSetting_mem : envSetting ∈ settings := by
  simp [envSetting, settings, ModuleSettings.settings]

open Config (standardTree)

/-- What the variables of the guest are that some layers leave. -/
theorem Environment.find?_of_showsTopmost {t : Toml} {more : List Toml} {env : Environment} (ht : t.Distinct)
    (hshows : Toml.ShowsTopmost (standardTree :: more) t)
    (hkeeps : (standardTree :: more).Pairwise Toml.KeepsTables)
    (henv : Config.envSetting.value? t.toJson = some env) (name : String) :
    env.find? name =
      (Toml.topmost? (standardTree :: more) ["module", "env", name]).bind fun v => v.toJson.string? := by
  have hsection := hshows.isTable hkeeps (Setting.isTable_standardTree Config.envSetting_mem)
  rw [Setting.value?_of_isTable Config.envSetting_mem ht hsection] at henv
  have henvTable : ∃ v, standardTree.get? ["module", "env"] = some v ∧ v.IsTable := ⟨.table [], rfl, [], rfl⟩
  obtain ⟨_, hpart, es, rfl⟩ := hshows.isTable hkeeps henvTable
  have hpath : t.get? ["module", "env", name] = es.lookup name := by
    have happend := Toml.get?_append ["module", "env"] [name] t
    rw [hpart, Option.bind_some, Toml.get?_table] at happend
    refine happend.trans ?_
    cases es.lookup name <;> rfl
  have hread : t.get? [Config.envSetting.sectionName, Config.envSetting.key] = some (.table es) := hpart
  rw [hread] at henv
  have hkeys : (Toml.keys es).Nodup := (Toml.distinct_table_iff.1 (ht.get? hpart)).nodup
  rw [find?_of_ofJson? hkeys henv, ← hpath]
  cases htop : Toml.topmost? (standardTree :: more) ["module", "env", name] with
  | none => rw [hshows.nothing _ htop]
  | some v =>
    by_cases htable : v.IsTable
    · obtain ⟨w, hw, hwtable⟩ := hshows.table _ v htop htable
      obtain ⟨_, rfl⟩ := htable
      obtain ⟨_, rfl⟩ := hwtable
      rw [hw]
      rfl
    · rw [hshows.value _ v htop htable]

namespace Config

variable {user : LayerFile} {explicit : Option LayerFile} {vars : Environment} {resolved : ResolvedConfig}

/-- The setting under the name is that of the tree, unless a variable is set for it. -/
theorem value?_of_loadLayers {tree : Toml} {s : Setting} (h : loadLayers user explicit vars = .ok resolved)
    (htree : layeredTree user explicit = .ok tree) (hs : s ∈ settings)
    (hunset : ∀ o ∈ overrides, s.StandsAt o.sectionName o.key → o.value? vars = none) :
    s.value? tree.toJson = some (s.get resolved.config) := by
  obtain ⟨tree', htree', hread, -⟩ := exists_layeredTree h
  cases htree.symm.trans htree'
  have hdone : Override.Overridden vars tree overrides (Override.applyAll vars tree) :=
    Override.overridden_applyAll (ofDocuments_layeredTree htree).distinct
  rw [← hdone.kept s hs fun o ho hplace => by rw [Override.effective, hunset o ho hplace]; rfl]
  exact ofJson?_eq_some_iff.1 hread s hs

def resolve (vars : Environment) (files : List String) (tree : Toml) : Except ConfigError ResolvedConfig :=
  (ofTree "<merged config>" (Override.applyAll vars tree).1).map fun config =>
    ⟨config, files, (Override.applyAll vars tree).2⟩

section Resolve

variable {f : LayerFile} {t t' : Toml}

theorem loadLayers_user (huser : user.tree? = .ok (some t)) :
    loadLayers user none vars = resolve vars [user.path] (Toml.merge standardTree t) := by
  rw [loadLayers, standardLayer_eq, huser, resolve]
  rfl

theorem loadLayers_explicit (huser : user.tree? = .ok none) (hexplicit : f.tree = .ok t) :
    loadLayers user (some f) vars = resolve vars [f.path] (Toml.merge standardTree t) := by
  have hlayer : (some f).mapM LayerFile.tree = .ok (some t) := by simp [hexplicit]
  rw [loadLayers, standardLayer_eq, huser, hlayer, resolve]
  rfl

theorem loadLayers_both (huser : user.tree? = .ok (some t)) (hexplicit : f.tree = .ok t') :
    loadLayers user (some f) vars =
      resolve vars [user.path, f.path] (Toml.merge (Toml.merge standardTree t) t') := by
  have hlayer : (some f).mapM LayerFile.tree = .ok (some t') := by simp [hexplicit]
  rw [loadLayers, standardLayer_eq, huser, hlayer, resolve]
  rfl

theorem resolve_files (vars : Environment) (files files' : List String) (tree : Toml) :
    resolve vars files tree = (resolve vars files' tree).map fun r => { r with files } := by
  unfold resolve
  cases ofTree "<merged config>" (Override.applyAll vars tree).1 <;> rfl

end Resolve

/-- A document that is given twice counts once. -/
theorem loadLayers_twice {content : Except ReadFailure ByteArray} (hfound : content ≠ .error .notFound)
    (path path' : String) (vars : Environment) :
    loadLayers ⟨path, content⟩ (some ⟨path', content⟩) vars =
        (loadLayers ⟨path, content⟩ none vars).map (fun r => { r with files := [path, path'] }) ∧
      ∀ user : LayerFile, user.content = .error .notFound → ∀ r,
        loadLayers user (some ⟨path', content⟩) vars = .ok r ↔
          ∃ r', loadLayers ⟨path, content⟩ (some ⟨path', content⟩) vars = .ok r' ∧
            r = { r' with files := [path'] } := by
  cases huser : LayerFile.tree? ⟨path, content⟩ with
  | error e =>
    refine ⟨?_, fun user hmissing r => ?_⟩
    · rw [loadLayers, loadLayers, standardLayer_eq, huser]
      rfl
    · rw [loadLayers, loadLayers, standardLayer_eq, huser]
      refine iff_of_false (fun h => ?_) (by rintro ⟨_, h, -⟩; cases h)
      obtain ⟨_, hstandard, h⟩ := except_bind_ok h
      obtain ⟨_, -, h⟩ := except_bind_ok h
      obtain ⟨explicitTree, hexplicit, -⟩ := except_bind_ok h
      obtain ⟨t, htree, -⟩ := except_bind_ok hexplicit
      cases huser.symm.trans (LayerFile.tree?_moved (LayerFile.tree?_of_tree htree))
  | ok found =>
    obtain ⟨t, rfl⟩ := Option.isSome_iff_exists.1 (LayerFile.tree?_isSome hfound huser)
    obtain ⟨text, htext⟩ := LayerFile.parse?_of_tree? huser
    have hexplicit : LayerFile.tree ⟨path', content⟩ = .ok t :=
      LayerFile.tree_of_tree? (LayerFile.tree?_moved huser)
    have hboth : loadLayers ⟨path, content⟩ (some ⟨path', content⟩) vars =
        resolve vars [path, path'] (Toml.merge standardTree t) := by
      rw [loadLayers_both huser hexplicit, Toml.merge_merge (Toml.distinct_of_parse? htext)]
    refine ⟨?_, fun user hmissing r => ?_⟩
    · rw [hboth, loadLayers_user huser, resolve_files vars [path, path'] [path]]
    · have hnone : user.tree? = .ok none := by rw [LayerFile.tree?, hmissing]
      rw [hboth, loadLayers_explicit hnone hexplicit, resolve_files vars [path'] [path, path']]
      cases resolve vars [path, path'] (Toml.merge standardTree t) <;> simp [Except.map, eq_comm]

/-- Layers are merged path by path. What the upper of two trees has at a path, if that is no table,
stands there in the merged tree; what the lower one has stands there if the upper one has nothing, and
nothing but tables on the way; nothing else is added, and merging the upper tree again changes nothing.
So if no layer has something else where a lower one has a table, each path leads to what the topmost
layer has there, and each setting that no variable sets is read there. A document that is both the
user's and named explicitly counts once. -/
theorem layers_merge_by_path :
    (∀ base above : Toml, above.Distinct → Toml.LaidOver base above (Toml.merge base above) ∧
      Toml.merge (Toml.merge base above) above = Toml.merge base above) ∧
    (∀ user explicit vars resolved, loadLayers user explicit vars = .ok resolved →
      ∃ layers tree, layerTrees user explicit = .ok layers ∧ layeredTree user explicit = .ok tree ∧
        (layers.Pairwise Toml.KeepsTables →
          Toml.ShowsTopmost layers tree ∧
          (∀ s ∈ settings, s.key ≠ "env" →
            (∀ o ∈ overrides, s.StandsAt o.sectionName o.key → o.value? vars = none) →
              Json.orElse s.standard s.read?
                ((Toml.topmost? layers [s.sectionName, s.key]).map Toml.toJson) =
                  some (s.get resolved.config)) ∧
          ∀ name, resolved.config.guest.env.find? name =
            (Toml.topmost? layers ["module", "env", name]).bind fun v => v.toJson.string?)) ∧
    ∀ content : Except ReadFailure ByteArray, content ≠ .error .notFound → ∀ path path' vars,
      loadLayers ⟨path, content⟩ (some ⟨path', content⟩) vars =
          (loadLayers ⟨path, content⟩ none vars).map (fun r => { r with files := [path, path'] }) ∧
        ∀ user : LayerFile, user.content = .error .notFound → ∀ r,
          loadLayers user (some ⟨path', content⟩) vars = .ok r ↔
            ∃ r', loadLayers ⟨path, content⟩ (some ⟨path', content⟩) vars = .ok r' ∧
              r = { r' with files := [path'] } := by
  refine ⟨fun base above habove => ⟨Toml.laidOver_merge habove base, Toml.merge_merge habove base⟩,
    fun user explicit vars resolved h => ?_,
    fun content hfound path path' vars => loadLayers_twice hfound path path' vars⟩
  obtain ⟨tree, htree, -⟩ := exists_layeredTree h
  obtain ⟨standard, more, hstandard, hlayers, hmerged, hmore⟩ := exists_layerTrees htree
  cases standardLayer_eq.symm.trans hstandard
  refine ⟨standardTree :: more, tree, hlayers, htree, fun hkeeps => ?_⟩
  have hdistinct : tree.Distinct := (ofDocuments_layeredTree htree).distinct
  have hshows : Toml.ShowsTopmost (standardTree :: more) tree := by
    rw [hmerged]
    exact (Toml.showsTopmost_singleton standardTree).append (fun t ht => (hmore t ht).distinct) hkeeps
  refine ⟨hshows, fun s hs hkey hunset => ?_, fun name => ?_⟩
  · rw [← Setting.value?_of_showsTopmost hs hkey hdistinct hshows hkeeps]
    exact value?_of_loadLayers h htree hs hunset
  · have hplace : ∀ o ∈ overrides, ¬ envSetting.StandsAt o.sectionName o.key := by
      simp [overrides, Setting.StandsAt, envSetting, ModuleSettings.setting]
    have henv := value?_of_loadLayers h htree envSetting_mem fun o ho hset => absurd hset (hplace o ho)
    exact Environment.find?_of_showsTopmost hdistinct hshows hkeeps henv name

def ownTree : Toml :=
  .table [("module", .table [("source", .string "own.wasm"),
    ("env", .table [("A", .string "1"), ("B", .string "2")])])]

def givenTree : Toml := .table [("module", .table [("env", .table [("B", .string "3")])])]

def ownDocument : LayerFile :=
  ⟨"home/config.toml", .ok "[module]\nsource = \"own.wasm\"\n[module.env]\nA = \"1\"\nB = \"2\"\n".toUTF8⟩

def givenDocument : LayerFile := ⟨"given.toml", .ok "[module.env]\nB = \"3\"\n".toUTF8⟩

theorem layers_merge_by_path_own_and_given :
    let resolved : ResolvedConfig :=
      ⟨{ standard with guest.source := "own.wasm", guest.env := .ofList [("A", "1"), ("B", "3")] },
        ["home/config.toml", "given.toml"], 0⟩
    loadLayers ownDocument (some givenDocument) .empty = .ok resolved ∧
      [standardTree, ownTree, givenTree].Pairwise Toml.KeepsTables ∧
      Toml.LaidOver ownTree givenTree (Toml.merge ownTree givenTree) ∧
      Json.orElse ModuleSettings.standard.source Json.string?
        ((Toml.topmost? [standardTree, ownTree, givenTree] ["module", "source"]).map Toml.toJson) =
          some resolved.config.guest.source ∧
      resolved.config.guest.env.find? "B" =
        (Toml.topmost? [standardTree, ownTree, givenTree] ["module", "env", "B"]).bind fun v =>
          v.toJson.string? := by
  intro resolved
  have hown : ownDocument.tree = .ok ownTree := LayerFile.tree_of_text (by decide) (by cbv)
  have hgiven : givenDocument.tree = .ok givenTree := LayerFile.tree_of_text (by decide) (by cbv)
  have hload : loadLayers ownDocument (some givenDocument) .empty = .ok resolved := by
    rw [loadLayers_both (LayerFile.tree?_of_tree hown) hgiven]
    cbv
  obtain ⟨text, htext⟩ := LayerFile.parse?_of_tree? (LayerFile.tree?_of_tree hgiven)
  have hdistinct : givenTree.Distinct := Toml.distinct_of_parse? htext
  have htexts (s : String) (t : Toml) : Toml.KeepsTables (.string s) t :=
    Toml.keepsTables_of_not_isTable (by simp [Toml.IsTable])
  have hempty (es : List (String × Toml)) : Toml.KeepsTables (.table []) (.table es) :=
    Toml.keepsTables_table (by simp)
  have hkeeps : [standardTree, ownTree, givenTree].Pairwise Toml.KeepsTables := by
    simp only [List.pairwise_cons, List.forall_mem_cons, List.not_mem_nil, false_imp_iff, implies_true,
      and_true, List.Pairwise.nil]
    refine ⟨⟨?_, ?_⟩, ?_⟩
    · refine Toml.keepsTables_singleton ?_
      rintro _ ⟨⟩
      exact Toml.keepsTables_table (by simp [List.lookup, htexts, hempty])
    · refine Toml.keepsTables_singleton ?_
      rintro _ ⟨⟩
      exact Toml.keepsTables_table (by simp [List.lookup, hempty])
    · refine Toml.keepsTables_singleton ?_
      rintro _ ⟨⟩
      refine Toml.keepsTables_singleton ?_
      rintro _ ⟨⟩
      exact Toml.keepsTables_table (by simp [List.lookup, htexts])
  have hlayers : layerTrees ownDocument (some givenDocument) = .ok [standardTree, ownTree, givenTree] := by
    have hlayer : (some givenDocument).mapM LayerFile.tree = .ok (some givenTree) := by simp [hgiven]
    rw [layerTrees, standardLayer_eq, LayerFile.tree?_of_tree hown, hlayer]
    rfl
  obtain ⟨hmerge, htopmost, -⟩ := layers_merge_by_path
  obtain ⟨layers, tree, hlayers', -, hdecide⟩ := htopmost _ _ _ _ hload
  cases hlayers.symm.trans hlayers'
  obtain ⟨-, hsettings, henv⟩ := hdecide hkeeps
  refine ⟨hload, hkeeps, (hmerge ownTree givenTree hdistinct).1, ?_, henv "B"⟩
  refine hsettings (ModuleSettings.setting "source" (·.source) Json.string?) ?_ (by decide) fun _ _ _ => rfl
  simp [settings, ModuleSettings.settings]

end Config

end TokenizerHost
