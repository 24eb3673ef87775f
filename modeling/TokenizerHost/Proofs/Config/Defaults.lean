import Mathlib
import TokenizerHost.Proofs.Config.Fields
import TokenizerHost.Proofs.Config.Layering

set_option autoImplicit false

namespace TokenizerHost

namespace Config

def standardTree : Toml :=
  .table [
    ("module", .table [
      ("source", .string "kagome.wasm"),
      ("namespace", .string "gojs"),
      ("alias_namespaces", .array [.string "go"]),
      ("export", .string "kagome_tokenize"),
      ("argv", .array [.string "js"]),
      ("env", .table [])]),
    ("scheduler", .table [("max_timer_refires", .integer 16)]),
    ("analyzer", .table [
      ("symbol_marker", .string "記号"),
      ("script_ranges", .array [
        .table [("start", .integer 0x3040), ("end", .integer 0x309F)],
        .table [("start", .integer 0x30A0), ("end", .integer 0x30FF)],
        .table [("start", .integer 0x4E00), ("end", .integer 0x9FAF)]])]),
    ("logging", .table [
      ("level", .string "info"),
      ("format", .string "compact"),
      ("directives", .array [])])]

set_option maxRecDepth 4000 in
theorem parse?_standardDocument : Toml.parse? standardDocument = some standardTree := by
  rw [Toml.parse?, standardDocument, String.toList_join]
  cbv

theorem standardLayer_eq : standardLayer = .ok standardTree := by
  rw [standardLayer, parse?_standardDocument]
  rfl

theorem distinct_standardTree : standardTree.Distinct := Toml.distinct_of_parse? parse?_standardDocument

end Config

namespace Setting

open Config (settings standardTree)

variable {s : Setting} {t : Toml} {entries : List (String × Toml)}

/-- Where the setting stands in a section, it has its standard value and gives way as a whole. -/
def StandardIn (s : Setting) (entries : List (String × Toml)) : Prop :=
  ∀ v ∈ entries.lookup s.key, v.Yields ∧ s.read? v.toJson = some s.standard

theorem standardTree_spec (hs : s ∈ settings) :
    ∃ entries, standardTree.child? s.sectionName = some (.table entries) ∧ s.StandardIn entries := by
  revert s
  simp only [settings, List.forall_mem_append]
  refine ⟨⟨⟨?_, ?_⟩, ?_⟩, ?_⟩
  · have henv : Assoc.ofList [] = (Assoc.empty : Environment) := rfl
    simp [ModuleSettings.settings, ModuleSettings.setting, StandardIn, standardTree, Toml.child?,
      List.lookup, Toml.toJson, Toml.itemsToJson, Toml.entriesToJson, Json.string?, Json.list?,
      Environment.ofJson?, henv, ModuleSettings.standard, defaultFunctionName]
  · simp [SchedulerSettings.settings, SchedulerSettings.setting, StandardIn, standardTree, Toml.child?,
      List.lookup, Toml.toJson, Json.word?, UInt32.size, SchedulerSettings.standard,
      Scheduler.defaultMaxRefires]
  · have hranges : Json.list? PointRange.ofJson? (Toml.toJson (.array [
        .table [("start", .integer 0x3040), ("end", .integer 0x309F)],
        .table [("start", .integer 0x30A0), ("end", .integer 0x30FF)],
        .table [("start", .integer 0x4E00), ("end", .integer 0x9FAF)]])) =
          some AnalyzerSettings.standard.scriptRanges := by
      cbv
    simp [AnalyzerSettings.settings, AnalyzerSettings.setting, StandardIn, standardTree, Toml.child?,
      List.lookup, hranges]
    rfl
  · simp [LoggingSettings.settings, LoggingSettings.setting, StandardIn, standardTree, Toml.child?,
      List.lookup, Toml.toJson, Toml.itemsToJson, Json.string?, Json.list?,
      LoggingSettings.standard]

theorem inSection?_of_standardIn (hs : s ∈ settings) (hkeys : (Toml.keys entries).Nodup)
    (hstandard : s.StandardIn entries) :
    s.inSection? (some (Toml.table entries).toJson) = s.inSection? none := by
  rw [inSection?_table hkeys hs]
  cases hv : entries.lookup s.key with
  | none => rfl
  | some v => exact (hstandard v hv).2

theorem inSection?_merge (hs : s ∈ settings) (hkeyed : Toml.Keyed Toml.Distinct entries)
    (hstandard : s.StandardIn entries) (ht : t.Distinct) :
    s.inSection? (some (Toml.merge (.table entries) t).toJson) = s.inSection? (some t.toJson) := by
  cases t with
  | table upper =>
    have hupper := Toml.distinct_table_iff.1 ht
    have hmerged := Toml.distinct_table_iff.1 (ht.merge _ (Toml.distinct_table_iff.2 hkeyed))
    rw [Toml.merge_table, inSection?_table hmerged.nodup hs, inSection?_table hupper.nodup hs,
      Toml.lookup_mergeEntries hupper.nodup]
    cases hv : upper.lookup s.key with
    | none =>
      rw [Option.map_none, Option.none_or, ← inSection?_table hkeyed.nodup hs,
        inSection?_of_standardIn hs hkeyed.nodup hstandard]
      rfl
    | some v =>
      cases hold : entries.lookup s.key with
      | none => rfl
      | some old =>
        have hyields := (hstandard old hold).1 v (hupper.lookup hv)
        simp [hyields]
  | _ => rfl

theorem value?_merge {base : List (String × Toml)} (hs : s ∈ settings)
    (hbase : Toml.Keyed Toml.Distinct base)
    (hsection : base.lookup s.sectionName = some (.table entries)) (hstandard : s.StandardIn entries)
    (ht : t.Distinct) : s.value? (Toml.merge (.table base) t).toJson = s.value? t.toJson := by
  have hkeyed := Toml.distinct_table_iff.1 (hbase.lookup hsection)
  cases t with
  | table upper =>
    have hupper := Toml.distinct_table_iff.1 ht
    have hmerged := Toml.distinct_table_iff.1 (ht.merge _ (Toml.distinct_table_iff.2 hbase))
    rw [Toml.merge_table, value?_table hmerged.nodup hs, value?_table hupper.nodup hs,
      Toml.lookup_mergeEntries hupper.nodup, hsection]
    -- a section that only the lower tree has is standard
    cases hpart : upper.lookup s.sectionName with
    | none => exact inSection?_of_standardIn hs hkeyed.nodup hstandard
    | some part => exact inSection?_merge hs hkeyed hstandard (hupper.lookup hpart)
  | _ => rfl

end Setting

namespace Config

variable {t : Toml}

theorem ofJson?_merge_standardTree (ht : t.Distinct) :
    ofJson? (Toml.merge standardTree t).toJson = ofJson? t.toJson := by
  apply ofJson?_congr
  intro s hs
  obtain ⟨entries, hsection, hstandard⟩ := Setting.standardTree_spec hs
  exact Setting.value?_merge hs (Toml.distinct_table_iff.1 distinct_standardTree) hsection hstandard ht

/-! ## The two ways of loading a document -/

/-- How a document that is read alone and in layers comes out: as one configuration, with one error,
or as a tree that does not fit the fields, of which each way reports the name it has for the tree. -/
inductive PathsAgree (path : String) :
    Except ConfigError Config → Except ConfigError ResolvedConfig → Prop where
  | loaded (c : Config) : PathsAgree path (.ok c) (.ok ⟨c, [path], 0⟩)
  | failed (e : ConfigError) : PathsAgree path (.error e) (.error e)
  | misfit : PathsAgree path (.error (.malformed path)) (.error (.malformed "<merged config>"))

/-- Without a document of the user and without variables, only the explicit document and the standard
settings count. -/
theorem loadLayers_alone {user : LayerFile} {vars : Environment} (file : LayerFile)
    (huser : user.content = .error .notFound) (hvars : ∀ o ∈ overrides, o.value? vars = none) :
    loadLayers user (some file) vars = do
      let t ← file.tree
      let c ← ofTree "<merged config>" (Toml.merge standardTree t)
      return ⟨c, [file.path], 0⟩ := by
  have hnone : user.tree? = .ok none := by rw [LayerFile.tree?, huser]
  rw [loadLayers, standardLayer_eq, hnone]
  cases htree : file.tree with
  | error e => simp [htree]; rfl
  | ok t =>
    have hlayers : (some file).mapM LayerFile.tree = .ok (some t) := by
      simp [htree]
    rw [hlayers]
    simp only [bind, Except.bind, Option.toList, List.nil_append, List.foldl,
      Override.applyAll_of_unset hvars]
    rfl

/-- A document alone makes the configuration each of whose settings it gives, or leaves standard. -/
theorem loadFile_eq_ok_iff {file : LayerFile} {c : Config} :
    loadFile file = .ok c ↔ ∃ t, file.tree = .ok t ∧
      (∀ s ∈ settings, s.value? t.toJson = some (s.get c)) ∧ c.validate = .ok () := by
  rw [loadFile]
  cases file.tree with
  | error e => simp [bind, Except.bind]
  | ok t => simp [bind, Except.bind, ofTree_eq_ok_iff, ofJson?_eq_some_iff]

/-- Whatever a document holds, reading it alone and reading it as the only layer over the standard
settings come to the same; and what they come to is told by its settings one by one. -/
theorem load_paths_agree (file user : LayerFile) (vars : Environment)
    (huser : user.content = .error .notFound) (hvars : ∀ o ∈ overrides, o.value? vars = none) :
    PathsAgree file.path (loadFile file) (loadLayers user (some file) vars) ∧
      ∀ c, loadFile file = .ok c ↔ ∃ t, file.tree = .ok t ∧
        (∀ s ∈ settings, s.value? t.toJson = some (s.get c)) ∧ c.validate = .ok () := by
  refine ⟨?_, fun c => loadFile_eq_ok_iff⟩
  rw [loadLayers_alone file huser hvars, loadFile]
  cases htree : file.tree with
  | error e => exact .failed e
  | ok t =>
    obtain ⟨text, hparse⟩ := LayerFile.parse?_of_tree? (LayerFile.tree?_of_tree htree)
    have hread := ofJson?_merge_standardTree (Toml.distinct_of_parse? hparse)
    simp only [bind, Except.bind, ofTree, hread]
    cases ofJson? t.toJson with
    | none => exact .misfit
    | some c =>
      dsimp only
      cases c.validate with
      | error e => exact .failed e
      | ok _ => exact .loaded c

theorem load_paths_agree_on_partial_document :
    let user : LayerFile := ⟨"home/config.toml", .error .notFound⟩
    let file : LayerFile := ⟨"own.toml", .ok "[module]\nsource = \"own.wasm\"\n".toUTF8⟩
    user.content = .error .notFound ∧ (∀ o ∈ overrides, o.value? .empty = none) ∧
      PathsAgree "own.toml" (.ok { standard with guest.source := "own.wasm" })
        (loadLayers user (some file) .empty) := by
  intro user file
  have htree : file.tree = .ok (.table [("module", .table [("source", .string "own.wasm")])]) :=
    LayerFile.tree_of_text (by decide) (by cbv)
  have hload : loadFile file = .ok { standard with guest.source := "own.wasm" } := by
    rw [loadFile, htree]
    cbv
  have hvars : ∀ o ∈ overrides, o.value? .empty = none := by decide
  exact ⟨rfl, hvars, hload ▸ (load_paths_agree file user .empty rfl hvars).1⟩

end Config

end TokenizerHost
