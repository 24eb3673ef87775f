import TokenizerHost.Config
import TokenizerHost.Proofs.Toml.Merging

set_option autoImplicit false

namespace TokenizerHost

namespace Json

variable {names : List String} {name : String} {j : Json}

theorem length_of_fields? {fs : List (Option Json)} (h : j.fields? names = some fs) :
    fs.length = names.length := by
  unfold fields? at h
  split at h
  · split at h
    · cases h
      exact List.length_map _
    · cases h
  · split at h
    next hlength =>
      cases h
      simp only [List.length_append, List.length_map, List.length_replicate]
      omega
    · cases h
  · cases h

theorem exists_map_of_fields? (hnodup : names.Nodup) {fs : List (Option Json)}
    (h : j.fields? names = some fs) : ∃ entry : String → Option Json, fs = names.map entry := by
  refine ⟨fun name => fs[names.idxOf name]?.join, ?_⟩
  have hlength := length_of_fields? h
  apply List.ext_getElem
  · simp [hlength]
  · intro i hi hi'
    simp [hnodup.idxOf_getElem, hi]

def field? (names : List String) (name : String) (j : Json) : Option (Option Json) :=
  (j.fields? names).map fun fs => fs[names.idxOf name]?.join

end Json

/-- A setting of a configuration: its place, how it is read there, and what it is if nothing stands
there. -/
structure Setting where
  sectionName : String
  fieldNames : List String
  key : String
  Value : Type
  standard : Value
  read? : Json → Option Value
  get : Config → Value

namespace Setting

variable (s : Setting)

def inSection? : Option Json → Option s.Value
  | none => some s.standard
  | some part => (part.field? s.fieldNames s.key).bind (Json.orElse s.standard s.read?)

def sectionNames : List String := ["module", "scheduler", "analyzer", "logging"]

def value? (j : Json) : Option s.Value :=
  (j.field? sectionNames s.sectionName).bind s.inSection?

theorem value?_of_fields {j : Json} {entry : String → Option Json}
    (hfields : j.fields? sectionNames = some (sectionNames.map entry))
    (hname : s.sectionName ∈ sectionNames) : s.value? j = s.inSection? (entry s.sectionName) := by
  simp [value?, Json.field?, hfields, hname]

end Setting

namespace ModuleSettings

def setting {α : Type} (key : String) (get : ModuleSettings → α) (read? : Json → Option α) : Setting :=
  ⟨"module", fieldNames, key, α, get standard, read?, fun c => get c.guest⟩

def settings : List Setting :=
  [setting "source" source Json.string?,
    setting "namespace" importSpace Json.string?,
    setting "alias_namespaces" aliasSpaces (Json.list? Json.string?),
    setting "export" functionName Json.string?,
    setting "argv" argv (Json.list? Json.string?),
    setting "max_memory_pages" maxMemoryPages (Json.nullable? Json.word?),
    setting "env" env Environment.ofJson?]

theorem sectionName_of_mem {s : Setting} (hs : s ∈ settings) : s.sectionName = "module" := by
  revert s
  simp [settings, setting]

theorem orElse_ofJson?_iff {part : Option Json} {c : Config} :
    Json.orElse standard ofJson? part = some c.guest ↔
      ∀ s ∈ settings, s.inSection? part = some (s.get c) := by
  obtain ⟨⟨source, importSpace, aliasSpaces, functionName, argv, maxMemoryPages, env⟩, -, -, -⟩ := c
  cases part with
  | none => simp [Json.orElse, settings, setting, Setting.inSection?, standard]
  | some j =>
    rw [Json.orElse]
    cases hfields : j.fields? fieldNames with
    | none => simp [ofJson?, settings, setting, Setting.inSection?, Json.field?, hfields]
    | some fs =>
      obtain ⟨entry, rfl⟩ := Json.exists_map_of_fields? (by decide) hfields
      unfold fieldNames at hfields
      simp [ofJson?, settings, setting, Setting.inSection?, Json.field?, hfields,
        Option.bind_eq_some_iff, fieldNames, standard]

end ModuleSettings

namespace SchedulerSettings

def setting {α : Type} (key : String) (get : SchedulerSettings → α) (read? : Json → Option α) :
    Setting :=
  ⟨"scheduler", ["max_timer_refires"], key, α, get standard, read?, fun c => get c.scheduler⟩

def settings : List Setting := [setting "max_timer_refires" maxTimerRefires Json.word?]

theorem sectionName_of_mem {s : Setting} (hs : s ∈ settings) : s.sectionName = "scheduler" := by
  revert s
  simp [settings, setting]

theorem orElse_ofJson?_iff {part : Option Json} {c : Config} :
    Json.orElse standard ofJson? part = some c.scheduler ↔
      ∀ s ∈ settings, s.inSection? part = some (s.get c) := by
  obtain ⟨-, ⟨maxTimerRefires⟩, -, -⟩ := c
  cases part with
  | none => simp [Json.orElse, settings, setting, Setting.inSection?, standard]
  | some j =>
    rw [Json.orElse]
    cases hfields : j.fields? ["max_timer_refires"] with
    | none => simp [ofJson?, settings, setting, Setting.inSection?, Json.field?, hfields]
    | some fs =>
      obtain ⟨entry, rfl⟩ := Json.exists_map_of_fields? (by decide) hfields
      simp [ofJson?, settings, setting, Setting.inSection?, Json.field?, hfields,
        Option.bind_eq_some_iff]

end SchedulerSettings

namespace AnalyzerSettings

def setting {α : Type} (key : String) (get : AnalyzerSettings → α) (read? : Json → Option α) :
    Setting :=
  ⟨"analyzer", ["symbol_marker", "script_ranges"], key, α, get standard, read?,
    fun c => get c.analyzer⟩

def settings : List Setting :=
  [setting "symbol_marker" symbolMarker Json.string?,
    setting "script_ranges" scriptRanges (Json.list? PointRange.ofJson?)]

theorem sectionName_of_mem {s : Setting} (hs : s ∈ settings) : s.sectionName = "analyzer" := by
  revert s
  simp [settings, setting]

theorem orElse_ofJson?_iff {part : Option Json} {c : Config} :
    Json.orElse standard ofJson? part = some c.analyzer ↔
      ∀ s ∈ settings, s.inSection? part = some (s.get c) := by
  obtain ⟨-, -, ⟨symbolMarker, scriptRanges⟩, -⟩ := c
  cases part with
  | none => simp [Json.orElse, settings, setting, Setting.inSection?, standard]
  | some j =>
    rw [Json.orElse]
    cases hfields : j.fields? ["symbol_marker", "script_ranges"] with
    | none => simp [ofJson?, settings, setting, Setting.inSection?, Json.field?, hfields]
    | some fs =>
      obtain ⟨entry, rfl⟩ := Json.exists_map_of_fields? (by decide) hfields
      simp [ofJson?, settings, setting, Setting.inSection?, Json.field?, hfields,
        Option.bind_eq_some_iff]

end AnalyzerSettings

namespace LoggingSettings

def setting {α : Type} (key : String) (get : LoggingSettings → α) (read? : Json → Option α) :
    Setting :=
  ⟨"logging", ["level", "format", "directives"], key, α, get standard, read?,
    fun c => get c.logging⟩

def settings : List Setting :=
  [setting "level" level Json.string?,
    setting "format" format Json.string?,
    setting "directives" directives (Json.list? Json.string?)]

theorem sectionName_of_mem {s : Setting} (hs : s ∈ settings) : s.sectionName = "logging" := by
  revert s
  simp [settings, setting]

theorem orElse_ofJson?_iff {part : Option Json} {c : Config} :
    Json.orElse standard ofJson? part = some c.logging ↔
      ∀ s ∈ settings, s.inSection? part = some (s.get c) := by
  obtain ⟨-, -, -, ⟨level, format, directives⟩⟩ := c
  cases part with
  | none => simp [Json.orElse, settings, setting, Setting.inSection?, standard]
  | some j =>
    rw [Json.orElse]
    cases hfields : j.fields? ["level", "format", "directives"] with
    | none => simp [ofJson?, settings, setting, Setting.inSection?, Json.field?, hfields]
    | some fs =>
      obtain ⟨entry, rfl⟩ := Json.exists_map_of_fields? (by decide) hfields
      simp [ofJson?, settings, setting, Setting.inSection?, Json.field?, hfields,
        Option.bind_eq_some_iff]

end LoggingSettings

namespace Config

def settings : List Setting :=
  ModuleSettings.settings ++ SchedulerSettings.settings ++ AnalyzerSettings.settings ++
    LoggingSettings.settings

theorem sectionName_mem {s : Setting} (hs : s ∈ settings) : s.sectionName ∈ Setting.sectionNames := by
  simp only [settings, List.mem_append] at hs
  obtain ((hs | hs) | hs) | hs := hs
  · simp [ModuleSettings.sectionName_of_mem hs, Setting.sectionNames]
  · simp [SchedulerSettings.sectionName_of_mem hs, Setting.sectionNames]
  · simp [AnalyzerSettings.sectionName_of_mem hs, Setting.sectionNames]
  · simp [LoggingSettings.sectionName_of_mem hs, Setting.sectionNames]

theorem ofJson?_of_fields {j : Json} {guest scheduler analyzer logging : Option Json}
    (hfields : j.fields? Setting.sectionNames = some [guest, scheduler, analyzer, logging]) (c : Config) :
    ofJson? j = some c ↔
      Json.orElse .standard ModuleSettings.ofJson? guest = some c.guest ∧
        Json.orElse .standard SchedulerSettings.ofJson? scheduler = some c.scheduler ∧
          Json.orElse .standard AnalyzerSettings.ofJson? analyzer = some c.analyzer ∧
            Json.orElse .standard LoggingSettings.ofJson? logging = some c.logging := by
  obtain ⟨guest, scheduler, analyzer, logging⟩ := c
  unfold Setting.sectionNames at hfields
  simp [ofJson?, hfields, Option.bind_eq_some_iff]

theorem ofJson?_eq_some_iff {j : Json} {c : Config} :
    ofJson? j = some c ↔ ∀ s ∈ settings, s.value? j = some (s.get c) := by
  cases hfields : j.fields? Setting.sectionNames with
  | none =>
    refine iff_of_false (fun h => ?_) (fun h => ?_)
    · unfold Setting.sectionNames at hfields
      simp [ofJson?, hfields] at h
    · have hsource := h (ModuleSettings.setting "source" (·.source) Json.string?)
        (by simp [settings, ModuleSettings.settings])
      simp [Setting.value?, Json.field?, hfields] at hsource
  | some fs =>
    obtain ⟨entry, rfl⟩ := Json.exists_map_of_fields? (by decide) hfields
    calc ofJson? j = some c
      _ ↔ (∀ s ∈ ModuleSettings.settings, s.inSection? (entry "module") = some (s.get c)) ∧
          (∀ s ∈ SchedulerSettings.settings, s.inSection? (entry "scheduler") = some (s.get c)) ∧
          (∀ s ∈ AnalyzerSettings.settings, s.inSection? (entry "analyzer") = some (s.get c)) ∧
          ∀ s ∈ LoggingSettings.settings, s.inSection? (entry "logging") = some (s.get c) := by
        rw [ofJson?_of_fields hfields, ModuleSettings.orElse_ofJson?_iff,
          SchedulerSettings.orElse_ofJson?_iff, AnalyzerSettings.orElse_ofJson?_iff,
          LoggingSettings.orElse_ofJson?_iff]
      _ ↔ ∀ s ∈ settings, s.inSection? (entry s.sectionName) = some (s.get c) := by
        simp only [settings, List.forall_mem_append, and_assoc]
        refine and_congr ?_ (and_congr ?_ (and_congr ?_ ?_))
        · exact forall₂_congr fun s hs => by rw [ModuleSettings.sectionName_of_mem hs]
        · exact forall₂_congr fun s hs => by rw [SchedulerSettings.sectionName_of_mem hs]
        · exact forall₂_congr fun s hs => by rw [AnalyzerSettings.sectionName_of_mem hs]
        · exact forall₂_congr fun s hs => by rw [LoggingSettings.sectionName_of_mem hs]
      _ ↔ ∀ s ∈ settings, s.value? j = some (s.get c) :=
        forall₂_congr fun s hs => by rw [s.value?_of_fields hfields (sectionName_mem hs)]

theorem ofJson?_congr {j j' : Json} (h : ∀ s ∈ settings, s.value? j = s.value? j') :
    ofJson? j = ofJson? j' := by
  apply Option.ext
  intro c
  rw [ofJson?_eq_some_iff, ofJson?_eq_some_iff]
  exact forall₂_congr fun s hs => by rw [h s hs]

end Config

namespace Setting

variable {s : Setting} {es entries : List (String × Toml)}

theorem inSection?_table (hkeys : (Toml.keys entries).Nodup) (hs : s ∈ Config.settings) :
    s.inSection? (some (Toml.table entries).toJson) =
      Json.orElse s.standard s.read? ((entries.lookup s.key).map Toml.toJson) := by
  have hkey : s.key ∈ s.fieldNames := by
    revert s
    simp [Config.settings, ModuleSettings.settings, ModuleSettings.setting, ModuleSettings.fieldNames,
      SchedulerSettings.settings, SchedulerSettings.setting, AnalyzerSettings.settings,
      AnalyzerSettings.setting, LoggingSettings.settings, LoggingSettings.setting]
  simp [inSection?, Json.field?, Toml.fields?_table hkeys, hkey]

theorem value?_table (hkeys : (Toml.keys es).Nodup) (hs : s ∈ Config.settings) :
    s.value? (Toml.table es).toJson = s.inSection? ((es.lookup s.sectionName).map Toml.toJson) := by
  exact value?_of_fields s (Toml.fields?_table hkeys sectionNames) (Config.sectionName_mem hs)

end Setting

end TokenizerHost
