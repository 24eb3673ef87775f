import TokenizerHost.Config.Validate
import TokenizerHost.FileTree
import TokenizerHost.Toml.Reader

namespace TokenizerHost

structure LayerFile where
  path : String
  content : Except ReadFailure ByteArray

def maxDocumentSize : Nat := 1048576

structure Override where
  name : String
  sectionName : String
  key : String
  deriving DecidableEq, Repr

def overrides : List Override :=
  [⟨"KOTOBA_MODULE_SOURCE", "module", "source"⟩, ⟨"KOTOBA_MODULE_EXPORT", "module", "export"⟩,
    ⟨"KOTOBA_LOG_LEVEL", "logging", "level"⟩, ⟨"KOTOBA_LOG_FORMAT", "logging", "format"⟩]

structure ResolvedConfig where
  config : Config
  files : List String
  overrideCount : Nat

namespace LayerFile

/-- The tree of a document; none if there is no such file. -/
def tree? (f : LayerFile) : Except ConfigError (Option Toml) :=
  match f.content with
  | .error .notFound => .ok none
  | .error e => .error (.unreadable f.path e.message)
  | .ok content =>
    match String.fromUTF8? content with
    | none => .error (.unreadable f.path "stream did not contain valid UTF-8")
    | some text =>
      if content.size > maxDocumentSize then .error (.tooLarge f.path content.size maxDocumentSize)
      else
        match Toml.parse? text with
        | some t => .ok (some t)
        | none => .error (.malformed f.path)

def tree (f : LayerFile) : Except ConfigError Toml := do
  match ← f.tree? with
  | some t => return t
  | none => throw (.unreadable f.path ReadFailure.notFound.message)

end LayerFile

namespace Toml

/-- Sets a key of a section, which is made if it is not there. A tree or a section that is no table
is left alone; the flag says whether the key was set. -/
def setIn (t : Toml) (sectionName key : String) (v : Toml) : Toml × Bool :=
  match t with
  | .table sections =>
    match sections.lookup sectionName with
    | none => (.table (sections ++ [(sectionName, .table [(key, v)])]), true)
    | some (.table entries) =>
      let inner := Toml.table (upsert key (fun _ => v) entries)
      (.table (upsert sectionName (fun _ => inner) sections), true)
    | some _ => (t, false)
  | _ => (t, false)

end Toml

namespace Override

/-- Applies one variable to a tree and the count of those applied; an empty value is ignored. -/
def apply (vars : Environment) (o : Override) (state : Toml × Nat) : Toml × Nat :=
  match vars.find? o.name with
  | none => state
  | some "" => state
  | some value =>
    let (tree, wasSet) := state.1.setIn o.sectionName o.key (.string value)
    (tree, if wasSet then state.2 + 1 else state.2)

def applyAll (vars : Environment) (tree : Toml) : Toml × Nat :=
  overrides.foldl (fun state o => o.apply vars state) (tree, 0)

end Override

namespace Config

def standardLines : List String :=
  ["[module]",
    "source = \"kagome.wasm\"",
    "namespace = \"gojs\"",
    "alias_namespaces = [\"go\"]",
    "export = \"kagome_tokenize\"",
    "argv = [\"js\"]",
    "[module.env]",
    "[scheduler]",
    "max_timer_refires = 16",
    "[analyzer]",
    "symbol_marker = \"記号\"",
    "[[analyzer.script_ranges]]",
    "start = 0x3040",
    "end = 0x309F",
    "[[analyzer.script_ranges]]",
    "start = 0x30A0",
    "end = 0x30FF",
    "[[analyzer.script_ranges]]",
    "start = 0x4E00",
    "end = 0x9FAF",
    "[logging]",
    "level = \"info\"",
    "format = \"compact\"",
    "directives = []"]

def standardDocument : String := String.join (standardLines.map (· ++ "\n"))

def standardLayer : Except ConfigError Toml :=
  (Toml.parse? standardDocument).elim (.error (.malformed "<embedded defaults>")) .ok

def ofTree (path : String) (t : Toml) : Except ConfigError Config := do
  match ofJson? t.toJson with
  | none => throw (.malformed path)
  | some c =>
    c.validate
    return c

def loadFile (f : LayerFile) : Except ConfigError Config := do
  ofTree f.path (← f.tree)

def loadLayers (user : LayerFile) (explicit : Option LayerFile) (vars : Environment) :
    Except ConfigError ResolvedConfig := do
  let standard ← standardLayer
  let userTree ← user.tree?
  let explicitTree ← explicit.mapM LayerFile.tree
  let layers := userTree.toList ++ explicitTree.toList
  let (tree, overrideCount) := Override.applyAll vars (layers.foldl Toml.merge standard)
  let config ← ofTree "<merged config>" tree
  let files := (userTree.map fun _ => user.path).toList ++ (explicit.map (·.path)).toList
  return { config, files, overrideCount }

end Config

end TokenizerHost
