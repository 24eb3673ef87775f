import TokenizerHost.Assoc
import TokenizerHost.GuestCode

namespace TokenizerHost

inductive ImportTarget where
  | host (i : Import)
  | diagnostic
  deriving DecidableEq, Repr

structure Linker where
  defined : Assoc (String × String) ImportTarget
  deriving Inhabited

namespace Linker

def empty : Linker := ⟨.empty⟩

def define? (l : Linker) (space name : String) (target : ImportTarget) : Option Linker :=
  if l.defined.contains (space, name) then none
  else some ⟨l.defined.insert (space, name) target⟩

def diagnosticName : String := "debug"

/-- What a namespace provides: every import under each of its names, and diagnostics. -/
def provided : List (String × ImportTarget) :=
  (Import.all.flatMap fun i => i.names.map fun name => (name, .host i)) ++
    [(diagnosticName, .diagnostic)]

def addNamespace? (l : Linker) (space : String) : Option Linker :=
  provided.foldlM (fun l (name, target) => l.define? space name target) l

/-- The linker for namespaces; `none` if one of them is given twice. -/
def ofNamespaces? (spaces : List String) : Option Linker := spaces.foldlM addNamespace? empty

/-- What a module's import is linked to; `none` for a trap. -/
def resolve? (l : Linker) (space name : String) : Option ImportTarget :=
  l.defined.find? (space, name)

def unknownImport (space name : String) : Fault :=
  .trap s!"unknown import: {space}::{name} has not been defined"

def invoke {σ : Type} (l : Linker) (space name : String) (sp : Nat) : Code σ Unit :=
  match l.resolve? space name with
  | some (.host i) => Code.invokeImport i sp
  | some .diagnostic => .done ()
  | none => .fault (unknownImport space name)

end Linker

end TokenizerHost
