import TokenizerHost.Calls
import TokenizerHost.Globals
import TokenizerHost.Linker

namespace TokenizerHost

structure HostOptions where
  argv : List String
  env : Environment
  importSpace : String
  aliasSpaces : List String
  maxMemoryPages : Option Nat
  maxTimerRefires : Nat
  deriving Inhabited

namespace HostOptions

def standard : HostOptions where
  argv := ["js"]
  env := .empty
  importSpace := "gojs"
  aliasSpaces := ["go"]
  maxMemoryPages := none
  maxTimerRefires := Scheduler.defaultMaxRefires

def spaces (o : HostOptions) : List String := o.importSpace :: o.aliasSpaces

end HostOptions

inductive LoadError where
  | malformed
  | duplicateNamespace
  | memoryLimit
  | noMemory
  /-- An entry point is missing or has the wrong type. -/
  | badExport (name : String)
  deriving DecidableEq, Repr

namespace LoadError

def reason : LoadError → String
  | .malformed => "the module cannot be parsed"
  | .duplicateNamespace => "a namespace is registered twice"
  | .memoryLimit => "memory minimum size exceeds memory limits"
  | .noMemory => "guest module does not export `mem`"
  | .badExport name => "export `" ++ name ++ "`"

def toFault (e : LoadError) : Fault := .loadFailure e.reason

end LoadError

structure GuestModule (σ : Type) where
  pages : Option Nat
  memoryExports : List String
  entryPoints : List String
  program : Linker → Program σ
  initial : σ

def pageSize : Nat := 65536

def requiredEntryPoints : List String := ["getsp", "run", "resume"]

/-- What a host brings along that answers cannot show. -/
structure Surroundings where
  epoch : Nat
  entropy : UInt64

namespace World

variable {σ : Type}

def atRest (heap : Heap) (global bridge : Value) (o : HostOptions) (memory : Memory)
    (around : Surroundings) (own : σ) : World σ where
  heap := heap
  table := some (.new global bridge)
  scheduler := .new o.maxTimerRefires
  console := .empty
  memory := memory
  global := global
  bridge := bridge
  argv := o.argv
  env := o.env
  notices := #[]
  journal := []
  timeline := []
  epoch := around.epoch
  entropy := around.entropy
  own := own

def fresh (o : HostOptions) (memory : Memory) (around : Surroundings) (own : σ) : World σ :=
  let ((global, bridge), heap) := Heap.firstObjects
  atRest heap global bridge o memory around own

end World

structure Session (σ : Type) where
  program : Program σ
  world : World σ

namespace GuestModule

variable {σ : Type}

def fitsMemory (m : GuestModule σ) (limit : Option Nat) : Bool :=
  match m.pages, limit with
  | some pages, some limit => pages ≤ limit
  | _, _ => true

def exportedPages? (m : GuestModule σ) : Option Nat :=
  if m.memoryExports.contains "mem" || m.memoryExports.contains "memory" then m.pages else none

def load (m : Option (GuestModule σ)) (o : HostOptions) (around : Surroundings) :
    Except LoadError (Session σ) :=
  match m with
  | none => .error .malformed
  | some m =>
    match Linker.ofNamespaces? o.spaces with
    | none => .error .duplicateNamespace
    | some linker =>
      if !m.fitsMemory o.maxMemoryPages then .error .memoryLimit
      else
        match m.exportedPages?, requiredEntryPoints.find? (!m.entryPoints.contains ·) with
        | none, _ => .error .noMemory
        | some _, some name => .error (.badExport name)
        | some pages, none =>
          .ok ⟨m.program linker, .fresh o (.zeros (pages * pageSize)) around m.initial⟩

end GuestModule

end TokenizerHost
