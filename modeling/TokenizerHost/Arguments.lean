import TokenizerHost.Assoc
import TokenizerHost.Memory

/-!
# Process arguments in guest memory

Before it runs, a guest is given its arguments and its environment: from `argumentsBase` on, each
string with a zero byte after it and padded to a multiple of eight, then a table of pointers to
them. The table holds the arguments, a null, the environment as `name=value` in the order of the
names, and a null, each pointer in a cell of eight bytes.

Everything has to end before `dataBase`, where the guest's own data may begin. That is checked
before the first byte is written.
-/

namespace TokenizerHost

abbrev Environment := Assoc String String

def argumentsBase : Nat := 4096

def dataBase : Nat := 4096 + 8192

/-- The bytes that a string of a length takes: a terminator, then padding to a multiple of 8. -/
def paddedSize (length : Nat) : Nat := (length + 1 + 7) / 8 * 8

def Environment.sorted (env : Environment) : List (String × String) :=
  env.entries.mergeSort fun a b => a.1 ≤ b.1

def Environment.strings (env : Environment) : List String :=
  env.sorted.map fun (k, v) => k ++ "=" ++ v

def argumentsSize (argv : List String) (env : Environment) : Nat :=
  (argv ++ env.strings).foldl (fun n s => n + paddedSize s.utf8ByteSize) 0 +
    (argv.length + env.strings.length + 2) * 8

/-- What the guest's entry point is told. -/
structure ArgumentTable where
  argc : Int32
  argv : Int32
  deriving DecidableEq, Repr

namespace Memory

def writeStrings : List String → (offset : Nat) → MemoryM (List Nat × Nat)
  | [], offset => pure ([], offset)
  | s :: rest, offset => do
    write offset s.toUTF8
    setU8 (offset + s.utf8ByteSize) 0
    let (pointers, finish) ← writeStrings rest (offset + paddedSize s.utf8ByteSize)
    pure (offset :: pointers, finish)

def writePointers : List Nat → (offset : Nat) → MemoryM Unit
  | [], _ => pure ()
  | pointer :: rest, offset => do
    setU32 offset (UInt32.ofNat pointer)
    setU32 (offset + 4) 0
    writePointers rest (offset + 8)

def writeArguments (argv : List String) (env : Environment) : MemoryM ArgumentTable := do
  let required := argumentsSize argv env
  let limit := dataBase - argumentsBase
  if limit ≤ required then
    throw (.argvOverflow argumentsBase (min required (UInt32.size - 1)) limit)
  let (argPointers, offset) ← writeStrings argv argumentsBase
  let (envPointers, table) ← writeStrings env.strings offset
  writePointers (argPointers ++ [0] ++ envPointers ++ [0]) table
  pure ⟨Int32.ofInt (min (argv.length : Int) Int32.maxValue.toInt), Int32.ofNat table⟩

end Memory

end TokenizerHost
