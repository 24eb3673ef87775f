import TokenizerHost.Heap.Construct

namespace TokenizerHost.Heap

def unsupportedFileCalls : List String :=
  ["chmod", "chown", "close", "fchmod", "fchown", "fstat", "ftruncate", "lchown", "link", "lstat",
    "mkdir", "open", "read", "readdir", "readlink", "rename", "rmdir", "stat", "symlink",
    "truncate", "unlink", "utimes"]

def fileFlags : List String :=
  ["O_WRONLY", "O_RDWR", "O_CREAT", "O_TRUNC", "O_APPEND", "O_EXCL", "O_DIRECTORY"]

def processIds : List String := ["getuid", "getgid", "geteuid", "getegid"]

def unsupportedProcessCalls : List String := ["getgroups", "umask", "cwd", "chdir"]

def putNative (v : Value) (n : Native) (name : String) : HeapM Unit := do
  put v name (← newNative name n)

def minusOne : Value := .number (.ofInt (-1))

def newFiles : HeapM Value := do
  let constants ← newObjectWith .object (fileFlags.map fun name => (name, minusOne))
  let files ← newObjectWith .object [("constants", constants)]
  putNative files .writeSync "writeSync"
  putNative files .write "write"
  putNative files .fsync "fsync"
  unsupportedFileCalls.forM (putNative files .unsupportedFile)
  return files

def newProcess : HeapM Value := do
  let process ← newObjectWith .object [("pid", minusOne), ("ppid", minusOne)]
  processIds.forM (putNative process .processId)
  unsupportedProcessCalls.forM (putNative process .unsupportedProcess)
  return process

def newPaths : HeapM Value := do
  let paths ← newObject .object
  putNative paths .resolvePath "resolve"
  return paths

def putSystem (v : Value) : HeapM Unit := do
  put v "fs" (← newFiles)
  put v "process" (← newProcess)
  put v "path" (← newPaths)

def newGlobal : HeapM Value := do
  let v ← newObject .object
  Class.all.forM fun c => do put v c.name (← newConstructor c)
  putSystem v
  return v

def newBridge : HeapM Value := do
  let v ← newObjectWith .object [("_pendingEvent", .null)]
  putNative v .wrapCallback "_makeFuncWrapper"
  return v

/-- The global object and the bridge object, and the heap with nothing else in it. -/
def firstObjects : (Value × Value) × Heap :=
  (do return (← newGlobal, ← newBridge) : HeapM (Value × Value)) .empty

end TokenizerHost.Heap
