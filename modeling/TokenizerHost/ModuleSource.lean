import TokenizerHost.AnalyzerError
import TokenizerHost.FileTree

namespace TokenizerHost

inductive ModuleSource where
  | file (path : String)
  | url (address : String)
  | bytes (content : ByteArray)

namespace ModuleSource

def parse (text : String) : ModuleSource :=
  if text.startsWith "http://" || text.startsWith "https://" then .url text else .file text

def display : ModuleSource → String
  | .file path => path
  | .url address => address
  | .bytes content => s!"<{content.size} bytes>"

/-- The bytes of the module, given how files are read. There is no network: nothing is found at a
web address. -/
def fetch (read : String → Except ReadFailure ByteArray) :
    ModuleSource → Except AnalyzerError ByteArray
  | .bytes content => .ok content
  | .url address => .error (.loadFailure s!"request to {address} failed: no network")
  | .file path =>
    (read path).mapError fun e => .loadFailure s!"failed to read {path}: {e.message}"

end ModuleSource

end TokenizerHost
