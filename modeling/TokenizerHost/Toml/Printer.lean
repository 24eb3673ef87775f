import TokenizerHost.Json

namespace TokenizerHost.Toml

def isCode (c : Char) : Bool :=
  (c.toNat < 0x20 && c != '\t' && c != '\n') || c == '\x7f'

def longestRun (mark : Char) (cs : List Char) : Nat :=
  (cs.foldl (fun (longest, run) c =>
    if c = mark then (max longest (run + 1), run + 1) else (longest, 0)) ((0, 0) : Nat × Nat)).1

def upperHexDigit (n : Nat) : Char := (Nat.digitChar (n % 16)).toUpper

def escapeCode? (c : Char) : Option (List Char) :=
  if c = '\x08' then some ['\\', 'b']
  else if c = '\t' then some ['\\', 't']
  else if c = '\x0c' then some ['\\', 'f']
  else if c = '\r' then some ['\\', 'r']
  else if c = '\\' then some ['\\', '\\']
  else if isCode c then
    some ['\\', 'u', '0', '0', upperHexDigit (c.toNat / 16), upperHexDigit c.toNat]
  else none

def escapeQuoted (c : Char) : List Char :=
  if c = '"' then ['\\', '"']
  else if c = '\n' then ['\\', 'n']
  else (escapeCode? c).getD [c]

/-- Characters between three quotes, with escapes; `run` quotes stand before them. Only the third
quote of a run is escaped. -/
def escapeLong (run : Nat) : List Char → List Char
  | [] => []
  | c :: rest =>
    if c = '"' then
      if run = 2 then '\\' :: '"' :: escapeLong 0 rest else '"' :: escapeLong (run + 1) rest
    else (escapeCode? c).getD [c] ++ escapeLong 0 rest

def quotedChars (cs : List Char) : List Char := '"' :: (cs.flatMap escapeQuoted ++ ['"'])

def literalChars (cs : List Char) : List Char := '\x27' :: (cs ++ ['\x27'])

/-- A text between three marks; one that holds a line break begins on a line of its own. -/
def longChars (mark : Char) (broken : Bool) (body : List Char) : List Char :=
  let marks := [mark, mark, mark]
  marks ++ (if broken then '\n' :: body else body) ++ marks

def textChars (cs : List Char) : List Char :=
  let codes := cs.any isCode
  let backslash := cs.contains '\\'
  let broken := cs.contains '\n'
  let quotes := longestRun '"' cs
  let marks := longestRun '\x27' cs
  if !codes && !backslash && quotes == 0 && !broken then quotedChars cs
  else if !codes && marks == 0 && !broken then literalChars cs
  else if !codes && !backslash && quotes < 3 then longChars '"' broken (escapeLong 0 cs)
  else if !codes && marks < 3 then longChars '\x27' broken cs
  else if broken then longChars '"' broken (escapeLong 0 cs)
  else quotedChars cs

def quote (s : String) : String := String.ofList (textChars s.toList)

def keyChars (cs : List Char) : List Char :=
  let codes := cs.any fun c => isCode c || c == '\n'
  if !cs.isEmpty && cs.all (fun c => c.isAlphanum || c == '_' || c == '-') then cs
  else if !codes && !cs.contains '\\' && !cs.contains '"' then quotedChars cs
  else if !codes && !cs.contains '\x27' then literalChars cs
  else quotedChars cs

def quoteKey (key : String) : String := String.ofList (keyChars key.toList)

/-- A list of texts: on one line if it has at most one item, and else with a line for each item and
a comma after it. -/
def quoteList : List String → String
  | [] => "[]"
  | [s] => "[" ++ quote s ++ "]"
  | items => "[\n" ++ String.join (items.map fun s => "    " ++ quote s ++ ",\n") ++ "]"

end TokenizerHost.Toml
