import TokenizerHost.Toml.Marked
import TokenizerHost.Toml.Number
import TokenizerHost.Toml.Section
import TokenizerHost.Toml.Text

namespace TokenizerHost.Toml

def splitKey? (parts : List String) : Option (List String × String) :=
  parts.getLast?.map fun key => (parts.dropLast, key)

mutual

/-- A value and what follows it; `depth` is how much deeper values may nest. -/
def readValue : Nat → (depth : Nat) → List Char → Option (Toml × List Char)
  | 0, _, _ => none
  | fuel + 1, depth, cs =>
    match cs with
    | 't' :: 'r' :: 'u' :: 'e' :: rest => some (.bool true, rest)
    | 'f' :: 'a' :: 'l' :: 's' :: 'e' :: rest => some (.bool false, rest)
    | '"' :: _ => (readText cs).map fun (s, rest) => (.string s, rest)
    | '\x27' :: _ => (readText cs).map fun (s, rest) => (.string s, rest)
    | '[' :: rest =>
      match depth with
      | 0 => none
      | depth + 1 => (readItems fuel depth [] rest).map fun (items, rest) => (.array items, rest)
    | '\x7b' :: rest =>
      match depth with
      | 0 => none
      | depth + 1 =>
        match skipBlanks rest with
        | '\x7d' :: rest => some (.table [], rest)
        | rest => (readPairs fuel depth [] rest).map fun (es, rest) => (.table (entriesToToml es), rest)
    | cs =>
      if beginsDate cs then (readDateTime cs).map fun (text, rest) => (.moment text, rest)
      else if beginsTime cs then (readTime 23 cs).map fun (text, rest) => (.moment text, rest)
      else readNumber cs

def readItems : Nat → (depth : Nat) → (read : List Toml) → List Char → Option (List Toml × List Char)
  | 0, _, _, _ => none
  | fuel + 1, depth, read, cs =>
    match skipFiller false cs with
    | ']' :: rest => some (read.reverse, rest)
    | cs =>
      match readValue fuel depth cs with
      | none => none
      | some (item, rest) =>
        match skipFiller false rest with
        | ',' :: rest => readItems fuel depth (item :: read) rest
        | ']' :: rest => some ((item :: read).reverse, rest)
        | _ => none

def readPairs : Nat → (depth : Nat) → (read : Entries) → List Char → Option (Entries × List Char)
  | 0, _, _, _ => none
  | fuel + 1, depth, read, cs =>
    match readAssignment fuel depth cs with
    | none => none
    | some (parts, value, rest) =>
      match (splitKey? parts).bind fun (path, key) => read.assign? path key value .opened with
      | none => none
      | some read =>
        match skipBlanks rest with
        | ',' :: rest => readPairs fuel depth read rest
        | '\x7d' :: rest => some (read, rest)
        | _ => none

def readAssignment : Nat → (depth : Nat) → List Char → Option (List String × Toml × List Char)
  | 0, _, _ => none
  | fuel + 1, depth, cs =>
    match readKey cs with
    | some (parts, '=' :: rest) =>
      (readValue fuel depth (skipBlanks rest)).map fun (value, rest) => (parts, value, rest)
    | _ => none

end

structure Draft where
  root : Entries
  header : List String

namespace Draft

def empty : Draft := ⟨[], []⟩

def openTable? (d : Draft) (parts : List String) : Option Draft := do
  let (path, key) ← splitKey? parts
  some ⟨← d.root.openTable? path key, parts⟩

def openItem? (d : Draft) (parts : List String) : Option Draft := do
  let (path, key) ← splitKey? parts
  some ⟨← d.root.openItem? path key, parts⟩

def assign? (d : Draft) (parts : List String) (value : Toml) : Option Draft := do
  let (path, key) ← splitKey? parts
  some { d with root := ← d.root.assignUnder? d.header path key value }

end Draft

def readStatement (fuel : Nat) (d : Draft) (cs : List Char) : Option (Draft × List Char) := do
  match cs with
  | '[' :: '[' :: rest =>
    match ← readKey rest with
    | (parts, ']' :: ']' :: rest) => some (← d.openItem? parts, ← lineEnd? rest)
    | _ => none
  | '[' :: rest =>
    match ← readKey rest with
    | (parts, ']' :: rest) => some (← d.openTable? parts, ← lineEnd? rest)
    | _ => none
  | cs =>
    let (parts, value, rest) ← readAssignment fuel maxNesting cs
    some (← d.assign? parts value, ← lineEnd? rest)

def readLines : Nat → Draft → List Char → Option Draft
  | 0, _, _ => none
  | fuel + 1, d, cs =>
    match skipBlanks cs with
    | [] => some d
    | '#' :: rest => (lineEnd? ('#' :: rest)).bind (readLines fuel d)
    | c :: rest =>
      match lineBreak? (c :: rest) with
      | some rest => readLines fuel d rest
      | none =>
        match readStatement fuel d (c :: rest) with
        | some (d, rest) => readLines fuel d rest
        | none => none

/-- What a document stands for: a table, or a moment if it is marked as one. A byte order mark may
come first. -/
def parse? (text : String) : Option Toml :=
  let cs := match text.toList with
    | '\ufeff' :: cs => cs
    | cs => cs
  (readLines (cs.length + 2) .empty cs).bind fun d => settle? (.table (entriesToToml d.root))

end TokenizerHost.Toml
