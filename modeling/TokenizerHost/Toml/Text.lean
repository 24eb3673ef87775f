import TokenizerHost.Json.Reader

namespace TokenizerHost.Toml

def isBlank (c : Char) : Bool := c == ' ' || c == '\t'

def skipBlanks (cs : List Char) : List Char := cs.dropWhile isBlank

def isTextChar (c : Char) : Bool := c == '\t' || (0x20 ≤ c.toNat && c != '\x7f')

def lineBreak? : List Char → Option (List Char)
  | '\n' :: rest => some rest
  | '\r' :: '\n' :: rest => some rest
  | _ => none

def lineEnd? (cs : List Char) : Option (List Char) :=
  let cs := match skipBlanks cs with
    | '#' :: rest => rest.dropWhile isTextChar
    | rest => rest
  match cs with
  | [] => some []
  | cs => lineBreak? cs

/-- Skips blanks, line breaks and comments. A comment that holds a control character is skipped up
to that character, which begins nothing. -/
def skipFiller (inComment : Bool) : List Char → List Char
  | [] => []
  | '\n' :: rest => skipFiller false rest
  | '\r' :: '\n' :: rest => skipFiller false rest
  | c :: rest =>
    if inComment then if isTextChar c then skipFiller true rest else c :: rest
    else if isBlank c then skipFiller false rest
    else if c = '#' then skipFiller true rest
    else c :: rest

def point? (n : Nat) : Option Char := if n.isValidChar then some (Char.ofNat n) else none

def escape? : List Char → Option (Char × List Char)
  | 'b' :: rest => some ('\x08', rest)
  | 't' :: rest => some ('\t', rest)
  | 'n' :: rest => some ('\n', rest)
  | 'f' :: rest => some ('\x0c', rest)
  | 'r' :: rest => some ('\r', rest)
  | '"' :: rest => some ('"', rest)
  | '\\' :: rest => some ('\\', rest)
  | 'u' :: a :: b :: c :: d :: rest => do
    let n ← Json.unit? a b c d
    some (← point? n, rest)
  | 'U' :: a :: b :: c :: d :: e :: f :: g :: h :: rest => do
    let high ← Json.unit? a b c d
    let low ← Json.unit? e f g h
    some (← point? (high * 0x10000 + low), rest)
  | _ => none

theorem length_lt_of_escape {cs rest : List Char} {c : Char} (h : escape? cs = some (c, rest)) :
    rest.length < cs.length := by
  unfold escape? at h
  split at h <;> simp_all [Option.bind_eq_some_iff] <;> grind

def readQuoted (read : List Char) (cs : List Char) : Option (List Char × List Char) :=
  match cs with
  | [] => none
  | '"' :: rest => some (read.reverse, rest)
  | '\\' :: rest =>
    match h : escape? rest with
    | some (c, after) =>
      have : after.length < rest.length := length_lt_of_escape h
      readQuoted (c :: read) after
    | none => none
  | c :: rest => if isTextChar c then readQuoted (c :: read) rest else none
  termination_by cs.length

def readLiteral (read : List Char) : List Char → Option (List Char × List Char)
  | [] => none
  | '\x27' :: rest => some (read.reverse, rest)
  | c :: rest => if isTextChar c then readLiteral (c :: read) rest else none

/-- The end of a text of several lines, after the first three of its closing marks: up to two more
belong to the text. -/
def closeLong (mark : Char) (read : List Char) : List Char → List Char × List Char
  | c :: d :: rest =>
    if c = mark then
      if d = mark then ((mark :: mark :: read).reverse, rest) else ((mark :: read).reverse, d :: rest)
    else (read.reverse, c :: d :: rest)
  | [c] => if c = mark then ((mark :: read).reverse, []) else (read.reverse, [c])
  | [] => (read.reverse, [])

/-- Whether a backslash before these characters joins lines: nothing but blanks comes before the
line break. -/
def joinsLines (cs : List Char) : Bool := (lineBreak? (skipBlanks cs)).isSome

/-- The characters up to the three closing quotes. While `joining`, blanks and line breaks are
dropped. -/
def readLongQuoted (joining : Bool) (read : List Char) (cs : List Char) :
    Option (List Char × List Char) :=
  match cs with
  | [] => none
  | '"' :: '"' :: '"' :: rest => some (closeLong '"' read rest)
  | '\n' :: rest =>
    if joining then readLongQuoted true read rest else readLongQuoted false ('\n' :: read) rest
  | '\r' :: '\n' :: rest =>
    if joining then readLongQuoted true read rest else readLongQuoted false ('\n' :: read) rest
  | '\\' :: rest =>
    if joinsLines rest then readLongQuoted true read rest
    else
      match h : escape? rest with
      | some (c, after) =>
        have : after.length < rest.length := length_lt_of_escape h
        readLongQuoted false (c :: read) after
      | none => none
  | c :: rest =>
    if joining && isBlank c then readLongQuoted true read rest
    else if isTextChar c then readLongQuoted false (c :: read) rest
    else none
  termination_by cs.length

def readLongLiteral (read : List Char) : List Char → Option (List Char × List Char)
  | [] => none
  | '\x27' :: '\x27' :: '\x27' :: rest => some (closeLong '\x27' read rest)
  | '\n' :: rest => readLongLiteral ('\n' :: read) rest
  | '\r' :: '\n' :: rest => readLongLiteral ('\n' :: read) rest
  | c :: rest => if isTextChar c then readLongLiteral (c :: read) rest else none

def dropLineBreak (cs : List Char) : List Char := (lineBreak? cs).getD cs

def readText : List Char → Option (String × List Char)
  | '"' :: '"' :: '"' :: rest => text (readLongQuoted false [] (dropLineBreak rest))
  | '"' :: rest => text (readQuoted [] rest)
  | '\x27' :: '\x27' :: '\x27' :: rest => text (readLongLiteral [] (dropLineBreak rest))
  | '\x27' :: rest => text (readLiteral [] rest)
  | _ => none
where
  text (r : Option (List Char × List Char)) : Option (String × List Char) :=
    r.map fun (cs, rest) => (String.ofList cs, rest)

def isBareKeyChar (c : Char) : Bool := c.isAlphanum || c == '_' || c == '-'

def readKeyPart : List Char → Option (String × List Char)
  | '"' :: rest => (readQuoted [] rest).map fun (cs, rest) => (String.ofList cs, rest)
  | '\x27' :: rest => (readLiteral [] rest).map fun (cs, rest) => (String.ofList cs, rest)
  | cs =>
    match cs.takeWhile isBareKeyChar with
    | [] => none
    | name => some (String.ofList name, cs.dropWhile isBareKeyChar)

/-- The parts of a key, which points separate, at most as many as given; with the blanks around
it. -/
def readKeyParts : Nat → List Char → Option (List String × List Char)
  | 0, _ => none
  | n + 1, cs => do
    let (part, rest) ← readKeyPart (skipBlanks cs)
    match skipBlanks rest with
    | '.' :: rest =>
      let (parts, rest) ← readKeyParts n rest
      some (part :: parts, rest)
    | rest => some ([part], rest)

def maxNesting : Nat := 79

def readKey (cs : List Char) : Option (List String × List Char) := readKeyParts maxNesting cs

end TokenizerHost.Toml
