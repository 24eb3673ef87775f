import TokenizerHost.Json

namespace TokenizerHost.Json

def isSpace (c : Char) : Bool := c == ' ' || c == '\t' || c == '\n' || c == '\r'

def skipSpace (cs : List Char) : List Char := cs.dropWhile isSpace

def hexValue? (c : Char) : Option Nat :=
  if '0' ≤ c && c ≤ '9' then some (c.toNat - '0'.toNat)
  else if 'a' ≤ c && c ≤ 'f' then some (c.toNat - 'a'.toNat + 10)
  else if 'A' ≤ c && c ≤ 'F' then some (c.toNat - 'A'.toNat + 10)
  else none

def unit? (a b c d : Char) : Option Nat := do
  let a ← hexValue? a
  let b ← hexValue? b
  let c ← hexValue? c
  let d ← hexValue? d
  some (((a * 16 + b) * 16 + c) * 16 + d)

def isLeadingHalf (n : Nat) : Bool := 0xD800 ≤ n && n ≤ 0xDBFF

def isTrailingHalf (n : Nat) : Bool := 0xDC00 ≤ n && n ≤ 0xDFFF

def shortEscape? (c : Char) : Option Char :=
  match c with
  | '"' => some '"'
  | '\\' => some '\\'
  | '/' => some '/'
  | 'b' => some '\x08'
  | 'f' => some '\x0c'
  | 'n' => some '\n'
  | 'r' => some '\r'
  | 't' => some '\t'
  | _ => none

/-- A text and what follows it. The text is `none` if it is broken. -/
structure ReadText where
  text : Option (List Char)
  rest : List Char

def ReadText.cons (c : Char) (r : ReadText) : ReadText := { r with text := r.text.map (c :: ·) }

def readText : List Char → Option ReadText
  | [] => none
  | '"' :: rest => some ⟨some [], rest⟩
  | '\\' :: 'u' :: a :: b :: c :: d :: '\\' :: 'u' :: e :: f :: g :: h :: rest =>
    match unit? a b c d, unit? e f g h with
    | some first, some second =>
      if isLeadingHalf first && isTrailingHalf second then
        let point := 0x10000 + (first - 0xD800) * 0x400 + (second - 0xDC00)
        (readText rest).map (·.cons (Char.ofNat point))
      else if isLeadingHalf first || isTrailingHalf first then
        (readText ('\\' :: 'u' :: e :: f :: g :: h :: rest)).map ({ · with text := none })
      else (readText ('\\' :: 'u' :: e :: f :: g :: h :: rest)).map (·.cons (Char.ofNat first))
    | _, _ => none
  | '\\' :: 'u' :: a :: b :: c :: d :: rest =>
    match unit? a b c d with
    | some first =>
      if isLeadingHalf first || isTrailingHalf first then
        (readText rest).map ({ · with text := none })
      else (readText rest).map (·.cons (Char.ofNat first))
    | none => none
  | '\\' :: c :: rest =>
    match shortEscape? c with
    | some c => (readText rest).map (·.cons c)
    | none => none
  | c :: rest => if c.toNat < 0x20 then none else (readText rest).map (·.cons c)
  termination_by cs => cs.length

def digitsOf (cs : List Char) : List Char := cs.takeWhile Char.isDigit

def afterDigits (cs : List Char) : List Char := cs.dropWhile Char.isDigit

/-- The digits of an integer part: a zero alone, or digits that do not begin with one. -/
def readWhole (cs : List Char) : Option (Nat × List Char) :=
  match digitsOf cs with
  | [] => none
  | ['0'] => some (0, afterDigits cs)
  | '0' :: _ => none
  | ds => some (Text.natOfDigits ds, afterDigits cs)

/-- The exponent that may follow a number; `none` if one begins and has no digits. -/
def readExponent (cs : List Char) : Option (Bool × List Char) :=
  match cs with
  | e :: rest =>
    if e == 'e' || e == 'E' then
      let rest := match rest with
        | '+' :: r => r
        | '-' :: r => r
        | r => r
      if (digitsOf rest).isEmpty then none else some (true, afterDigits rest)
    else some (false, cs)
  | [] => some (false, [])

/-- A number and what follows it. A minus sign before zero makes a number that is no integer. -/
def readNumber (cs : List Char) : Option (Json × List Char) := do
  let (negative, cs) := match cs with
    | '-' :: r => (true, r)
    | r => (false, r)
  let (whole, cs) ← readWhole cs
  let (pointed, cs) ← match cs with
    | '.' :: r => if (digitsOf r).isEmpty then none else some (true, afterDigits r)
    | r => some (false, r)
  let (raised, cs) ← readExponent cs
  if pointed || raised || (negative && whole == 0) then some (.fraction, cs)
  else some (.integer (if negative then -(whole : Int) else whole), cs)

def ofReadText (text : Option (List Char)) : Json :=
  match text with
  | some cs => .string (String.ofList cs)
  | none => .brokenString

mutual

def readValue : Nat → List Char → Option (Json × List Char)
  | 0, _ => none
  | fuel + 1, cs =>
    match skipSpace cs with
    | 'n' :: 'u' :: 'l' :: 'l' :: rest => some (.null, rest)
    | 't' :: 'r' :: 'u' :: 'e' :: rest => some (.bool true, rest)
    | 'f' :: 'a' :: 'l' :: 's' :: 'e' :: rest => some (.bool false, rest)
    | '"' :: rest => (readText rest).map fun r => (ofReadText r.text, r.rest)
    | '[' :: rest =>
      match skipSpace rest with
      | ']' :: rest => some (.array [], rest)
      | rest => (readItems fuel rest).map fun (items, rest) => (.array items, rest)
    | '\x7b' :: rest =>
      match skipSpace rest with
      | '\x7d' :: rest => some (.object [], rest)
      | rest => (readMembers fuel rest).map fun (members, rest) => (.object members, rest)
    | cs => readNumber cs

def readItems : Nat → List Char → Option (List Json × List Char)
  | 0, _ => none
  | fuel + 1, cs => do
    let (item, rest) ← readValue fuel cs
    match skipSpace rest with
    | ',' :: rest =>
      let (items, rest) ← readItems fuel rest
      some (item :: items, rest)
    | ']' :: rest => some ([item], rest)
    | _ => none

def readMembers : Nat → List Char → Option (List (Option String × Json) × List Char)
  | 0, _ => none
  | fuel + 1, cs => do
    match skipSpace cs with
    | '"' :: rest =>
      let name ← readText rest
      match skipSpace name.rest with
      | ':' :: rest =>
        let (value, rest) ← readValue fuel rest
        let member := (name.text.map String.ofList, value)
        match skipSpace rest with
        | ',' :: rest =>
          let (members, rest) ← readMembers fuel rest
          some (member :: members, rest)
        | '\x7d' :: rest => some ([member], rest)
        | _ => none
      | _ => none
    | _ => none

end

def parse? (text : String) : Option Json :=
  let cs := text.toList
  match readValue (cs.length + 1) cs with
  | some (value, rest) => if (skipSpace rest).isEmpty then some value else none
  | none => none

end TokenizerHost.Json
