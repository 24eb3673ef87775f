import TokenizerHost.Json.Reader
import TokenizerHost.Toml

namespace TokenizerHost.Toml

def underscoresBetween : List Char → Bool
  | [] => false
  | [c] => c != '_'
  | c :: '_' :: rest => c != '_' && underscoresBetween rest
  | c :: rest => c != '_' && underscoresBetween rest

/-- Digits with single underscores between them, without the underscores. -/
def readDigits (isDigit : Char → Bool) (cs : List Char) : Option (List Char × List Char) :=
  let isPart (c : Char) := isDigit c || c == '_'
  let ds := cs.takeWhile isPart
  if underscoresBetween ds then some (ds.filter (· != '_'), cs.dropWhile isPart) else none

/-- The digits of an integer part: a zero alone, or digits that do not begin with one. -/
def readWholeDigits : List Char → Option (List Char × List Char)
  | '0' :: rest => some (['0'], rest)
  | cs => readDigits Char.isDigit cs

def valueIn (base : Nat) (ds : List Char) : Nat :=
  ds.foldl (fun n c => n * base + (Json.hexValue? c).getD 0) 0

def isDigitIn (base : Nat) (c : Char) : Bool := (Json.hexValue? c).elim false (· < base)

def integer? (n : Int) : Option Toml :=
  if Int64.minValue.toInt ≤ n ∧ n ≤ Int64.maxValue.toInt then some (.integer n) else none

def readInBase (base : Nat) (cs : List Char) : Option (Toml × List Char) := do
  let (ds, rest) ← readDigits (isDigitIn base) cs
  some (← integer? (valueIn base ds), rest)

/-- Whether `m` times ten to the power `p` is too large for a finite float: it lies at or above the
middle between the largest one and the next power of two. -/
def overflows (m : Nat) (p : Int) : Bool :=
  let width := ((Nat.toDigits 10 m).length : Int)
  let bound := Nat.pow 2 1024 - Nat.pow 2 970
  if m = 0 then false
  else if width + p > 400 then true
  else if width + p < 300 then false
  else if p < 0 then bound * Nat.pow 10 p.natAbs ≤ m
  else bound ≤ m * Nat.pow 10 p.natAbs

def readSign : List Char → Bool × List Char
  | '-' :: rest => (true, rest)
  | '+' :: rest => (false, rest)
  | cs => (false, cs)

def readExponent : List Char → Option (Option Int × List Char)
  | c :: rest => do
    if c = 'e' ∨ c = 'E' then
      let (negative, rest) := readSign rest
      let (ds, rest) ← readDigits Char.isDigit rest
      let e := (valueIn 10 ds : Int)
      some (some (if negative then -e else e), rest)
    else some (none, c :: rest)
  | [] => some (none, [])

def readFraction : List Char → Option (Option (List Char) × List Char)
  | '.' :: rest => (readDigits Char.isDigit rest).map fun (ds, rest) => (some ds, rest)
  | cs => some (none, cs)

def floatOf (negative : Bool) (cs : List Char) : Toml :=
  let digits := cs.filter (· != '_')
  .float (String.ofList (if negative then '-' :: digits else digits))

def readDecimal (negative : Bool) (cs : List Char) : Option (Toml × List Char) := do
  let (whole, rest) ← readWholeDigits cs
  let (fraction, rest) ← readFraction rest
  let (exponent, rest) ← readExponent rest
  match fraction, exponent with
  | none, none =>
    let n := (valueIn 10 whole : Int)
    some (← integer? (if negative then -n else n), rest)
  | _, _ =>
    let places := fraction.getD []
    if !negative && overflows (valueIn 10 (whole ++ places)) (exponent.getD 0 - places.length) then none
    else some (floatOf negative (cs.take (cs.length - rest.length)), rest)

def readNumber (cs : List Char) : Option (Toml × List Char) :=
  match cs with
  | '0' :: 'x' :: rest => readInBase 16 rest
  | '0' :: 'o' :: rest => readInBase 8 rest
  | '0' :: 'b' :: rest => readInBase 2 rest
  | cs =>
    let (negative, cs) := readSign cs
    match cs with
    | 'i' :: 'n' :: 'f' :: rest => some (floatOf negative ['i', 'n', 'f'], rest)
    | 'n' :: 'a' :: 'n' :: rest => some (floatOf negative ['n', 'a', 'n'], rest)
    | cs => readDecimal negative cs

end TokenizerHost.Toml
