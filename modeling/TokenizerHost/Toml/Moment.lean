import TokenizerHost.Text.Digits
import TokenizerHost.Toml

/-!
# Dates and times of a configuration document

A moment is a date, a time, or a date and a time with or without an offset. It is kept as its text
in normal form: `T` between date and time, `Z` in upper case, at most nine places of a second's
fraction, without zeros at the end, and an offset in hours and less than sixty minutes.

A moment stands in a document as such, or alone in a text (`momentOfText?`). Texts are read less
strictly: a day may have an hour 24, and an offset any minutes if it is at most a day.
-/

namespace TokenizerHost.Toml

def fixedDigits? : Nat → List Char → Option (List Char × List Char)
  | 0, cs => some ([], cs)
  | n + 1, c :: rest =>
    if c.isDigit then (fixedDigits? n rest).map fun (ds, rest) => (c :: ds, rest) else none
  | _ + 1, [] => none

def twoDigits? (low high : Nat) (cs : List Char) : Option (Nat × List Char) := do
  let (ds, rest) ← fixedDigits? 2 cs
  let n := Text.natOfDigits ds
  if low ≤ n ∧ n ≤ high then some (n, rest) else none

def expect (c : Char) : List Char → Option (List Char)
  | d :: rest => if d = c then some rest else none
  | [] => none

def isLeapYear (year : Nat) : Bool := year % 4 == 0 && (year % 100 != 0 || year % 400 == 0)

def daysInMonth (year month : Nat) : Nat :=
  if month = 2 then if isLeapYear year then 29 else 28
  else if month ∈ [4, 6, 9, 11] then 30
  else 31

def padded (width n : Nat) : String :=
  let ds := Text.decimalChars n
  String.ofList (List.replicate (width - ds.length) '0' ++ ds)

def readDate (cs : List Char) : Option (String × List Char) := do
  let (ds, rest) ← fixedDigits? 4 cs
  let year := Text.natOfDigits ds
  let (month, rest) ← twoDigits? 1 12 (← expect '-' rest)
  let (day, rest) ← twoDigits? 1 31 (← expect '-' rest)
  if day ≤ daysInMonth year month then
    some (padded 4 year ++ "-" ++ padded 2 month ++ "-" ++ padded 2 day, rest)
  else none

/-- The places of a second's fraction in normal form, with the point; none if they are all zero. -/
def fractionText (ds : List Char) : String :=
  match ((ds.take 9).reverse.dropWhile (· == '0')).reverse with
  | [] => ""
  | ds => String.ofList ('.' :: ds)

def readTime (lastHour : Nat) (cs : List Char) : Option (String × List Char) := do
  let (hour, rest) ← twoDigits? 0 lastHour cs
  let (minute, rest) ← twoDigits? 0 59 (← expect ':' rest)
  let (second, rest) ← twoDigits? 0 60 (← expect ':' rest)
  let text := padded 2 hour ++ ":" ++ padded 2 minute ++ ":" ++ padded 2 second
  match rest with
  | '.' :: places =>
    match places.takeWhile Char.isDigit with
    | [] => none
    | ds => some (text ++ fractionText ds, places.dropWhile Char.isDigit)
  | rest => some (text, rest)

/-- The offset of a time by its sign and its minutes. No offset is written with a plus. -/
def offsetText (sign : Char) (minutes : Nat) : String :=
  (if sign = '-' ∧ minutes ≠ 0 then "-" else "+") ++ padded 2 (minutes / 60) ++ ":" ++
    padded 2 (minutes % 60)

def readOffset (lastHour lastMinute : Nat) : List Char → Option (String × List Char)
  | 'Z' :: rest => some ("Z", rest)
  | 'z' :: rest => some ("Z", rest)
  | c :: rest => do
    if c = '+' ∨ c = '-' then
      let (hour, rest) ← twoDigits? 0 lastHour rest
      let (minute, rest) ← twoDigits? 0 lastMinute (← expect ':' rest)
      if hour * 60 + minute ≤ 24 * 60 then some (offsetText c (hour * 60 + minute), rest) else none
    else some ("", c :: rest)
  | [] => some ("", [])

def beginsTime (cs : List Char) : Bool :=
  match fixedDigits? 2 cs with
  | some (_, ':' :: _) => true
  | _ => false

def beginsDate (cs : List Char) : Bool :=
  match fixedDigits? 4 cs with
  | some (_, '-' :: _) => true
  | _ => false

def isTimeMark (c : Char) : Bool := c == 'T' || c == 't' || c == ' '

def readDateTime (cs : List Char) : Option (String × List Char) := do
  let (date, rest) ← readDate cs
  match rest with
  | c :: after =>
    if isTimeMark c && beginsTime after then
      let (time, rest) ← readTime 23 after
      let (offset, rest) ← readOffset 23 59 rest
      some (date ++ "T" ++ time ++ offset, rest)
    else some (date, rest)
  | [] => some (date, [])

def complete? : String × List Char → Option String
  | (text, []) => some text
  | _ => none

def momentOfText? (text : String) : Option String :=
  let cs := text.toList
  if (cs.drop 2).head? = some ':' then (readTime 24 cs).bind complete?
  else do
    let (date, rest) ← readDate cs
    match rest with
    | [] => some date
    | c :: after =>
      if isTimeMark c then
        let (time, rest) ← readTime 24 after
        let (offset, rest) ← readOffset 99 99 rest
        complete? (date ++ "T" ++ time ++ offset, rest)
      else none

end TokenizerHost.Toml
