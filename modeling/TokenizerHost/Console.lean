import TokenizerHost.Fault
import TokenizerHost.Text.Replacement

namespace TokenizerHost

structure ConsoleLine where
  stream : Int
  text : String
  deriving DecidableEq, Repr, Inhabited

structure Console where
  /-- Bytes of the unfinished line of stream 1. -/
  out : List UInt8
  /-- Bytes of the unfinished line of stream 2. -/
  err : List UInt8
  lines : Array ConsoleLine
  deriving Inhabited

/-- The lines that bytes finish, and the bytes after the last newline. -/
def splitLines : List UInt8 → List (List UInt8) × List UInt8
  | [] => ([], [])
  | b :: rest =>
    let (lines, remainder) := splitLines rest
    if b = 0x0A then ([] :: lines, remainder)
    else
      match lines with
      | [] => ([], b :: remainder)
      | line :: lines => ((b :: line) :: lines, remainder)

namespace Console

def empty : Console := ⟨[], [], #[]⟩

def lineText (bytes : List UInt8) : String := Text.ofBytes bytes.toByteArray

def pending (c : Console) (stream : Int) : List UInt8 :=
  if stream = 1 then c.out else if stream = 2 then c.err else []

def setPending (c : Console) (stream : Int) (bytes : List UInt8) : Console :=
  if stream = 1 then { c with out := bytes }
  else if stream = 2 then { c with err := bytes }
  else c

def print (c : Console) (stream : Int) (lines : List (List UInt8)) : Console :=
  { c with lines := c.lines ++ (lines.map fun bytes => ⟨stream, lineText bytes⟩).toArray }

def write? (c : Console) (stream : Int) (bytes : ByteArray) : Option Console :=
  if stream = 1 ∨ stream = 2 then
    let (lines, remainder) := splitLines (c.pending stream ++ bytes.toList)
    some ((c.print stream lines).setPending stream remainder)
  else none

def write (c : Console) (stream : Int) (bytes : ByteArray) : Except Fault Nat × Console :=
  match c.write? stream bytes with
  | some c => (.ok bytes.size, c)
  | none => (.error (.unsupported s!"write to fd {stream}"), c)

def flushStream (c : Console) (stream : Int) : Console :=
  match c.pending stream with
  | [] => c
  | bytes => (c.print stream [bytes]).setPending stream []

/-- Prints what is unfinished. Nothing may depend on which stream comes first. -/
def flush (c : Console) : Console := (c.flushStream 1).flushStream 2

end Console

end TokenizerHost
