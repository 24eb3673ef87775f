/-!
# Reading the command line

A command line is a command with its own options; some options may stand anywhere. Each command is
a level: what stands after its name belongs to it, and an option is given at most once on a level.
Where an option of all levels is given on several, the deepest one counts.

Options of one letter may be run together. A value follows its option directly, after an equals
sign, or as the next argument. After `--` no argument is an option or a command.
-/

namespace TokenizerHost

structure AnalyzeCommand where
  texts : List String
  source : Option String
  fromInput : Bool
  wordsOnly : Bool
  deriving DecidableEq, Repr, Inhabited

inductive Command where
  | analyze (c : AnalyzeCommand)
  | showConfig
  deriving DecidableEq, Repr, Inhabited

structure Invocation where
  verbose : Bool
  configFile : Option String
  command : Command
  deriving DecidableEq, Repr, Inhabited

inductive NoRun where
  | version
  | usage
  deriving DecidableEq, Repr, Inhabited

namespace CommandLine

inductive Level where
  | program
  | analyze
  | config
  | showConfig
  deriving DecidableEq, Repr, Inhabited

inductive Switch where
  | verbose
  | config
  | version
  | source
  | fromInput
  | wordsOnly
  deriving DecidableEq, Repr, Inhabited

namespace Switch

def all : List Switch := [.verbose, .config, .version, .source, .fromInput, .wordsOnly]

def letter? : Switch → Option Char
  | .verbose => some 'v'
  | .config => some 'c'
  | .version => some 'V'
  | .source => some 'm'
  | .fromInput => none
  | .wordsOnly => some 'w'

def name : Switch → String
  | .verbose => "verbose"
  | .config => "config"
  | .version => "version"
  | .source => "module"
  | .fromInput => "stdin"
  | .wordsOnly => "words"

def takesValue : Switch → Bool
  | .config | .source => true
  | _ => false

def allowedOn : Switch → Level → Bool
  | .verbose, _ | .config, _ => true
  | .version, level => level == .program
  | .source, level | .fromInput, level | .wordsOnly, level => level == .analyze

def ofLetter? (level : Level) (c : Char) : Option Switch :=
  all.find? fun s => s.allowedOn level && s.letter? == some c

def ofName? (level : Level) (name : String) : Option Switch :=
  all.find? fun s => s.allowedOn level && s.name == name

end Switch

structure Draft where
  level : Level
  given : List Switch
  verbose : Bool
  configFile : Option String
  analyze : AnalyzeCommand

namespace Draft

def empty : Draft := ⟨.program, [], false, none, ⟨[], none, false, false⟩⟩

def enter (d : Draft) (level : Level) : Draft := { d with level, given := [] }

/-- Takes an option with its value, which is empty where it has none. A path is never empty. -/
def take (d : Draft) (s : Switch) (value : String) : Except NoRun Draft :=
  let next := { d with given := s :: d.given }
  if d.given.contains s then .error .usage
  else
    match s with
    | .verbose => .ok { next with verbose := true }
    | .config => if value = "" then .error .usage else .ok { next with configFile := some value }
    | .version => .error .version
    | .source => .ok { next with analyze := { d.analyze with source := some value } }
    | .fromInput => .ok { next with analyze := { d.analyze with fromInput := true } }
    | .wordsOnly => .ok { next with analyze := { d.analyze with wordsOnly := true } }

def takeWord (d : Draft) (word : String) : Except NoRun Draft :=
  match d.level, word with
  | .program, "analyze" => .ok (d.enter .analyze)
  | .program, "config" => .ok (d.enter .config)
  | .config, "show" => .ok (d.enter .showConfig)
  | .analyze, text => .ok { d with analyze := { d.analyze with texts := d.analyze.texts ++ [text] } }
  | _, _ => .error .usage

def takeRest (d : Draft) (words : List String) : Except NoRun Draft :=
  if words.isEmpty then .ok d
  else if d.level = .analyze then
    .ok { d with analyze := { d.analyze with texts := d.analyze.texts ++ words } }
  else .error .usage

def finish (d : Draft) : Except NoRun Invocation :=
  match d.level with
  | .program | .config => .error .usage
  | .analyze =>
    if d.analyze.fromInput ∧ d.analyze.texts ≠ [] then .error .usage
    else .ok ⟨d.verbose, d.configFile, .analyze d.analyze⟩
  | .showConfig => .ok ⟨d.verbose, d.configFile, .showConfig⟩

/-- Takes options of one letter run together. The result names the option whose value is the next
argument, if there is one. -/
def takeLetters (d : Draft) : List Char → Except NoRun (Draft × Option Switch)
  | [] => .ok (d, none)
  | c :: rest =>
    match Switch.ofLetter? d.level c with
    | none => .error .usage
    | some s =>
      if s.takesValue then
        match rest with
        | [] => .ok (d, some s)
        | '=' :: value => (d.take s (String.ofList value)).map fun d => (d, none)
        | value => (d.take s (String.ofList value)).map fun d => (d, none)
      else
        match d.take s "" with
        | .ok d => d.takeLetters rest
        | .error e => .error e

def takeNamed (d : Draft) (cs : List Char) : Except NoRun (Draft × Option Switch) :=
  let name := cs.takeWhile (· != '=')
  match Switch.ofName? d.level (String.ofList name), cs.drop name.length with
  | none, _ => .error .usage
  | some s, '=' :: value =>
    if s.takesValue then (d.take s (String.ofList value)).map fun d => (d, none) else .error .usage
  | some s, _ =>
    if s.takesValue then .ok (d, some s) else (d.take s "").map fun d => (d, none)

def takeArgument (d : Draft) (arg : String) : Except NoRun (Draft × Option Switch) :=
  match arg.toList with
  | '-' :: '-' :: cs => d.takeNamed cs
  | '-' :: c :: cs => d.takeLetters (c :: cs)
  | _ => (d.takeWord arg).map fun d => (d, none)

end Draft

def isValue (arg : String) : Bool := !arg.startsWith "-" || arg == "-"

def read (d : Draft) : List String → Except NoRun Draft
  | [] => .ok d
  | "--" :: rest => d.takeRest rest
  | arg :: rest =>
    match d.takeArgument arg with
    | .error e => .error e
    | .ok (d, none) => read d rest
    | .ok (d, some s) =>
      match rest with
      | [] => .error .usage
      | value :: rest =>
        if isValue value then
          match d.take s value with
          | .ok d => read d rest
          | .error e => .error e
        else .error .usage

end CommandLine

def Invocation.parse (args : List String) : Except NoRun Invocation := do
  (← CommandLine.read .empty args).finish

end TokenizerHost
