import TokenizerHost.Toml

/-!
# Building the tree of a configuration document

A document sets keys under headers. While it is read, tables are told apart by how they came to be:
a header opened them, a header below them implied them, or a key with points made them. Each may be
added to only in the way it was made:

* a header opens a table that is new or was implied, and adds an item to a list of tables;
* a key with points goes through tables that no header opened, and adds only to tables that such
  keys made;
* no key is set twice.
-/

namespace TokenizerHost.Toml

inductive Origin where
  /-- A header opened it, or it is the document or an inline table. -/
  | opened
  /-- A header below it implied it. -/
  | implied
  | dotted
  deriving DecidableEq, Repr, Inhabited

inductive Node where
  | leaf (t : Toml)
  | branch (origin : Origin) (entries : List (String × Node))
  /-- A list of tables, each item opened by a header. -/
  | list (items : List (List (String × Node)))
  deriving Inhabited

abbrev Entries := List (String × Node)

mutual

def Node.toToml : Node → Toml
  | .leaf t => t
  | .branch _ entries => .table (entriesToToml entries)
  | .list items => .array (itemsToToml items)

def entriesToToml : List (String × Node) → List (String × Toml)
  | [] => []
  | (key, node) :: rest => (key, node.toToml) :: entriesToToml rest

def itemsToToml : List (List (String × Node)) → List Toml
  | [] => []
  | entries :: rest => .table (entriesToToml entries) :: itemsToToml rest

end

namespace Entries

def alter? (key : String) (f : Option Node → Option Node) (es : Entries) : Option Entries := do
  let node ← f (es.lookup key)
  some (upsert key (fun _ => node) es)

/-- Changes the table that a path leads to from a table. Tables that are not there are made, and a
list of tables leads into its last item. -/
def descend? (dotted : Bool) (f : Origin → Entries → Option Entries) :
    List String → Origin → Entries → Option Entries
  | [], origin, es => f origin es
  | key :: path, _, es =>
    es.alter? key fun
      | none =>
        let origin := if dotted then .dotted else .implied
        (descend? dotted f path origin []).map (.branch origin)
      | some (.leaf _) => none
      | some (.branch origin inner) =>
        if dotted && origin == .opened then none
        else (descend? dotted f path origin inner).map (.branch origin)
      | some (.list items) =>
        match items.getLast? with
        | some last =>
          (descend? dotted f path .opened last).map fun new => .list (items.dropLast ++ [new])
        | none => none

def assign? (path : List String) (key : String) (value : Toml) (origin : Origin) (es : Entries) :
    Option Entries :=
  descend? true (fun origin es =>
    if (origin == .dotted) == path.isEmpty then none
    else es.alter? key fun
      | none => some (.leaf value)
      | some _ => none) path origin es

/-- Opens the table of a header, which comes after all that stands beside it, even if it was implied
before. -/
def openTable? (path : List String) (key : String) (es : Entries) : Option Entries :=
  descend? false (fun _ es =>
    match es.lookup key with
    | none => some (es ++ [(key, .branch .opened [])])
    | some (.branch .implied inner) =>
      some (es.filter (·.1 != key) ++ [(key, .branch .opened inner)])
    | some _ => none) path .opened es

def openItem? (path : List String) (key : String) (es : Entries) : Option Entries :=
  descend? false (fun _ es => es.alter? key fun
    | none => some (.list [[]])
    | some (.list items) => some (.list (items ++ [[]]))
    | some _ => none) path .opened es

def assignUnder? (header path : List String) (key : String) (value : Toml) (es : Entries) :
    Option Entries :=
  descend? false (fun origin es => assign? path key value origin es) header .opened es

end Entries

end TokenizerHost.Toml
