import ModuleLoader.Toml.Reader

/-!
# TOML documents

A document is a tree of tables that its lines add to.  A table comes about by a header of its own,
by a header of something below it, or by a dotted key, and only one header and no key from
elsewhere may add to it later; no key is given twice.
-/

set_option autoImplicit false

namespace ModuleLoader.Toml

/-- How a table came about. -/
inductive Origin where
  /-- By a header of something below it. -/
  | implied
  /-- By a dotted key. -/
  | dotted
  /-- By a header of its own. -/
  | defined
deriving DecidableEq, Repr

/-- A part of a document in the making. -/
inductive Node where
  | value (v : TomlValue)
  | table (origin : Origin) (entries : List (String × Node))
  /-- Several tables under one name; headers and keys add to the last, which comes first here. -/
  | tables (last : List (String × Node)) (earlier : List (List (String × Node)))

/-- What stands under the names of a table, in order. -/
abbrev Entries := List (String × Node)

/-- What stands under a name. -/
def nodeAt? (entries : Entries) (name : String) : Option Node :=
  (entries.find? fun e => e.1 == name).map (·.2)

/-- Put something under a name, in place of what is there. -/
def setEntry (entries : Entries) (name : String) (node : Node) : Entries :=
  if (nodeAt? entries name).isSome then
    entries.map fun e => if e.1 = name then (name, node) else e
  else entries ++ [(name, node)]

/-- Change the table that a header leads to; tables on the way come about by it. -/
def modifyAt (change : Entries → Option Entries) : List String → Entries → Option Entries
  | [], entries => change entries
  | name :: names, entries =>
    match nodeAt? entries name with
    | none => (modifyAt change names []).map fun es => setEntry entries name (.table .implied es)
    | some (.table origin es) =>
      (modifyAt change names es).map fun es => setEntry entries name (.table origin es)
    | some (.tables last earlier) =>
      (modifyAt change names last).map fun es => setEntry entries name (.tables es earlier)
    | some (.value _) => none

/-- Give a key a value.  A dotted key leads through tables that dotted keys made; the last of them
must be one. -/
def assign (name : String) (v : TomlValue) : List String → Entries → Option Entries
  | [], entries =>
    if (nodeAt? entries name).isSome then none else some (entries ++ [(name, .value v)])
  | p :: path, entries =>
    match nodeAt? entries p with
    | none => (assign name v path []).map fun es => setEntry entries p (.table .dotted es)
    | some (.table origin es) =>
      if origin = .defined ∨ (path = [] ∧ origin ≠ .dotted) then none
      else (assign name v path es).map fun es => setEntry entries p (.table origin es)
    | some (.tables last earlier) =>
      if path = [] then none
      else (assign name v path last).map fun es => setEntry entries p (.tables es earlier)
    | some (.value _) => none

/-- Give the path of a pair its value. -/
def assignPair (entries : Entries) (p : Pair) : Option Entries :=
  match p.path.reverse with
  | [] => none
  | name :: path => assign name p.value path.reverse entries

/-- Define a table by its header; it may exist only through headers of what is below it. -/
def defineTable (name : String) (entries : Entries) : Option Entries :=
  match nodeAt? entries name with
  | none => some (setEntry entries name (.table .defined []))
  | some (.table .implied es) => some (setEntry entries name (.table .defined es))
  | some _ => none

/-- Begin one more table of an array of tables. -/
def addTable (name : String) (entries : Entries) : Option Entries :=
  match nodeAt? entries name with
  | none => some (setEntry entries name (.tables [] []))
  | some (.tables last earlier) => some (setEntry entries name (.tables [] (last :: earlier)))
  | some _ => none

mutual

/-- The value that a node has come to. -/
def Node.toValue : Node → TomlValue
  | .value v => v
  | .table _ entries => .table (Table.ofList (finish entries)).entries
  | .tables last earlier =>
    .array (finishTables earlier [.table (Table.ofList (finish last)).entries])

/-- The values that entries have come to. -/
def finish : Entries → List (String × TomlValue)
  | [] => []
  | (name, node) :: entries => (name, node.toValue) :: finish entries

/-- Several finished tables, of which the last come first, before some others. -/
def finishTables : List Entries → List TomlValue → List TomlValue
  | [], others => others
  | entries :: earlier, others =>
    finishTables earlier (.table (Table.ofList (finish entries)).entries :: others)

end

/-- The table of pairs written on one line. -/
def inlineTable? (pairs : List Pair) : Option TomlValue :=
  (pairs.foldlM assignPair []).map fun entries => .table (Table.ofList (finish entries)).entries

/-- A value, nested no deeper than there is fuel for. -/
def value : Nat → Reader TomlValue
  | _, '"' :: r => (anyString ('"' :: r)).map fun s => (.string s.1, s.2)
  | _, '\'' :: r => (anyString ('\'' :: r)).map fun s => (.string s.1, s.2)
  | 0, '[' :: _ => none
  | fuel + 1, '[' :: r =>
    (arrayItems (value fuel) (r.length + 1) r).map fun s => (.array s.1, s.2)
  | 0, '\x7b' :: _ => none
  | fuel + 1, '\x7b' :: r =>
    match dropLineBlanks r with
    | '\x7d' :: rest => some (.table [], rest)
    | r' => do
      let (pairs, rest) ← inlinePairs (value fuel) (r'.length + 1) r'
      return (← inlineTable? pairs, rest)
  | _, cs => word cs

/-- A document in the making, and the header its keys belong to. -/
structure Draft where
  root : Entries
  header : List String

/-- Add what a header with one bracket or two says. -/
def Draft.open? (d : Draft) (define : String → Entries → Option Entries) (path : List String) :
    Option Draft :=
  match path.reverse with
  | [] => none
  | name :: front => (modifyAt (define name) front.reverse d.root).map fun root => ⟨root, path⟩

/-- Give the path of a pair its value, in the table under the last header. -/
def Draft.assign? (d : Draft) (p : Pair) : Option Draft :=
  (modifyAt (assignPair · p) d.header d.root).map fun root => { d with root }

/-- Add what the line at the front of a text says, and what follows the line. -/
def line? (d : Draft) (cs : List Char) : Option (Draft × List Char) :=
  match cs with
  | '[' :: '[' :: r => do
    let (path, r') ← key r
    match r' with
    | ']' :: ']' :: rest => return (← d.open? addTable path, ← lineEnd? rest)
    | _ => none
  | '[' :: r => do
    let (path, r') ← key r
    match r' with
    | ']' :: rest => return (← d.open? defineTable path, ← lineEnd? rest)
    | _ => none
  | _ => do
    let (p, rest) ← pair (value (depthLimit - 1)) cs
    return (← d.assign? p, ← lineEnd? rest)

/-- Add what the lines of a text say, at most as many as there is fuel for. -/
def lines? : Nat → Draft → List Char → Option Draft
  | 0, _, _ => none
  | fuel + 1, d, cs =>
    match dropLineBlanks cs with
    | [] => some d
    | c :: r =>
      if c = '#' ∨ c = '\n' ∨ c = '\r' then
        (lineEnd? (c :: r)).bind (lines? fuel d)
      else (line? d (c :: r)).bind fun s => lines? fuel s.1 s.2

/-- A text without the mark that may come before all else. -/
def dropMark : List Char → List Char
  | '\uFEFF' :: r => r
  | r => r

/-- The table that a text describes. -/
def parse? (text : String) : Option (Table TomlValue) :=
  let cs := dropMark text.toList
  (lines? (cs.length + 1) ⟨[], []⟩ cs).map fun d => Table.ofList (finish d.root)

end ModuleLoader.Toml
