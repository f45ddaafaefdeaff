import ModuleLoader.Script.Fault

/-!
# Running scripts

An engine keeps the heap, the global names, the functions of the host with what they remember, and
the lines written so far.  A script runs statement by statement against fresh local names: locals
hide globals, and only an assignment to a bare name that is not local and a function of the host
reach the globals.  A failing statement ends the run and the engine stays as that statement left it.
-/

set_option autoImplicit false

namespace ModuleLoader.Script

/-- One thing that a function of the host does to the engine.  Objects are made and their properties
written; neither is ever taken away. -/
inductive Effect where
  /-- Write a line of output. -/
  | print (line : String)
  /-- Make an empty object, the next one of the heap. -/
  | alloc
  | write (target : ObjectId) (key : String) (value : Value)
  /-- Define or replace a global. -/
  | define (name : String) (value : Value)
  /-- Remember some values until the next call, in place of those remembered so far. -/
  | remember (values : List Value)

/-- A function of the host, called from a script by its name.  It sees the objects there are, what the
functions of the host remember and its arguments; what it does comes before its answer, also when it
fails.  Values can spell data of any kind, so a function may have any state.  A failure is placed at
the statement that calls. -/
structure Native where
  call : Heap → List Value → List Value → List Effect × Except Fault Value

namespace Native

/-- Write the texts of the arguments, separated by spaces, as one line of output. -/
def log : Native :=
  ⟨fun _ _ args => ([.print (" ".intercalate (args.map Value.text))], .ok .undefined)⟩

/-- Answer, or fail, from the arguments alone and do nothing else. -/
def host (answer : List Value → Except Fault Value) : Native := ⟨fun _ _ args => ([], answer args)⟩

end Native

/-- What persists between scripts. -/
structure Engine where
  heap : Heap
  globals : Table Value
  natives : Table Native
  output : List String
  /-- What the functions of the host remember. -/
  memory : List Value

namespace Engine

/-- The engine before any script, with `log` as its one function. -/
def initial : Engine := ⟨Heap.empty, Table.empty, Table.empty.set "log" .log, [], []⟩

/-- Give a global name a value. -/
def defineGlobal (e : Engine) (name : String) (value : Value) : Engine :=
  { e with globals := e.globals.set name value }

/-- Give a function of the host a name. -/
def register (e : Engine) (name : String) (native : Native) : Engine :=
  { e with natives := e.natives.set name native }

/-- Make calls to a name fail with a type error. -/
def bindUnsupported (e : Engine) (name message : String) : Engine :=
  e.register name (.host fun _ => .error (.host .typeError message))

/-- Forget the lines written so far. -/
def dropOutput (e : Engine) : Engine := { e with output := [] }

/-- Make an object without properties. -/
def alloc (e : Engine) : ObjectId × Engine := (e.heap.next, { e with heap := e.heap.alloc })

/-- Do one thing that a function of the host does. -/
def act (e : Engine) : Effect → Engine
  | .print line => { e with output := e.output ++ [line] }
  | .alloc => e.alloc.2
  | .write target key value => { e with heap := e.heap.write target key value }
  | .define name value => e.defineGlobal name value
  | .remember values => { e with memory := values }

/-- Do some things in turn. -/
def actAll (e : Engine) (effects : List Effect) : Engine := effects.foldl act e

end Engine

/-- An engine while it runs a script, with the script's own names. -/
structure Run where
  engine : Engine
  locals : Table Value

namespace Run

/-- The value of a name: local first, then global. -/
def lookup (r : Run) (name : String) : Option Value :=
  match r.locals.get? name with
  | some v => some v
  | none => r.engine.globals.get? name

/-- Read properties in turn; a missing property is undefined. -/
def walk (h : Heap) : Value → List String → Except Fault Value
  | v, [] => .ok v
  | .object o, key :: keys => walk h ((h.read o key).getD .undefined) keys
  | v, key :: _ => .error (.unreadable v key)

/-- The value at a path: its head is looked up, and the rest is walked along. -/
def readPath (r : Run) (p : Path) : Except Fault Value :=
  match r.lookup p.head with
  | none => .error (.notDefined p.head)
  | some v => walk r.engine.heap v p.properties

/-- The value of an expression; an empty object is made anew each time. -/
def evaluate (r : Run) : Expression → Except Fault Value × Run
  | .number n => (.ok (.number n), r)
  | .string s => (.ok (.string s), r)
  | .boolean b => (.ok (.boolean b), r)
  | .null => (.ok .null, r)
  | .undefined => (.ok .undefined, r)
  | .emptyObject =>
    (.ok (.object r.engine.heap.next), { r with engine := r.engine.alloc.2 })
  | .path p => (r.readPath p, r)

/-- The values of some expressions, from left to right up to the first that fails. -/
def evaluateAll (r : Run) : List Expression → Except Fault (List Value) × Run
  | [] => (.ok [], r)
  | e :: es =>
    match r.evaluate e with
    | (.error f, r') => (.error f, r')
    | (.ok v, r') =>
      match r'.evaluateAll es with
      | (.error f, r'') => (.error f, r'')
      | (.ok vs, r'') => (.ok (v :: vs), r'')

/-- Assign to a bare name: to the local of that name if there is one, else to the global. -/
def assignName (r : Run) (name : String) (value : Value) : Run :=
  if r.locals.contains name then { r with locals := r.locals.set name value }
  else { r with engine := r.engine.defineGlobal name value }

/-- Assign to a path: to the last property, after reading all before it. -/
def assign (r : Run) (target : Path) (value : Value) : Except Fault Unit × Run :=
  match target.properties.getLast? with
  | none => (.ok (), r.assignName target.head value)
  | some last =>
    match r.readPath ⟨target.head, target.properties.dropLast⟩ with
    | .error f => (.error f, r)
    | .ok (.object o) =>
      (.ok (), { r with engine := { r.engine with heap := r.engine.heap.write o last value } })
    | .ok v => (.error (.unwritable v last), r)

/-- Make the missing objects along some property names. -/
def declareFrom (path : String) : Heap → ObjectId → List String → Except Fault Unit × Heap
  | h, _, [] => (.ok (), h)
  | h, o, key :: keys =>
    match h.child o key with
    | (some c, h') => declareFrom path h' c keys
    | (none, h') => (.error (.rootBlocked path key), h')

/-- Declare a dotted path: its first segment must be bound to an object, under which the objects
of the other segments are made as needed. -/
def declareRoot (r : Run) (path : String) : Except Fault Unit × Run :=
  let segments := Text.splitOnChar '.' path
  let root := segments.headD ""
  match r.lookup root with
  | none => (.error (.notDefined root), r)
  | some (.object o) =>
    let (result, heap) := declareFrom path r.engine.heap o segments.tail
    (result, { r with engine := { r.engine with heap } })
  | some v => (.error (.rootNotObject root v), r)

/-- Let a host function act on the engine and answer. -/
def apply (r : Run) (native : Native) (args : List Value) : Except Fault Value × Run :=
  let (effects, answer) := native.call r.engine.heap r.engine.memory args
  (answer, { r with engine := r.engine.actAll effects })

/-- Call a host function by name; the name is looked up before the arguments are evaluated. -/
def call (r : Run) (callee : String) (args : List Expression) : Except Fault Value × Run :=
  match r.engine.natives.get? callee with
  | none =>
    if (r.lookup callee).isSome then (.error (.notFunction callee), r)
    else (.error (.notDefined callee), r)
  | some native =>
    match r.evaluateAll args with
    | (.error f, r') => (.error f, r')
    | (.ok values, r') => r'.apply native values

/-- Carry out what a statement says; its value is the value of the expression it ends with. -/
def perform (r : Run) : Action → Except Fault Value × Run
  | .var name init =>
    match r.evaluate init with
    | (.error f, r') => (.error f, r')
    | (.ok v, r') => (.ok .undefined, { r' with locals := r'.locals.set name v })
  | .declareRoot path =>
    match r.declareRoot path with
    | (.error f, r') => (.error f, r')
    | (.ok (), r') => (.ok .undefined, r')
  | .assign target value =>
    match r.evaluate value with
    | (.error f, r') => (.error f, r')
    | (.ok v, r') =>
      match r'.assign target v with
      | (.error f, r'') => (.error f, r'')
      | (.ok (), r'') => (.ok v, r'')
  | .throw value =>
    match r.evaluate value with
    | (.error f, r') => (.error f, r')
    | (.ok v, r') => (.error (.uncaught v), r')
  | .call callee args => r.call callee args
  | .expression value => r.evaluate value

/-- Run statements in turn; `last` is the value of the statement before them. -/
def statements (r : Run) (last : Value) : Program → Except ScriptError Value × Run
  | [] => (.ok last, r)
  | s :: rest =>
    match r.perform s.action with
    | (.error f, r') => (.error (f.at s.span.place), r')
    | (.ok v, r') => r'.statements v rest

end Run

namespace Engine

/-- Run a program against given local names; its value is that of its last statement. -/
def runProgram (e : Engine) (program : Program) (bindings : Table Value) :
    Except ScriptError Value × Engine :=
  let (result, run) := Run.statements ⟨e, bindings⟩ .undefined program
  (result, run.engine)

/-- Read and run a source against given local names. -/
def evaluate (e : Engine) (source : String) (bindings : Table Value) :
    Except ScriptError Value × Engine :=
  match parseProgram source with
  | .error err => (.error err.toScriptError, e)
  | .ok program => e.runProgram program bindings

end Engine

end ModuleLoader.Script
