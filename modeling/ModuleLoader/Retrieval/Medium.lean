import ModuleLoader.Failure
import ModuleLoader.Table

/-!
# Where code is retrieved from

A medium answers for a location with code or a failure: a bundle held in memory, files, or a
remote place.  A bundle keeps a log of what it was asked for.  A remote place answers with a status and
a text, unless the connection fails.  A transport is a medium together with the way it is used.
-/

set_option autoImplicit false

namespace ModuleLoader

/-- Code held in memory. -/
structure Bundle where
  modules : Table String
  /-- How long a retrieval takes that does not block, in milliseconds. -/
  latency : Table Nat
  /-- Locations whose retrieval fails. -/
  failures : Table RetrievalFailure
  /-- All locations looked up so far, oldest first. -/
  requests : List String

namespace Bundle

/-- A bundle without modules. -/
def empty : Bundle := ⟨.empty, .empty, .empty, []⟩

/-- Put texts, latencies and failures into a bundle, each under its location. -/
def add (b : Bundle) (modules : List (String × String)) (latency : List (String × Nat))
    (failures : List (String × RetrievalFailure)) : Bundle :=
  { b with
    modules := b.modules.setAll modules
    latency := b.latency.setAll latency
    failures := b.failures.setAll failures }

/-- What a location holds; a failure hides code. -/
def content (b : Bundle) (location : String) : Except RetrievalFailure String :=
  match b.failures.get? location with
  | some failure => .error failure
  | none =>
    match b.modules.get? location with
    | some code => .ok code
    | none => .error (.notFound location)

/-- Look up a location, which counts as a request. -/
def lookUp (b : Bundle) (location : String) : Except RetrievalFailure String × Bundle :=
  (b.content location, { b with requests := b.requests ++ [location] })

/-- How often a location was asked for. -/
def requestCount (b : Bundle) (location : String) : Nat := b.requests.count location

/-- How long a retrieval takes that does not block. -/
def delay (b : Bundle) (location : String) : Nat := (b.latency.get? location).getD 0

end Bundle

/-- Why no answer, or no whole answer, comes from a remote place. -/
inductive ConnectionFault where
  | timedOut
  | other (text : String)
deriving DecidableEq, Repr

/-- A connection that fails as the failure of a retrieval. -/
def ConnectionFault.failureAt (location : String) : ConnectionFault → RetrievalFailure
  | .timedOut => .timeout location
  | .other text => .network text

/-- What a remote place answers to a request; the text comes after the status, and may fail to. -/
structure Response where
  status : Nat
  text : Except ConnectionFault String

/-- The code in an answer: the text of one with a status of success. -/
def Response.code (r : Response) (location : String) : Except RetrievalFailure String :=
  if r.status = 404 then .error (.notFound location)
  else if r.status < 200 ∨ 300 ≤ r.status then .error (.status r.status location)
  else r.text.mapError (ConnectionFault.failureAt location)

/-- The remote places, by what a request for a location comes to. -/
structure Remote where
  request : String → Except ConnectionFault Response

namespace Remote

/-- What a location holds. -/
def content (place : Remote) (location : String) : Except RetrievalFailure String :=
  match place.request location with
  | .error fault => .error (fault.failureAt location)
  | .ok response => response.code location

/-- Nothing remote can be reached. -/
def offline : Remote := ⟨fun location => .error (.other ("no connection for " ++ location))⟩

end Remote

/-- A place to retrieve code from. -/
inductive Medium where
  | bundle (content : Bundle)
  | files (system : FileSystem)
  | remote (place : Remote := .offline)

namespace Medium

/-- What a location holds, and the medium after it was asked for. -/
def lookUp (m : Medium) (location : String) : Except RetrievalFailure String × Medium :=
  match m with
  | bundle b =>
    let (result, b') := b.lookUp location
    (result, bundle b')
  | files system => ((system.read location).mapError (.ofFileErrorAt location), m)
  | remote place => (place.content location, m)

/-- How long a retrieval has to wait before it looks the location up, if it has to. -/
def latency? (m : Medium) (location : String) : Option Nat :=
  match m with
  | bundle b => b.latency.get? location
  | _ => none

end Medium

/-- A medium and the way it is used. -/
inductive Transport where
  /-- Many retrievals at once; they finish in any order. -/
  | concurrent (medium : Medium)
  /-- One retrieval at a time, which the caller waits for. -/
  | serial (medium : Medium)
  /-- No retrieval. -/
  | none

namespace Transport

/-- The name of a transport, as it is shown. -/
def name : Transport → String
  | concurrent (.bundle _) | serial (.bundle _) => "memory"
  | concurrent (.files _) => "fs"
  | serial (.files _) => "sync-fs"
  | concurrent (.remote _) | serial (.remote _) => "http"
  | none => "none"

/-- A transport with its kind and its name. -/
def text : Transport → String
  | t@(concurrent _) => "Concurrent(" ++ t.name ++ ")"
  | t@(serial _) => "Serial(" ++ t.name ++ ")"
  | none => "None"

/-- Whether retrievals run beside the caller. -/
def isConcurrent : Transport → Bool
  | concurrent _ => true
  | _ => false

/-- The bundle that a transport takes its texts from, if it is one. -/
def bundle? : Transport → Option Bundle
  | concurrent (.bundle b) | serial (.bundle b) => some b
  | _ => Option.none

/-- The transport with a change to the bundle behind it. -/
def mapBundle (f : Bundle → Bundle) : Transport → Transport
  | concurrent (.bundle b) => concurrent (.bundle (f b))
  | serial (.bundle b) => serial (.bundle (f b))
  | t => t

end Transport

end ModuleLoader
