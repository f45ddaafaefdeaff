import ModuleLoader.Script.Value

/-!
# Object graphs

The objects that can be reached from given ones, numbered in the order in which a breadth first
walk meets them, properties in the order of their names.  Two object graphs are the same up to
the identity of objects when their listings are.
-/

set_option autoImplicit false

namespace ModuleLoader.Script

namespace Heap

/-- The objects an object's properties refer to, in the order of the property names. -/
def targets (h : Heap) (o : ObjectId) : List ObjectId :=
  (h.properties o).entries.filterMap fun e => e.2.object?

/-- Add the objects of a list that are not there yet, each once. -/
def enlist (found : List ObjectId) (more : List ObjectId) : List ObjectId :=
  more.foldl (fun l o => if l.contains o then l else l ++ [o]) found

/-- Walk on from the object at a position of the list of objects met. -/
def walkFrom (h : Heap) : Nat → Nat → List ObjectId → List ObjectId
  | 0, _, found => found
  | fuel + 1, position, found =>
    match found[position]? with
    | none => found
    | some o => h.walkFrom fuel (position + 1) (enlist found (h.targets o))

/-- All objects reachable from some objects, in the order they are met.  Every step passes one
object of the list, and the list holds the given objects and objects of the heap only. -/
def reachable (h : Heap) (roots : List ObjectId) : List ObjectId :=
  h.walkFrom (h.objects.size + roots.length) 0 (enlist [] roots)

end Heap

end ModuleLoader.Script
