import ModuleLoader.Number.Whole
import ModuleLoader.Table

/-!
# Values and objects

A script value is a plain datum or a reference to an object; objects are shared by reference and
live in a heap, each a table of properties.  The lemmas say what reading sees after an
allocation or a write.
-/

set_option autoImplicit false

namespace ModuleLoader.Script

/-- The identity of an object, its position in the heap. -/
structure ObjectId where
  index : Nat
deriving DecidableEq, Repr

/-- Values of a script. -/
inductive Value where
  | undefined
  | null
  | boolean (value : Bool)
  | number (value : Binary64)
  | string (value : String)
  | object (id : ObjectId)
deriving DecidableEq, Repr

namespace Value

/-- Whether two values are equal: numbers by value, so that a non-number differs from itself,
and objects by identity. -/
def equals : Value → Value → Bool
  | .undefined, .undefined => true
  | .null, .null => true
  | .boolean a, .boolean b => a == b
  | .number a, .number b => a.equals b
  | .string a, .string b => a == b
  | .object a, .object b => a == b
  | _, _ => false

/-- The object that a value is. -/
def object? : Value → Option ObjectId
  | .object id => some id
  | _ => none

/-- Whether a value is undefined. -/
def isUndefined : Value → Bool
  | .undefined => true
  | _ => false

/-- The name of a value's type; null counts as an object. -/
def typeName : Value → String
  | .undefined => "undefined"
  | .null => "object"
  | .boolean _ => "boolean"
  | .number _ => "number"
  | .string _ => "string"
  | .object _ => "object"

/-- The text of a number: a whole number below `10 ^ 21` as a signed word, anything else as its
shortest decimal. -/
def numberText (x : Binary64) : String :=
  match x.whole? with
  | some n => if n.natAbs < Nat.pow 10 21 then intText (clampWord n) else x.text
  | none => x.text

/-- The text of a value. -/
def text : Value → String
  | .undefined => "undefined"
  | .null => "null"
  | .boolean true => "true"
  | .boolean false => "false"
  | .number x => numberText x
  | .string s => s
  | .object _ => "[object Object]"

end Value

/-- The properties of an object, by name. -/
abbrev Properties := Table Value

/-- All objects made so far. -/
structure Heap where
  objects : Array Properties
deriving Repr, Inhabited

namespace Heap

/-- The heap without objects. -/
def empty : Heap := ⟨#[]⟩

/-- The properties of an object; one that is not there has none. -/
def properties (h : Heap) (o : ObjectId) : Properties := (h.objects[o.index]?).getD Table.empty

/-- The object that is made next. -/
def next (h : Heap) : ObjectId := ⟨h.objects.size⟩

/-- Make a fresh empty object, which gets the identity `next`. -/
def alloc (h : Heap) : Heap := ⟨h.objects.push Table.empty⟩

/-- The property of an object, if it has it. -/
def read (h : Heap) (o : ObjectId) (key : String) : Option Value := (h.properties o).get? key

/-- Give an object a property; one that is not there is left alone. -/
def write (h : Heap) (o : ObjectId) (key : String) (value : Value) : Heap :=
  ⟨h.objects.modify o.index fun p => p.set key value⟩

/-- The object in a property, made first when the property is missing; nothing when the property
holds a plain value. -/
def child (h : Heap) (o : ObjectId) (key : String) : Option ObjectId × Heap :=
  match h.read o key with
  | some (.object c) => (some c, h)
  | some _ => (none, h)
  | none => (some h.next, h.alloc.write o key (.object h.next))

/-- The object is there. -/
def Has (h : Heap) (o : ObjectId) : Prop := o.index < h.objects.size

/-- Making an object leaves all properties as they are. -/
@[simp] theorem properties_alloc (h : Heap) (o : ObjectId) :
    h.alloc.properties o = h.properties o := by
  unfold properties alloc
  rw [Array.getElem?_push]
  split
  · rename_i hi
    rw [hi, Array.getElem?_eq_none (Nat.le_refl _)]
    rfl
  · rfl

/-- Making an object leaves all reads as they are. -/
@[simp] theorem read_alloc (h : Heap) (o : ObjectId) (key : String) :
    h.alloc.read o key = h.read o key := by
  simp [read]

/-- Writing to an object leaves the properties of the others. -/
theorem properties_write_of_ne (h : Heap) {o other : ObjectId} (key : String) (value : Value)
    (hne : other ≠ o) : (h.write o key value).properties other = h.properties other := by
  have hi : o.index ≠ other.index := fun e => hne (by cases o; cases other; simp_all)
  simp [properties, write, Array.getElem?_modify, hi]

/-- A write to an object of the heap sets one of its properties. -/
theorem properties_write_self (h : Heap) {o : ObjectId} (key : String) (value : Value)
    (ho : h.Has o) : (h.write o key value).properties o = (h.properties o).set key value := by
  have hlt : o.index < h.objects.size := ho
  simp [properties, write, hlt, Array.getElem_modify]

/-- Behind a write its property has the new value, and all others have theirs. -/
theorem read_write (h : Heap) {o : ObjectId} (key : String) (value : Value) (ho : h.Has o)
    (other : ObjectId) (k : String) :
    (h.write o key value).read other k =
      if other = o ∧ k = key then some value else h.read other k := by
  by_cases hne : other = o
  · subst hne
    simp only [read, properties_write_self h key value ho, Table.get?_set, true_and]
  · simp [read, properties_write_of_ne h key value hne, hne]

/-- A write makes no object and takes none away. -/
@[simp] theorem has_write (h : Heap) (o other : ObjectId) (key : String) (value : Value) :
    (h.write o key value).Has other ↔ h.Has other := by
  simp [Has, write]

/-- Making an object adds the identity `next` and no other. -/
theorem has_alloc (h : Heap) (o : ObjectId) : h.alloc.Has o ↔ h.Has o ∨ o = h.next := by
  cases o
  simp only [Has, alloc, next, Array.size_push, ObjectId.mk.injEq]
  omega

end Heap

end ModuleLoader.Script
