import Mathlib.Data.Set.Insert
import Mathlib.Logic.Relator
import ModuleLoader.Proofs.Script.References

/-!
# Declared roots form a tree

A root declaration walks along its path and hangs an empty object under the last one from the first
missing property on.  When every path begins at an empty object of its own, the objects stand at the
prefixes of the declared paths and nowhere else, so that neither the order of the declarations nor their
repetition shows.  The tree is kept object by object: `Tree.child`.  Main statement:
`declare_roots`, what declarations come to on fresh roots and what one comes to on any heap.
-/

set_option autoImplicit false

namespace ModuleLoader.Script

/-! ## Walking along properties -/

/-- A value that is an object is that object. -/
theorem Value.eq_object_of_object? {v : Value} {o : ObjectId} (h : v.object? = some o) :
    v = .object o := by
  cases v <;> cases h
  rfl

namespace Heap

/-- The object that some property names lead to in turn. -/
def follow? (h : Heap) (o : ObjectId) (keys : List String) : Option ObjectId :=
  keys.foldlM (fun o key => (h.read o key).bind Value.object?) o

/-- The object at a dotted name: the first part names a root, the others are properties. -/
def find? (h : Heap) (root : String → Option ObjectId) : List String → Option ObjectId
  | [] => none
  | name :: keys => (root name).bind fun o => h.follow? o keys

/-- Names are followed one after the other. -/
theorem follow?_cons (h : Heap) (o : ObjectId) (key : String) (keys : List String) :
    h.follow? o (key :: keys) = ((h.read o key).bind Value.object?).bind (h.follow? · keys) := rfl

/-- Following names and then more is following all of them. -/
theorem follow?_append (h : Heap) (o : ObjectId) (keys keys' : List String) :
    h.follow? o (keys ++ keys') = (h.follow? o keys).bind (h.follow? · keys') :=
  List.foldlM_append

/-- The object at a longer name is the one in a property of the object at the shorter name. -/
theorem find?_concat (h : Heap) {root : String → Option ObjectId} {p : List String} {o : ObjectId}
    (hfind : h.find? root p = some o) (key : String) :
    h.find? root (p ++ [key]) = (h.read o key).bind Value.object? := by
  cases p with
  | nil => cases hfind
  | cons name keys =>
    obtain ⟨first, hroot, hkeys⟩ := Option.bind_eq_some_iff.1 hfind
    rw [List.cons_append, find?, hroot, Option.bind_some, follow?_append, hkeys]
    exact Option.bind_fun_some _

/-- Properties that stay lead where they led. -/
theorem follow?_mono {h h' : Heap} (hmono : ∀ o key v, h.read o key = some v → h'.read o key = some v)
    {o c : ObjectId} {keys : List String} (hfollow : h.follow? o keys = some c) :
    h'.follow? o keys = some c := by
  induction keys generalizing o with
  | nil => exact hfollow
  | cons key keys ih =>
    rw [follow?_cons] at hfollow ⊢
    obtain ⟨next, hnext, hrest⟩ := Option.bind_eq_some_iff.1 hfollow
    obtain ⟨v, hread, hobject⟩ := Option.bind_eq_some_iff.1 hnext
    rw [hmono o key v hread, Option.bind_some, hobject]
    exact ih hrest

/-- Objects that are found are found where all reads are kept. -/
theorem find?_mono {h h' : Heap} (hmono : ∀ o key v, h.read o key = some v → h'.read o key = some v)
    {root : String → Option ObjectId} {p : List String} {c : ObjectId}
    (hfind : h.find? root p = some c) : h'.find? root p = some c := by
  cases p with
  | nil => cases hfind
  | cons name keys =>
    obtain ⟨o, hroot, hfollow⟩ := Option.bind_eq_some_iff.1 hfind
    rw [find?, hroot]
    exact follow?_mono hmono hfollow

/-! ## Hanging empty objects -/

/-- Put an empty object under a property. -/
def link (h : Heap) (o : ObjectId) (key : String) : Heap :=
  h.alloc.write o key (.object h.next)

/-- Put empty objects one under the other along some property names. -/
def hang (h : Heap) (o : ObjectId) : List String → Heap
  | [] => h
  | key :: keys => (h.link o key).hang h.next keys

/-- A missing property gets a new object. -/
theorem child_of_read_none {h : Heap} {o : ObjectId} {key : String} (hread : h.read o key = none) :
    h.child o key = (some h.next, h.link o key) := by
  rw [child, hread]
  rfl

/-- A property that holds an object gives this object. -/
theorem child_of_read_object {h : Heap} {o c : ObjectId} {key : String}
    (hread : h.read o key = some (.object c)) : h.child o key = (some c, h) := by
  rw [child, hread]

/-- Putting an object under a property makes that one object. -/
theorem has_link (h : Heap) (o other : ObjectId) (key : String) :
    (h.link o key).Has other ↔ h.Has other ∨ other = h.next := by
  rw [link, has_write, has_alloc]

/-- Under a property that was linked stands the new object, and all other properties stay. -/
theorem read_link {h : Heap} {o : ObjectId} (ho : h.Has o) (key : String) (other : ObjectId)
    (k : String) : (h.link o key).read other k =
      if other = o ∧ k = key then some (.object h.next) else h.read other k := by
  rw [link, read_write _ _ _ ((h.has_alloc o).2 (.inl ho)), read_alloc]

/-- The object that is put under a property is empty. -/
theorem read_link_next {h : Heap} {o : ObjectId} (ho : h.Has o) (key k : String) :
    (h.link o key).read h.next k = none := by
  rw [read_link ho, if_neg, read_of_not_has h.not_has_next]
  rintro ⟨hnext, -⟩
  exact h.not_has_next (hnext ▸ ho)

/-- Linking a missing property keeps all reads. -/
theorem read_link_mono {h : Heap} {o : ObjectId} (ho : h.Has o) {key : String}
    (hread : h.read o key = none) (other : ObjectId) (k : String) (v : Value)
    (hv : h.read other k = some v) : (h.link o key).read other k = some v := by
  rw [read_link ho, if_neg]
  · exact hv
  · rintro ⟨rfl, rfl⟩
    cases hread.symm.trans hv

/-- Hanging objects under a property that is missing adds as many as there are names, and changes that
property alone of the objects there were. -/
theorem hang_spec {h : Heap} {o : ObjectId} (ho : h.Has o) {keys : List String}
    (hmissing : ∀ key ∈ keys.head?, h.read o key = none) :
    (h.hang o keys).objects.size = h.objects.size + keys.length ∧
      (∀ other k v, h.read other k = some v → (h.hang o keys).read other k = some v) ∧
      ∀ other k, h.Has other → ¬ (other = o ∧ keys.head? = some k) →
        (h.hang o keys).read other k = h.read other k := by
  induction keys generalizing h o with
  | nil => exact ⟨rfl, fun _ _ _ hv => hv, fun _ _ _ _ => rfl⟩
  | cons key keys ih =>
    have hread : h.read o key = none := hmissing key rfl
    have hnext : (h.link o key).Has h.next := (h.has_link o _ key).2 (.inr rfl)
    obtain ⟨hsize, hmono, hsame⟩ := ih hnext fun k _ => read_link_next ho key k
    refine ⟨?_, fun other k v hv => hmono other k v (read_link_mono ho hread other k v hv), ?_⟩
    · have hlink : (h.link o key).objects.size = h.objects.size + 1 := by
        simp [link, write, alloc]
      rw [hang, hsize, hlink, List.length_cons]
      omega
    · intro other k hother hnot
      have hne : ¬ (other = h.next ∧ keys.head? = some k) := by
        rintro ⟨rfl, -⟩
        exact h.not_has_next hother
      rw [hang, hsame other k ((h.has_link o other key).2 (.inl hother)) hne, read_link ho, if_neg]
      rintro ⟨rfl, rfl⟩
      exact hnot ⟨rfl, rfl⟩

end Heap

/-! ## One declaration on any heap -/

namespace Run

/-- The segments of a dotted path. -/
def segments (path : String) : List String := Text.splitOnChar '.' path

/-- The root of a dotted path, its first segment. -/
def rootName (path : String) : String := (segments path).headD ""

/-- Declaring names the first of which is missing hangs new objects under it, one under the
other. -/
theorem declareFrom_hang (path : String) {h : Heap} {o : ObjectId} (ho : h.Has o)
    {keys : List String} (hmissing : ∀ key ∈ keys.head?, h.read o key = none) :
    declareFrom path h o keys = (.ok (), h.hang o keys) := by
  induction keys generalizing h o with
  | nil => rfl
  | cons key keys ih =>
    unfold declareFrom
    rw [Heap.child_of_read_none (hmissing key rfl)]
    exact ih ((h.has_link o _ key).2 (.inr rfl)) fun k _ => Heap.read_link_next ho key k

/-- Where all objects are there, a declaration makes none. -/
theorem declareFrom_of_follow? (path : String) {h : Heap} {o c : ObjectId} {keys : List String}
    (hfollow : h.follow? o keys = some c) : declareFrom path h o keys = (.ok (), h) := by
  induction keys generalizing o with
  | nil => rfl
  | cons key keys ih =>
    obtain ⟨next, hnext, hrest⟩ := Option.bind_eq_some_iff.1 hfollow
    obtain ⟨v, hread, hobject⟩ := Option.bind_eq_some_iff.1 hnext
    rw [Value.eq_object_of_object? hobject] at hread
    unfold declareFrom
    rw [Heap.child_of_read_object hread]
    exact ih hrest

/-- A declaration that succeeds finds objects along a first part of its path, and hangs empty objects
under the last of them along the rest. -/
theorem declareFrom_splits {path : String} {h h' : Heap} (hc : h.Closed) {o : ObjectId} (ho : h.Has o)
    {keys : List String} (hd : declareFrom path h o keys = (.ok (), h')) :
    ∃ found missing last, keys = found ++ missing ∧ h.follow? o found = some last ∧ h.Has last ∧
      (∀ key ∈ missing.head?, h.read last key = none) ∧ h' = h.hang last missing := by
  induction keys generalizing o with
  | nil =>
    cases hd
    exact ⟨[], [], o, rfl, rfl, ho, nofun, rfl⟩
  | cons key keys ih =>
    rcases hread : h.read o key with _ | v
    · have hmissing : ∀ k ∈ (key :: keys).head?, h.read o k = none := by
        rintro _ ⟨⟩
        exact hread
      rw [declareFrom_hang path ho hmissing] at hd
      cases hd
      exact ⟨[], key :: keys, o, rfl, rfl, ho, hmissing, rfl⟩
    · unfold declareFrom at hd
      cases v with
      | object c =>
        rw [Heap.child_of_read_object hread] at hd
        obtain ⟨found, missing, last, rfl, hfollow, hlast, hmissing, rfl⟩ :=
          ih (hc o key _ hread c rfl) hd
        refine ⟨key :: found, missing, last, rfl, ?_, hlast, hmissing, rfl⟩
        rw [Heap.follow?_cons, hread]
        exact hfollow
      | undefined | null | boolean | number | string =>
        rw [Heap.child, hread] at hd
        cases hd

/-- Names that were hung can be followed. -/
theorem follow?_hang {h : Heap} {o : ObjectId} (ho : h.Has o) {keys : List String}
    (hmissing : ∀ key ∈ keys.head?, h.read o key = none) : (h.hang o keys).follow? o keys ≠ none := by
  induction keys generalizing h o with
  | nil => exact Option.some_ne_none _
  | cons key keys ih =>
    have hnext : (h.link o key).Has h.next := (h.has_link o _ key).2 (.inr rfl)
    have hempty : ∀ k ∈ keys.head?, (h.link o key).read h.next k = none :=
      fun k _ => Heap.read_link_next ho key k
    have hread : (h.hang o (key :: keys)).read o key = some (.object h.next) := by
      refine (Heap.hang_spec hnext hempty).2.1 o key _ ?_
      rw [Heap.read_link ho, if_pos ⟨rfl, rfl⟩]
    rw [Heap.follow?_cons, hread]
    exact ih hnext hempty

/-- Declaring a path is declaring its names from the object of its root on. -/
theorem declareRoot_of_declareFrom {r : Run} {path : String} {o : ObjectId} {h' : Heap}
    {result : Except Fault Unit} (hlookup : r.lookup (rootName path) = some (.object o))
    (hfrom : declareFrom path r.engine.heap o (segments path).tail = (result, h')) :
    r.declareRoot path = (result, r.onHeap h') := by
  unfold declareRoot
  unfold rootName segments at hlookup
  unfold segments at hfrom
  simp only
  rw [hlookup]
  simp only
  rw [hfrom]
  rfl

/-- A path is declared only where its root is an object. -/
theorem exists_of_declareRoot_ok {r r' : Run} {path : String}
    (hd : r.declareRoot path = (.ok (), r')) : ∃ o, r.lookup (rootName path) = some (.object o) := by
  unfold declareRoot at hd
  simp only at hd
  split at hd
  · cases hd
  · rename_i o hlookup
    exact ⟨o, hlookup⟩
  · cases hd

/-- What a declaration that succeeds does to an engine, and that it does nothing the second time. -/
theorem declareRoot_hangs {r r' : Run} (hc : r.Closed) {path : String}
    (hd : r.declareRoot path = (.ok (), r')) :
    r'.declareRoot path = (.ok (), r') ∧
      ∃ o found missing last, r.lookup (rootName path) = some (.object o) ∧
        (segments path).tail = found ++ missing ∧ r.engine.heap.follow? o found = some last ∧
        r.engine.heap.Has last ∧ (∀ key ∈ missing.head?, r.engine.heap.read last key = none) ∧
        r' = r.onHeap (r.engine.heap.hang last missing) := by
  obtain ⟨o, hlookup⟩ := exists_of_declareRoot_ok hd
  have hroot : r.engine.heap.Has o := hc.lookup hlookup o rfl
  rcases hfrom : declareFrom path r.engine.heap o (segments path).tail with ⟨result, h'⟩
  rw [declareRoot_of_declareFrom hlookup hfrom] at hd
  cases hd
  obtain ⟨found, missing, last, hsplit, hfollow, hlast, hmissing, rfl⟩ :=
    declareFrom_splits hc.engine.objects hroot hfrom
  refine ⟨?_, o, found, missing, last, hlookup, hsplit, hfollow, hlast, hmissing, rfl⟩
  -- The first part of the path is found as before, and the rest where it has been hung.
  have hmono := (Heap.hang_spec hlast hmissing).2.1
  obtain ⟨c, hrest⟩ := Option.ne_none_iff_exists'.1 (follow?_hang hlast hmissing)
  have hwhole : (r.engine.heap.hang last missing).follow? o (segments path).tail = some c := by
    rw [hsplit, Heap.follow?_append, Heap.follow?_mono hmono hfollow]
    exact hrest
  exact declareRoot_of_declareFrom (r := r.onHeap _) hlookup (declareFrom_of_follow? path hwhole)

end Run

/-! ## A tree of objects -/

/-- Two values are alike when objects in them are paired. -/
inductive Value.Alike (pair : ObjectId → ObjectId → Prop) : Value → Value → Prop where
  | object {o o' : ObjectId} (h : pair o o') : Alike pair (.object o) (.object o')
  | plain {v : Value} (h : v.object? = none) : Alike pair v v

namespace Heap

/-- A heap comes about from another by growing a tree at some dotted names, its nodes: there is an
object at each of them, two have two, and the properties of these objects lead from node to node.  The
objects at nodes of more than one part are new.  There are no other new objects, and the others are what
they were. -/
structure Tree (base : Heap) (root : String → Option ObjectId) (nodes : Set (List String))
    (h : Heap) : Prop where
  present : ∀ p ∈ nodes, ∃ o, h.find? root p = some o ∧ h.Has o
  distinct : ∀ p ∈ nodes, ∀ q ∈ nodes, h.find? root p = h.find? root q → p = q
  only : ∀ p ∈ nodes, ∀ o, h.find? root p = some o → ∀ key v, h.read o key = some v →
    p ++ [key] ∈ nodes ∧ ∃ c, v = .object c
  fresh : ∀ p ∈ nodes, ∀ o, h.find? root p = some o → base.Has o → ∃ name, p = [name]
  has : ∀ o, h.Has o ↔ base.Has o ∨ ∃ p ∈ nodes, h.find? root p = some o
  same : ∀ o, base.Has o → (∀ p ∈ nodes, h.find? root p ≠ some o) →
    h.properties o = base.properties o

variable {base h h' : Heap} {root : String → Option ObjectId} {nodes : Set (List String)}

/-- The properties of an object of the tree are those that lead to a node. -/
theorem Tree.read_eq (ht : Tree base root nodes h) {p : List String} (hp : p ∈ nodes) {o : ObjectId}
    (hfind : h.find? root p = some o) (key : String) :
    (p ++ [key] ∉ nodes ∧ h.read o key = none) ∨
      p ++ [key] ∈ nodes ∧ ∃ c, h.read o key = some (.object c) ∧
        h.find? root (p ++ [key]) = some c := by
  have hconcat := h.find?_concat hfind key
  cases hread : h.read o key with
  | none =>
    rw [hread] at hconcat
    refine .inl ⟨fun hmem => ?_, rfl⟩
    obtain ⟨c, hc, -⟩ := ht.present _ hmem
    cases hconcat.symm.trans hc
  | some v =>
    obtain ⟨hmem, c, rfl⟩ := ht.only p hp o hfind key v hread
    rw [hread] at hconcat
    exact .inr ⟨hmem, c, rfl, hconcat⟩

/-- An object hung under a missing property is found there, and the nodes are found where they were. -/
theorem Tree.find?_link (ht : Tree base root nodes h) {p : List String} (hp : p ∈ nodes)
    {o : ObjectId} (hfind : h.find? root p = some o) {key : String} (hread : h.read o key = none) :
    (h.link o key).find? root (p ++ [key]) = some h.next ∧
      ∀ q ∈ nodes, (h.link o key).find? root q = h.find? root q := by
  have ho : h.Has o := (ht.has o).2 (.inr ⟨p, hp, hfind⟩)
  have hold : ∀ q ∈ nodes, (h.link o key).find? root q = h.find? root q := by
    intro q hq
    obtain ⟨c, hc, -⟩ := ht.present q hq
    rw [hc]
    exact find?_mono (read_link_mono ho hread) hc
  refine ⟨?_, hold⟩
  rw [find?_concat _ ((hold p hp).trans hfind), read_link ho, if_pos ⟨rfl, rfl⟩]
  rfl

/-- An object hung under a missing property of an object of the tree is one more node. -/
theorem Tree.link (ht : Tree base root nodes h) {p : List String} (hp : p ∈ nodes) {o : ObjectId}
    (hfind : h.find? root p = some o) {key : String} (hread : h.read o key = none) :
    Tree base root (insert (p ++ [key]) nodes) (h.link o key) := by
  have ho : h.Has o := (ht.has o).2 (.inr ⟨p, hp, hfind⟩)
  have hnext : ¬ base.Has h.next := fun hb => h.not_has_next ((ht.has _).2 (.inl hb))
  obtain ⟨hnew, hold⟩ := ht.find?_link hp hfind hread
  have hne : ∀ q ∈ nodes, (h.link o key).find? root q ≠ some h.next := by
    intro q hq hc
    rw [hold q hq] at hc
    exact h.not_has_next ((ht.has _).2 (.inr ⟨q, hq, hc⟩))
  refine ⟨?present, ?distinct, ?only, ?fresh, ?has, ?same⟩
  case present =>
    rintro q (rfl | hq)
    · exact ⟨h.next, hnew, (h.has_link o _ key).2 (.inr rfl)⟩
    · obtain ⟨c, hc, hhas⟩ := ht.present q hq
      exact ⟨c, (hold q hq).trans hc, (h.has_link o c key).2 (.inl hhas)⟩
  case distinct =>
    rintro q (rfl | hq) q' (rfl | hq') he
    · rfl
    · exact absurd (he.symm.trans hnew) (hne q' hq')
    · exact absurd (he.trans hnew) (hne q hq)
    · exact ht.distinct q hq q' hq' ((hold q hq).symm.trans (he.trans (hold q' hq')))
  case only =>
    rintro q (rfl | hq) c hc k v hv
    · rw [hnew] at hc
      cases hc
      cases (read_link_next ho key k).symm.trans hv
    · rw [hold q hq] at hc
      rw [read_link ho] at hv
      split at hv
      · rename_i hhere
        obtain ⟨rfl, rfl⟩ := hhere
        cases hv
        rw [ht.distinct q hq p hp (hc.trans hfind.symm)]
        exact ⟨.inl rfl, _, rfl⟩
      · obtain ⟨hmem, hobject⟩ := ht.only q hq c hc k v hv
        exact ⟨.inr hmem, hobject⟩
  case fresh =>
    rintro q (rfl | hq) c hc hb
    · rw [hnew] at hc
      cases hc
      exact absurd hb hnext
    · exact ht.fresh q hq c ((hold q hq).symm.trans hc) hb
  case has =>
    intro c
    rw [has_link, ht.has]
    constructor
    · rintro ((hb | ⟨q, hq, hc⟩) | rfl)
      · exact .inl hb
      · exact .inr ⟨q, .inr hq, (hold q hq).trans hc⟩
      · exact .inr ⟨_, .inl rfl, hnew⟩
    · rintro (hb | ⟨q, rfl | hq, hc⟩)
      · exact .inl (.inl hb)
      · exact .inr (Option.some.inj (hc.symm.trans hnew))
      · exact .inl (.inr ⟨q, hq, (hold q hq).symm.trans hc⟩)
  case same =>
    intro c hb hnot
    have hother : c ≠ o := by
      rintro rfl
      exact hnot p (.inr hp) ((hold p hp).trans hfind)
    rw [Heap.link, properties_write_of_ne _ _ _ hother, properties_alloc]
    exact ht.same c hb fun q hq hc => hnot q (.inr hq) ((hold q hq).trans hc)

/-- The object looked up under a node of the tree, found or made, is at a node one part longer. -/
theorem Tree.child (ht : Tree base root nodes h) {p : List String} (hp : p ∈ nodes) {o : ObjectId}
    (hfind : h.find? root p = some o) (key : String) :
    ∃ c h', h.child o key = (some c, h') ∧ Tree base root (insert (p ++ [key]) nodes) h' ∧
      h'.find? root (p ++ [key]) = some c := by
  rcases ht.read_eq hp hfind key with ⟨-, hread⟩ | ⟨hmem, c, hread, hc⟩
  · exact ⟨h.next, h.link o key, child_of_read_none hread, ht.link hp hfind hread,
      (ht.find?_link hp hfind hread).1⟩
  · refine ⟨c, h, child_of_read_object hread, ?_, hc⟩
    rwa [Set.insert_eq_of_mem hmem]

/-! ## Trees up to the identity of objects -/

/-- The objects of two heaps are paired off, and paired objects have the same properties with values
that are alike. -/
structure Alike (pair : ObjectId → ObjectId → Prop) (h h' : Heap) : Prop where
  unique : Relator.BiUnique pair
  left : ∀ o, h.Has o → ∃ o', pair o o'
  right : ∀ o', h'.Has o' → ∃ o, pair o o'
  properties : ∀ o o', pair o o' → ∀ key,
    Option.Rel (Value.Alike pair) (h.read o key) (h'.read o' key)

/-- Objects of two heaps that are one object from before, or stand at one node. -/
def Corresponding (base : Heap) (root : String → Option ObjectId) (nodes : Set (List String))
    (h h' : Heap) (o o' : ObjectId) : Prop :=
  (base.Has o ∧ o = o') ∨ ∃ p ∈ nodes, h.find? root p = some o ∧ h'.find? root p = some o'

/-- What corresponds one way corresponds the other way. -/
theorem Corresponding.symm {o o' : ObjectId} (hpair : Corresponding base root nodes h h' o o') :
    Corresponding base root nodes h' h o' o := by
  rcases hpair with ⟨hb, rfl⟩ | ⟨p, hp, hfind, hfind'⟩
  · exact .inl ⟨hb, rfl⟩
  · exact .inr ⟨p, hp, hfind', hfind⟩

/-- An object from before that stands at a node does so in any heap. -/
theorem Tree.find?_eq_of_has (ht : Tree base root nodes h) {p : List String} (hp : p ∈ nodes)
    {o : ObjectId} (hfind : h.find? root p = some o) (hb : base.Has o) (h' : Heap) :
    h'.find? root p = some o := by
  obtain ⟨name, rfl⟩ := ht.fresh p hp o hfind hb
  exact hfind

/-- An object corresponds to at most one. -/
theorem Tree.corresponding_right (ht : Tree base root nodes h)
    {o o' o'' : ObjectId} (hpair : Corresponding base root nodes h h' o o')
    (hpair' : Corresponding base root nodes h h' o o'') : o' = o'' := by
  rcases hpair with ⟨hb, rfl⟩ | ⟨p, hp, hfind, hfind'⟩
  · rcases hpair' with ⟨-, rfl⟩ | ⟨q, hq, hq1, hq2⟩
    · rfl
    · exact Option.some.inj ((ht.find?_eq_of_has hq hq1 hb h').symm.trans hq2)
  · rcases hpair' with ⟨hb, rfl⟩ | ⟨q, hq, hq1, hq2⟩
    · exact Option.some.inj (hfind'.symm.trans (ht.find?_eq_of_has hp hfind hb h'))
    · obtain rfl := ht.distinct p hp q hq (hfind.trans hq1.symm)
      exact Option.some.inj (hfind'.symm.trans hq2)

/-- Two heaps that have grown one tree from one heap are alike. -/
theorem Tree.alike (ht : Tree base root nodes h) (ht' : Tree base root nodes h')
    (hc : base.Closed) : Alike (Corresponding base root nodes h h') h h' := by
  refine ⟨⟨?_, ?_⟩, ?_, ?_, ?_⟩
  · intro o o' c hpair hpair'
    exact ht'.corresponding_right hpair.symm hpair'.symm
  · intro o o' o'' hpair hpair'
    exact ht.corresponding_right hpair hpair'
  · intro o ho
    rcases (ht.has o).1 ho with hb | ⟨p, hp, hfind⟩
    · exact ⟨o, .inl ⟨hb, rfl⟩⟩
    · obtain ⟨o', hfind', -⟩ := ht'.present p hp
      exact ⟨o', .inr ⟨p, hp, hfind, hfind'⟩⟩
  · intro o' ho'
    rcases (ht'.has o').1 ho' with hb | ⟨p, hp, hfind'⟩
    · exact ⟨o', .inl ⟨hb, rfl⟩⟩
    · obtain ⟨o, hfind, -⟩ := ht.present p hp
      exact ⟨o, .inr ⟨p, hp, hfind, hfind'⟩⟩
  · intro o o' hpair key
    have hnode : ∀ p ∈ nodes, h.find? root p = some o → h'.find? root p = some o' →
        Option.Rel (Value.Alike (Corresponding base root nodes h h')) (h.read o key)
          (h'.read o' key) := by
      intro p hp hfind hfind'
      rcases ht.read_eq hp hfind key with ⟨hmem, hread⟩ | ⟨hmem, c, hread, hc⟩
      · rcases ht'.read_eq hp hfind' key with ⟨-, hread'⟩ | ⟨hmem', -⟩
        · rw [hread, hread']
          exact .none
        · exact absurd hmem' hmem
      · rcases ht'.read_eq hp hfind' key with ⟨hmem', -⟩ | ⟨-, c', hread', hc'⟩
        · exact absurd hmem hmem'
        · rw [hread, hread']
          exact .some (.object (.inr ⟨_, hmem, hc, hc'⟩))
    rcases hpair with ⟨hb, rfl⟩ | ⟨p, hp, hfind, hfind'⟩
    · by_cases hin : ∃ p ∈ nodes, h.find? root p = some o
      · obtain ⟨p, hp, hfind⟩ := hin
        exact hnode p hp hfind (ht.find?_eq_of_has hp hfind hb h')
      · -- An object outside of the tree has the properties that it had.
        have hread : h.read o key = base.read o key := by
          rw [read, read, ht.same o hb fun p hp hfind => hin ⟨p, hp, hfind⟩]
        have hread' : h'.read o key = base.read o key := by
          rw [read, read, ht'.same o hb fun p hp hfind' =>
            hin ⟨p, hp, ht'.find?_eq_of_has hp hfind' hb h⟩]
        rw [hread, hread']
        cases hv : base.read o key with
        | none => exact .none
        | some v =>
          refine .some ?_
          cases v with
          | object c => exact .object (.inl ⟨hc o key _ hv c rfl, rfl⟩)
          | undefined | null | boolean | number | string => exact .plain rfl
    · exact hnode p hp hfind hfind'

end Heap

/-! ## Declarations on fresh roots -/

namespace Run

/-- The names along a path, from its root to the whole path. -/
def prefixes (path : String) : Set (List String) := {p | p ≠ [] ∧ p <+: segments path}

/-- The object that a root is bound to. -/
def root? (r : Run) (name : String) : Option ObjectId := (r.lookup name).bind Value.object?

/-- The roots of some paths are bound to empty objects, each to its own. -/
structure FreshRoots (r : Run) (paths : List String) : Prop where
  bound : ∀ path ∈ paths, ∃ o, r.lookup (rootName path) = some (.object o) ∧
    ∀ key, r.engine.heap.read o key = none
  own : ∀ path ∈ paths, ∀ path' ∈ paths,
    r.lookup (rootName path) = r.lookup (rootName path') → rootName path = rootName path'

/-- The statements of a program declare some paths, in any order and as often as they like. -/
def Declares (program : Program) (paths : List String) : Prop :=
  ∀ action, (∃ s ∈ program, s.action = action) ↔ ∃ path ∈ paths, action = .declareRoot path

/-- The segments of a path are its root and the others. -/
theorem segments_eq (path : String) : segments path = rootName path :: (segments path).tail := by
  unfold rootName segments Text.splitOnChar
  cases hs : Text.splitChars '.' path.toList with
  | nil => exact absurd hs (Text.splitChars_ne_nil '.' path.toList)
  | cons first rest => rfl

/-- The prefixes of a path go from its root to a part of what follows. -/
theorem mem_prefixes_iff (path : String) (p : List String) :
    p ∈ prefixes path ↔ ∃ keys, keys <+: (segments path).tail ∧ p = [rootName path] ++ keys := by
  unfold prefixes
  rw [Set.mem_ofPred_eq, segments_eq, List.prefix_cons_iff, List.tail_cons]
  constructor
  · rintro ⟨hne, hnil | ⟨keys, rfl, hkeys⟩⟩
    · exact absurd hnil hne
    · exact ⟨keys, hkeys, rfl⟩
  · rintro ⟨keys, hkeys, rfl⟩
    exact ⟨List.cons_ne_nil _ _, .inr ⟨keys, rfl, hkeys⟩⟩

/-- The root of a path is one of its prefixes. -/
theorem root_mem_prefixes (path : String) : [rootName path] ∈ prefixes path :=
  (mem_prefixes_iff path _).2 ⟨[], List.nil_prefix, rfl⟩

variable {base : Heap} {nodes : Set (List String)}

/-- From a node on no path is blocked, and the names along it are nodes. -/
theorem tree_declareFrom (path : String) {root : String → Option ObjectId} {h : Heap}
    (ht : Heap.Tree base root nodes h) {p : List String} (hp : p ∈ nodes) {o : ObjectId}
    (hfind : h.find? root p = some o) (keys : List String) :
    ∃ h', declareFrom path h o keys = (.ok (), h') ∧
      Heap.Tree base root (nodes ∪ {q | ∃ front, front <+: keys ∧ q = p ++ front}) h' := by
  induction keys generalizing h nodes p o with
  | nil =>
    refine ⟨h, rfl, ?_⟩
    rwa [Set.union_eq_self_of_subset_right]
    rintro q ⟨front, hfront, rfl⟩
    rw [List.prefix_nil.1 hfront, List.append_nil]
    exact hp
  | cons key keys ih =>
    obtain ⟨c, h', hchild, htree, hc⟩ := ht.child hp hfind key
    obtain ⟨h'', hrest, hwhole⟩ := ih htree (Set.mem_insert _ _) hc
    refine ⟨h'', ?_, ?_⟩
    · unfold declareFrom
      rw [hchild]
      exact hrest
    · have hnodes : nodes ∪ {q | ∃ front, front <+: key :: keys ∧ q = p ++ front} =
          insert (p ++ [key]) nodes ∪ {q | ∃ front, front <+: keys ∧ q = p ++ [key] ++ front} := by
        ext q
        simp only [Set.mem_union, Set.mem_insert_iff, Set.mem_ofPred_eq, List.prefix_cons_iff]
        constructor
        · rintro (hq | ⟨_, rfl | ⟨front, rfl, hfront⟩, rfl⟩)
          · exact .inl (.inr hq)
          · exact .inl (.inr ((List.append_nil p).symm ▸ hp))
          · exact .inr ⟨front, hfront, (List.append_cons p key front)⟩
        · rintro ((rfl | hq) | ⟨front, hfront, rfl⟩)
          · exact .inr ⟨[key], .inr ⟨[], rfl, List.nil_prefix⟩, rfl⟩
          · exact .inl hq
          · exact .inr ⟨key :: front, .inr ⟨front, rfl, hfront⟩, (List.append_cons p key front).symm⟩
      rw [hnodes]
      exact hwhole

/-- Declaring a path on a tree that has its root succeeds and grows the tree by the prefixes of the
path. -/
theorem tree_declareRoot {r : Run} (ht : Heap.Tree base r.root? nodes r.engine.heap) {path : String}
    (hroot : [rootName path] ∈ nodes) : ∃ h', r.declareRoot path = (.ok (), r.onHeap h') ∧
      Heap.Tree base r.root? (nodes ∪ prefixes path) h' := by
  obtain ⟨o, hfind, -⟩ := ht.present _ hroot
  have hlookup : r.lookup (rootName path) = some (.object o) := by
    obtain ⟨c, hc, hfollow⟩ := Option.bind_eq_some_iff.1 hfind
    obtain ⟨v, hv, hobject⟩ := Option.bind_eq_some_iff.1 hc
    cases hfollow
    rw [hv, Value.eq_object_of_object? hobject]
  obtain ⟨h', hfrom, htree⟩ := tree_declareFrom path ht hroot hfind (segments path).tail
  refine ⟨h', declareRoot_of_declareFrom hlookup hfrom, ?_⟩
  rwa [Set.ext (mem_prefixes_iff path)]

/-- A program of declarations succeeds, and grows the tree by the names along their paths. -/
theorem tree_statements {r : Run} (ht : Heap.Tree base r.root? nodes r.engine.heap) (last : Value)
    {program : Program} (hprogram : ∀ s ∈ program, ∃ path, s.action = .declareRoot path ∧
      [rootName path] ∈ nodes) :
    ∃ v h', Run.statements r last program = (.ok v, r.onHeap h') ∧
      Heap.Tree base r.root? (nodes ∪ {p | ∃ s ∈ program, ∃ path, s.action = .declareRoot path ∧
        p ∈ prefixes path}) h' := by
  induction program generalizing r nodes last with
  | nil =>
    refine ⟨last, r.engine.heap, rfl, ?_⟩
    rwa [Set.union_eq_self_of_subset_right]
    rintro p ⟨s, hs, -⟩
    cases hs
  | cons s rest ih =>
    obtain ⟨path, haction, hroot⟩ := hprogram s List.mem_cons_self
    obtain ⟨h', hdeclare, htree⟩ := tree_declareRoot ht hroot
    obtain ⟨v, h'', hrest, hwhole⟩ := ih (r := r.onHeap h') htree .undefined fun t hmem => by
      obtain ⟨path', haction', hroot'⟩ := hprogram t (List.mem_cons_of_mem s hmem)
      exact ⟨path', haction', .inl hroot'⟩
    refine ⟨v, h'', ?_, ?_⟩
    · unfold Run.statements perform
      rw [haction]
      simp only
      rw [hdeclare]
      exact hrest
    · have hnodes : nodes ∪ {p | ∃ t ∈ s :: rest, ∃ path, t.action = .declareRoot path ∧
            p ∈ prefixes path} = nodes ∪ prefixes path ∪ {p | ∃ t ∈ rest, ∃ path,
            t.action = .declareRoot path ∧ p ∈ prefixes path} := by
        ext p
        simp [haction, or_assoc]
      rw [hnodes]
      exact hwhole

/-- Fresh roots are a tree. -/
theorem tree_roots {r : Run} (hc : r.Closed) {paths : List String} (hroots : r.FreshRoots paths) :
    Heap.Tree r.engine.heap r.root? {p | ∃ path ∈ paths, p = [rootName path]} r.engine.heap := by
  have hfind : ∀ path ∈ paths, ∃ o, r.lookup (rootName path) = some (.object o) ∧
      (∀ key, r.engine.heap.read o key = none) ∧
      r.engine.heap.find? r.root? [rootName path] = some o := by
    intro path hpath
    obtain ⟨o, hlookup, hempty⟩ := hroots.bound path hpath
    refine ⟨o, hlookup, hempty, ?_⟩
    rw [Heap.find?, root?, hlookup]
    rfl
  refine ⟨?present, ?distinct, ?only, ?fresh, ?has, fun _ _ _ => rfl⟩
  case present =>
    rintro _ ⟨path, hpath, rfl⟩
    obtain ⟨o, hlookup, -, ho⟩ := hfind path hpath
    exact ⟨o, ho, hc.lookup hlookup o rfl⟩
  case distinct =>
    rintro _ ⟨path, hpath, rfl⟩ _ ⟨path', hpath', rfl⟩ he
    obtain ⟨o, hlookup, -, ho⟩ := hfind path hpath
    obtain ⟨o', hlookup', -, ho'⟩ := hfind path' hpath'
    obtain rfl := Option.some.inj (ho.symm.trans (he.trans ho'))
    rw [hroots.own path hpath path' hpath' (hlookup.trans hlookup'.symm)]
  case only =>
    rintro _ ⟨path, hpath, rfl⟩ c hc' key v hv
    obtain ⟨o, -, hempty, ho⟩ := hfind path hpath
    obtain rfl := Option.some.inj (ho.symm.trans hc')
    cases (hempty key).symm.trans hv
  case fresh =>
    rintro _ ⟨path, -, rfl⟩ _ _ _
    exact ⟨_, rfl⟩
  case has =>
    intro o
    refine (or_iff_left_of_imp ?_).symm
    rintro ⟨_, ⟨path, hpath, rfl⟩, ho'⟩
    obtain ⟨o', hlookup, -, ho⟩ := hfind path hpath
    obtain rfl := Option.some.inj (ho.symm.trans ho')
    exact hc.lookup hlookup _ rfl

/-- Programs that declare some paths of fresh roots grow the tree of the names along them. -/
theorem tree_of_declares {r : Run} (hc : r.Closed) {paths : List String}
    (hroots : r.FreshRoots paths) {program : Program} (hprogram : Declares program paths)
    (last : Value) : ∃ v h', Run.statements r last program = (.ok v, r.onHeap h') ∧
      Heap.Tree r.engine.heap r.root? {p | ∃ path ∈ paths, p ∈ prefixes path} h' := by
  have hactions : ∀ s ∈ program, ∃ path, s.action = .declareRoot path ∧
      [rootName path] ∈ {p | ∃ path ∈ paths, p = [rootName path]} := by
    intro s hs
    obtain ⟨path, hpath, haction⟩ := (hprogram s.action).1 ⟨s, hs, rfl⟩
    exact ⟨path, haction, path, hpath, rfl⟩
  obtain ⟨v, h', hrun, htree⟩ := tree_statements (tree_roots hc hroots) last hactions
  have hnodes : {p | ∃ path ∈ paths, p ∈ prefixes path} =
      {p | ∃ path ∈ paths, p = [rootName path]} ∪ {p | ∃ s ∈ program, ∃ path,
        s.action = .declareRoot path ∧ p ∈ prefixes path} := by
    ext p
    constructor
    · rintro ⟨path, hpath, hp⟩
      obtain ⟨s, hs, haction⟩ := (hprogram (.declareRoot path)).2 ⟨path, hpath, rfl⟩
      exact .inr ⟨s, hs, path, haction, hp⟩
    · rintro (⟨path, hpath, rfl⟩ | ⟨s, hs, path, haction, hp⟩)
      · exact ⟨path, hpath, root_mem_prefixes path⟩
      · obtain ⟨path', hpath', haction'⟩ := (hprogram s.action).1 ⟨s, hs, rfl⟩
        cases haction.symm.trans haction'
        exact ⟨path, hpath', hp⟩
  rw [hnodes]
  exact ⟨v, h', hrun, htree⟩

end Run

/-- Declarations of paths of fresh roots succeed, and make the tree of the names along the paths; two
programs that declare the same paths, in whatever order and however often, leave heaps that are alike
but for the identities of the objects made.  On any heap a declaration that succeeds finds objects along
a first part of its path and hangs empty objects along the rest under the last of them, in a property
that was missing; of what was there everything else stays as it was.  Run again, it does nothing. -/
theorem declare_roots {r : Run} (hc : r.Closed) :
    (∀ paths, r.FreshRoots paths →
      (∀ program last, Run.Declares program paths →
        ∃ v h', Run.statements r last program = (.ok v, r.onHeap h') ∧
          Heap.Tree r.engine.heap r.root? {p | ∃ path ∈ paths, p ∈ Run.prefixes path} h') ∧
      ∀ program program' last last', Run.Declares program paths → Run.Declares program' paths →
        ∃ pair, (∀ o, r.engine.heap.Has o → pair o o) ∧
          Heap.Alike pair (Run.statements r last program).2.engine.heap
            (Run.statements r last' program').2.engine.heap) ∧
    ∀ path r', r.declareRoot path = (.ok (), r') →
      r'.declareRoot path = (.ok (), r') ∧
      ∃ o found missing last, r.lookup (Run.rootName path) = some (.object o) ∧
        (Run.segments path).tail = found ++ missing ∧
        r.engine.heap.follow? o found = some last ∧
        (∀ key ∈ missing.head?, r.engine.heap.read last key = none) ∧
        r' = r.onHeap (r.engine.heap.hang last missing) ∧
        r'.engine.heap.objects.size = r.engine.heap.objects.size + missing.length ∧
        (∀ other key v, r.engine.heap.read other key = some v →
          r'.engine.heap.read other key = some v) ∧
        ∀ other key, r.engine.heap.Has other → ¬ (other = last ∧ missing.head? = some key) →
          r'.engine.heap.read other key = r.engine.heap.read other key := by
  refine ⟨fun paths hroots => ⟨?tree, ?alike⟩, ?hangs⟩
  case tree => exact fun program last hprogram => Run.tree_of_declares hc hroots hprogram last
  case alike =>
    intro program program' last last' hprogram hprogram'
    obtain ⟨v, h, hrun, ht⟩ := Run.tree_of_declares hc hroots hprogram last
    obtain ⟨v', h', hrun', ht'⟩ := Run.tree_of_declares hc hroots hprogram' last'
    rw [hrun, hrun']
    exact ⟨_, fun o ho => .inl ⟨ho, rfl⟩, ht.alike ht' hc.engine.objects⟩
  case hangs =>
    intro path r' hd
    obtain ⟨hagain, o, found, missing, last, hlookup, hsplit, hfollow, hlast, hmissing, rfl⟩ :=
      Run.declareRoot_hangs hc hd
    obtain ⟨hsize, hmono, hsame⟩ := Heap.hang_spec hlast hmissing
    exact ⟨hagain, o, found, missing, last, hlookup, hsplit, hfollow, hmissing, rfl, hsize, hmono,
      hsame⟩

/-- Three paths under two roots, declared once in turn, and once in another order and one of them
twice: both programs succeed, and their heaps are alike.  One declaration more changes nothing. -/
theorem declare_roots_reordered :
    let r : Run := ⟨(Engine.initial.evaluate "App = {}\nLib = {}" Table.empty).2, Table.empty⟩
    let paths := ["App.a.b", "App.c", "Lib.x"]
    let run (order : List String) := Run.statements r .undefined
      (order.map fun path => ⟨.declareRoot path, default⟩)
    r.Closed ∧ r.FreshRoots paths ∧
      (∃ v h', run paths = (.ok v, r.onHeap h') ∧
        Heap.Tree r.engine.heap r.root? {p | ∃ path ∈ paths, p ∈ Run.prefixes path} h') ∧
      (∃ pair, (∀ o, r.engine.heap.Has o → pair o o) ∧ Heap.Alike pair (run paths).2.engine.heap
        (run ["Lib.x", "App.c", "App.a.b", "App.c"]).2.engine.heap) ∧
      ∃ r', r.declareRoot "App.a.b" = (.ok (), r') ∧ r'.declareRoot "App.a.b" = (.ok (), r') := by
  intro r paths run
  have happ : r.lookup "App" = some (.object ⟨0⟩) ∧
      (r.engine.heap.properties ⟨0⟩).entries = [] := by decide +kernel +revert
  have hlib : r.lookup "Lib" = some (.object ⟨1⟩) ∧
      (r.engine.heap.properties ⟨1⟩).entries = [] := by decide +kernel +revert
  have hok : (r.declareRoot "App.a.b").1 = .ok () := by decide +kernel +revert
  have hown : ∀ path ∈ paths, ∀ path' ∈ paths,
      r.lookup (Run.rootName path) = r.lookup (Run.rootName path') →
        Run.rootName path = Run.rootName path' := by decide +kernel +revert
  have hsound : r.engine.Sound := Engine.sound_evaluate Engine.sound_initial _ nofun
  have hc : r.Closed := ⟨hsound.closed, nofun⟩
  have hempty : ∀ path ∈ paths, ∃ o, r.lookup (Run.rootName path) = some (.object o) ∧
      (r.engine.heap.properties o).entries = [] :=
    List.forall_mem_cons.2 ⟨⟨_, happ⟩, List.forall_mem_cons.2 ⟨⟨_, happ⟩,
      List.forall_mem_singleton.2 ⟨_, hlib⟩⟩⟩
  have hroots : r.FreshRoots paths := by
    refine ⟨fun path hpath => ?_, hown⟩
    obtain ⟨o, hlookup, hentries⟩ := hempty path hpath
    refine ⟨o, hlookup, fun key => ?_⟩
    rw [Heap.read, Table.get?, hentries]
    rfl
  have hdeclares : ∀ order : List String, (∀ path, path ∈ order ↔ path ∈ paths) →
      Run.Declares (order.map fun path => ⟨.declareRoot path, default⟩) paths := by
    intro order horder action
    simp [← horder, eq_comm]
  obtain ⟨⟨htree, halike⟩, hdeclare⟩ := (declare_roots hc).imp_left fun h => h paths hroots
  refine ⟨hc, hroots, htree _ _ (hdeclares paths fun _ => Iff.rfl),
    halike _ _ _ _ (hdeclares paths fun _ => Iff.rfl) (hdeclares _ fun path => ?_),
    _, Prod.ext hok rfl, (hdeclare _ _ (Prod.ext hok rfl)).1⟩
  simp [paths]
  tauto

end ModuleLoader.Script
