import Mathlib.Data.List.Perm.Basic
import ModuleLoader.Retrieval.Schedule

/-!
# Retrievals are not lost

A retrieval that has been started is runnable, queueing or asleep until it delivers, and what it
delivers is what its location holds.  `Delivers` says of all turns of a schedule that they deliver
some of the retrievals, looking each of these up once, and lose none.  So `due`, which lists
everything that has been delivered or will be, changes at most in its order.  `Sound` accounts for
the permits: those nobody holds and those held are all permits there are, and tasks queue only when
none is free.  Main statement: `outstanding_await`, a schedule that waits in vain for an arrival has
nothing under way.
-/

set_option autoImplicit false

namespace ModuleLoader

namespace Medium

/-! ## What is delivered -/

/-- What a location of a medium holds. -/
def content (m : Medium) (location : String) : Except RetrievalFailure String :=
  (m.lookUp location).1

/-- Looking a location up does not change what the medium holds. -/
@[simp] theorem content_lookUp (m : Medium) (location : String) :
    (m.lookUp location).2.content = m.content := by
  funext other
  cases m <;> rfl

/-- The medium after some locations have been looked up, in order; a bundle counts the requests. -/
def lookUps (m : Medium) (locations : List String) : Medium :=
  match m with
  | bundle b => bundle { b with requests := b.requests ++ locations }
  | files system => files system
  | remote place => remote place

/-- Looking nothing up leaves the medium as it is. -/
@[simp] theorem lookUps_nil (m : Medium) : m.lookUps [] = m := by
  cases m with
  | bundle b => rw [lookUps, List.append_nil]
  | files system => rfl
  | remote place => rfl

/-- Looking up some locations and then more is looking up all of them. -/
theorem lookUps_append (m : Medium) (locations more : List String) :
    m.lookUps (locations ++ more) = (m.lookUps locations).lookUps more := by
  cases m with
  | bundle b => rw [lookUps, ← List.append_assoc]; rfl
  | files system => rfl
  | remote place => rfl

/-- Looking one location up is looking up a list of one. -/
theorem lookUp_eq_lookUps (m : Medium) (location : String) :
    (m.lookUp location).2 = m.lookUps [location] := by
  cases m <;> rfl

/-- Looking locations up does not change what the medium holds. -/
@[simp] theorem content_lookUps (m : Medium) (locations : List String) :
    (m.lookUps locations).content = m.content := by
  cases m <;> rfl

end Medium

/-- The arrival of a retrieval whose location holds the given content. -/
def Retrieval.arrival (content : String → Except RetrievalFailure String) (r : Retrieval) :
    Arrival := ⟨r.id, content r.location⟩

/-- Whether a task that can run has a permit. -/
def Stage.holds : Stage → Bool
  | .fresh => false
  | .granted | .woken => true

namespace Schedule

/-- The retrievals that have been started and have not delivered. -/
def outstanding (s : Schedule) : List Retrieval :=
  s.runnable.map (·.2) ++ s.waiting ++ s.sleeping.map (·.2)

/-- Everything that was delivered and not yet taken, or is still to be delivered. -/
def due (content : String → Except RetrievalFailure String) (s : Schedule) : List Arrival :=
  s.arrived ++ s.outstanding.map (Retrieval.arrival content)

/-- The permits held by tasks. -/
def held (s : Schedule) : Nat := s.runnable.countP (·.1.holds) + s.sleeping.length

/-- All permits are free or held, and none is free while a task queues for one. -/
structure Sound (most : Nat) (s : Schedule) : Prop where
  permits_add_held : s.permits + s.held = most
  saturated : s.waiting ≠ [] → s.permits = 0

variable {content : String → Except RetrievalFailure String} {most : Nat}

/-- In an idle schedule all permits are free. -/
theorem sound_idle (permits : Nat) : (idle permits).Sound permits where
  permits_add_held := rfl
  saturated h := absurd rfl h

/-! ## Deliveries -/

/-- Some retrievals in hand and those of a schedule come to the next schedule: some have been delivered,
each of which looked its location up, and all others are outstanding. -/
def Delivers (hand : List Retrieval) (s : Schedule) (m : Medium) (next : Schedule × Medium) : Prop :=
  ∃ taken : List Retrieval,
    next.1.arrived = s.arrived ++ taken.map (Retrieval.arrival m.content) ∧
    (taken ++ next.1.outstanding).Perm (hand ++ s.outstanding) ∧
    next.2 = m.lookUps (taken.map (·.location))

namespace Delivers

variable {hand : List Retrieval} {s : Schedule} {m : Medium} {next last : Schedule × Medium}

/-- A step that delivers nothing keeps the retrievals, in any order. -/
theorem nothing {s' : Schedule} (harrived : s'.arrived = s.arrived)
    (hperm : s'.outstanding.Perm (hand ++ s.outstanding)) : Delivers hand s m (s', m) :=
  ⟨[], by rw [harrived, List.map_nil, List.append_nil], hperm, m.lookUps_nil.symm⟩

/-- Deliveries do not change what the medium holds. -/
theorem content_eq (h : Delivers hand s m next) : next.2.content = m.content := by
  obtain ⟨taken, -, -, hmedium⟩ := h
  rw [hmedium, m.content_lookUps]

/-- What is delivered in two steps is delivered in both together. -/
theorem trans (h : Delivers hand s m next) (h' : Delivers [] next.1 next.2 last) :
    Delivers hand s m last := by
  have hcontent := h.content_eq
  obtain ⟨taken, harrived, hperm, hmedium⟩ := h
  obtain ⟨later, harrived', hperm', hmedium'⟩ := h'
  refine ⟨taken ++ later, ?_, ?_, ?_⟩
  · rw [harrived', harrived, hcontent, List.append_assoc, List.map_append]
  · rw [List.append_assoc]
    exact (hperm'.append_left taken).trans hperm
  · rw [hmedium', hmedium, List.map_append, Medium.lookUps_append]

/-- What is delivered or outstanding was in hand, delivered or outstanding before. -/
theorem due (h : Delivers hand s m next) : (next.1.due m.content).Perm
    (hand.map (Retrieval.arrival m.content) ++ s.due m.content) := by
  obtain ⟨taken, harrived, hperm, -⟩ := h
  have hmap := hperm.map (Retrieval.arrival m.content)
  rw [List.map_append, List.map_append] at hmap
  rw [Schedule.due, Schedule.due, harrived, List.append_assoc]
  apply (hmap.append_left _).trans
  rw [← List.append_assoc, ← List.append_assoc]
  exact List.perm_append_comm.append_right _

end Delivers

/-! ## One task -/

/-- A retrieval that starts is due. -/
theorem due_spawn (content : String → Except RetrievalFailure String) (s : Schedule)
    (r : Retrieval) :
    ((s.spawn r).due content).Perm (r.arrival content :: s.due content) := by
  classical
  rw [List.perm_iff_count]
  intro a
  simp only [due, outstanding, spawn, List.map_append, List.count_append, List.count_cons,
    List.map_cons, List.map_nil, List.count_nil]
  omega

/-- A retrieval that starts holds no permit. -/
theorem Sound.spawn {s : Schedule} (h : s.Sound most) (r : Retrieval) : (s.spawn r).Sound most where
  permits_add_held := by
    rw [← h.permits_add_held]
    simp [held, Schedule.spawn, Stage.holds]
  saturated := h.saturated

/-- Giving a permit back keeps the outstanding retrievals. -/
theorem outstanding_release (s : Schedule) : s.release.outstanding.Perm s.outstanding := by
  classical
  unfold release
  split
  · exact List.Perm.refl _
  · rename_i r rest hw
    rw [List.perm_iff_count]
    intro a
    simp only [outstanding, hw, List.map_append, List.count_append, List.count_cons,
      List.map_cons, List.map_nil, List.count_nil]
    omega

/-- A permit that is given back is free, or held by the first of the queue. -/
theorem release_sound {s : Schedule} (h : s.permits + s.held + 1 = most)
    (hw : s.waiting ≠ [] → s.permits = 0) : s.release.Sound most := by
  unfold release
  split
  · rename_i hnil
    refine ⟨?_, fun hne => absurd hnil hne⟩
    show s.permits + 1 + s.held = most
    omega
  · rename_i r rest hcons
    refine ⟨?_, fun _ => hw (by simp [hcons])⟩
    simp only [held, List.countP_append, List.countP_cons, List.countP_nil, Stage.holds] at h ⊢
    simp only [if_true]
    omega

/-- A retrieval in hand is delivered when it is finished. -/
theorem delivers_finish (s : Schedule) (m : Medium) (r : Retrieval) :
    Delivers [r] s m (s.finish m r) := by
  have harrived : s.release.arrived = s.arrived := by
    unfold release
    split <;> rfl
  refine ⟨[r], ?_, s.outstanding_release.cons r, m.lookUp_eq_lookUps r.location⟩
  show s.release.arrived ++ _ = _
  rw [harrived]
  rfl

/-- A task that is finished gives back the permit it had in hand. -/
theorem finish_sound {s : Schedule} (m : Medium) (r : Retrieval)
    (h : s.permits + s.held + 1 = most) (hw : s.waiting ≠ [] → s.permits = 0) :
    (s.finish m r).1.Sound most := by
  have hs := release_sound h hw
  exact ⟨hs.permits_add_held, hs.saturated⟩

/-- A retrieval in hand is delivered or sleeps after it began. -/
theorem delivers_begin (s : Schedule) (m : Medium) (r : Retrieval) :
    Delivers [r] s m (s.begin m r) := by
  unfold begin
  split
  · refine .nothing rfl ?_
    classical
    rw [List.perm_iff_count]
    intro a
    simp only [outstanding, List.map_append, List.count_append, List.count_cons,
      List.map_cons, List.map_nil, List.count_nil]
    omega
  · exact s.delivers_finish m r

/-- A task that begins sleeps on the permit it had in hand, or gives it back. -/
theorem begin_sound {s : Schedule} (m : Medium) (r : Retrieval)
    (h : s.permits + s.held + 1 = most) (hw : s.waiting ≠ [] → s.permits = 0) :
    (s.begin m r).1.Sound most := by
  unfold begin
  split
  · refine ⟨?_, hw⟩
    simp only [held, List.length_append, List.length_cons, List.length_nil] at h ⊢
    omega
  · exact finish_sound m r h hw

/-- A retrieval in hand is delivered or outstanding after a turn of its task. -/
theorem delivers_runTask (s : Schedule) (m : Medium) (stage : Stage) (r : Retrieval) :
    Delivers [r] s m (s.runTask m stage r) := by
  cases stage with
  | fresh =>
    simp only [runTask]
    split
    · exact { s with permits := s.permits - 1 }.delivers_begin m r
    · refine .nothing rfl ?_
      classical
      rw [List.perm_iff_count]
      intro a
      simp only [outstanding, List.count_append, List.count_cons, List.count_nil]
      omega
  | granted => exact s.delivers_begin m r
  | woken => exact s.delivers_finish m r

/-- Running a task that has just been taken off the list keeps account of its permit. -/
theorem runTask_sound {s : Schedule} (m : Medium) {stage : Stage} (r : Retrieval)
    (h : s.permits + s.held + stage.holds.toNat = most) (hw : s.waiting ≠ [] → s.permits = 0) :
    (s.runTask m stage r).1.Sound most := by
  cases stage with
  | fresh =>
    simp only [Stage.holds, Bool.toNat_false, Nat.add_zero] at h
    simp only [runTask]
    split
    · rename_i hpos
      refine begin_sound m r ?_ fun hne => ?_
      · show s.permits - 1 + s.held + 1 = most
        omega
      · show s.permits - 1 = 0
        have hzero := hw hne
        omega
    · rename_i hzero
      exact ⟨h, fun _ => Nat.eq_zero_of_not_pos hzero⟩
  | granted => exact begin_sound m r h hw
  | woken => exact finish_sound m r h hw

/-- A task that can run is outstanding, with all the others. -/
theorem outstanding_of_runnable {s : Schedule} {stage : Stage} {r : Retrieval}
    {before after : List (Stage × Retrieval)} (h : s.runnable = before ++ (stage, r) :: after) :
    s.outstanding.Perm (r :: { s with runnable := before ++ after }.outstanding) := by
  classical
  rw [List.perm_iff_count]
  intro a
  simp only [outstanding, h, List.map_append, List.count_append, List.count_cons, List.map_cons]
  omega

/-- The permits held are those of a task that can run and of all the others. -/
theorem held_of_runnable {s : Schedule} {stage : Stage} {r : Retrieval}
    {before after : List (Stage × Retrieval)} (h : s.runnable = before ++ (stage, r) :: after) :
    s.held = { s with runnable := before ++ after }.held + stage.holds.toNat := by
  simp only [held, h, List.countP_append, List.countP_cons]
  cases stage <;> simp [Stage.holds] <;> omega

/-- A turn of a task that can run loses no retrieval. -/
theorem delivers_runAt {s : Schedule} {stage : Stage} {r : Retrieval}
    {before after : List (Stage × Retrieval)} (h : s.runnable = before ++ (stage, r) :: after)
    (m : Medium) : Delivers [] s m ({ s with runnable := before ++ after }.runTask m stage r) := by
  obtain ⟨taken, harrived, hperm, hmedium⟩ :=
    { s with runnable := before ++ after }.delivers_runTask m stage r
  exact ⟨taken, harrived, hperm.trans (outstanding_of_runnable h).symm, hmedium⟩

/-- The permits are accounted for after a turn of a task that can run. -/
theorem Sound.runAt {s : Schedule} (hs : s.Sound most) {stage : Stage} {r : Retrieval}
    {before after : List (Stage × Retrieval)} (h : s.runnable = before ++ (stage, r) :: after)
    (m : Medium) : ({ s with runnable := before ++ after }.runTask m stage r).1.Sound most := by
  refine runTask_sound m r ?_ hs.saturated
  have heq := held_of_runnable h
  have hall := hs.permits_add_held
  show s.permits + _ + _ = most
  omega

/-! ## Turns of the schedule -/

/-- A list is what stands before an element, the element, and what stands behind it. -/
theorem eq_take_append_drop {α : Type} {l : List α} {n : Nat} {a : α} (h : l[n]? = some a) :
    l = l.take n ++ a :: l.drop (n + 1) := by
  obtain ⟨hlt, rfl⟩ := List.getElem?_eq_some_iff.1 h
  rw [← List.drop_eq_getElem_cons hlt, List.take_append_drop]

/-- A turn of any task loses no retrieval. -/
theorem delivers_turn (s : Schedule) (m : Medium) (n : Nat) : Delivers [] s m (s.turn m n) := by
  unfold turn
  split
  · exact .nothing rfl (.refl _)
  · rename_i stage r h
    exact delivers_runAt (eq_take_append_drop h) m

/-- The permits are accounted for after a turn of any task. -/
theorem Sound.turn {s : Schedule} (hs : s.Sound most) (m : Medium) (n : Nat) :
    (s.turn m n).1.Sound most := by
  unfold Schedule.turn
  split
  · exact hs
  · rename_i stage r h
    exact hs.runAt (eq_take_append_drop h) m

/-- Wake one of the tasks that wait out a latency, whichever it is. -/
def rouse (s : Schedule) (n : Nat) : Schedule :=
  match s.sleeping[n]? with
  | none => s
  | some (_, r) =>
    { s with
      runnable := s.runnable ++ [(.woken, r)]
      sleeping := s.sleeping.take n ++ s.sleeping.drop (n + 1) }

/-- Rousing a sleeping task delivers nothing. -/
theorem arrived_rouse (s : Schedule) (n : Nat) : (s.rouse n).arrived = s.arrived := by
  unfold rouse
  split <;> rfl

/-- Rousing a sleeping task keeps the outstanding retrievals. -/
theorem outstanding_rouse (s : Schedule) (n : Nat) :
    (s.rouse n).outstanding.Perm s.outstanding := by
  unfold rouse
  split
  · exact .refl _
  · rename_i t r h
    have hsplit := eq_take_append_drop h
    generalize s.sleeping.take n = before at hsplit ⊢
    generalize s.sleeping.drop (n + 1) = after at hsplit ⊢
    classical
    rw [List.perm_iff_count]
    intro a
    simp only [outstanding, hsplit, List.map_append, List.count_append, List.count_cons,
      List.map_cons, List.map_nil, List.count_nil]
    omega

/-- Rousing a sleeping task keeps what is due. -/
theorem due_rouse (content : String → Except RetrievalFailure String) (s : Schedule) (n : Nat) :
    ((s.rouse n).due content).Perm (s.due content) := by
  rw [due, due, arrived_rouse]
  exact ((s.outstanding_rouse n).map _).append_left _

/-- A task that is roused keeps its permit. -/
theorem Sound.rouse {s : Schedule} (hs : s.Sound most) (n : Nat) : (s.rouse n).Sound most := by
  unfold Schedule.rouse
  split
  · exact hs
  · rename_i t r h
    refine ⟨?_, hs.saturated⟩
    have hsplit := eq_take_append_drop h
    have hall := hs.permits_add_held
    generalize s.sleeping.take n = before at hsplit ⊢
    generalize s.sleeping.drop (n + 1) = after at hsplit ⊢
    simp only [held, hsplit, List.length_append, List.length_cons, List.countP_append,
      List.countP_cons, List.countP_nil, Stage.holds, if_true] at hall ⊢
    omega

/-! ## Waiting for an arrival -/

/-- After running no task can run. -/
theorem runnable_run (s : Schedule) (m : Medium) : (s.run m).1.runnable = [] := by
  fun_induction run s m with
  | case1 s m h => exact h
  | case2 s m stage r rest h next ih => exact ih

/-- Running loses no retrieval. -/
theorem delivers_run (s : Schedule) (m : Medium) : Delivers [] s m (s.run m) := by
  fun_induction run s m with
  | case1 s m h => exact .nothing rfl (.refl _)
  | case2 s m stage r rest h next ih =>
    have hfirst : s.runnable = [] ++ (stage, r) :: rest := h
    have hnext : Delivers [] s m next := delivers_runAt hfirst m
    exact hnext.trans ih

/-- The permits are accounted for after running. -/
theorem Sound.run {s : Schedule} (hs : s.Sound most) (m : Medium) : (s.run m).1.Sound most := by
  fun_induction Schedule.run s m with
  | case1 => exact hs
  | case2 s m stage r rest h next ih =>
    have hfirst : s.runnable = [] ++ (stage, r) :: rest := h
    have hnext : next.1.Sound most := hs.runAt hfirst m
    exact ih hnext

/-- Waking up loses no retrieval. -/
theorem delivers_wake {s s' : Schedule} (h : s.wake = some s') (m : Medium) :
    Delivers [] s m (s', m) := by
  unfold wake at h
  split at h
  · cases h
  · rename_i t ht
    cases h
    refine .nothing rfl ?_
    have hsplit := (List.filter_append_perm (fun e : Nat × Retrieval => e.1 == t) s.sleeping).map (·.2)
    classical
    rw [List.perm_iff_count] at hsplit ⊢
    intro a
    have ha := hsplit a
    simp only [outstanding, List.map_append, List.count_append, List.map_map,
      List.nil_append] at ha ⊢
    simp only [Function.comp_def] at ha ⊢
    have hne : (s.sleeping.filter fun e => e.1 != t) =
        s.sleeping.filter fun e => !(e.1 == t) := rfl
    rw [hne]
    omega

/-- Tasks that wake up keep their permits. -/
theorem Sound.wake {s s' : Schedule} (hs : s.Sound most) (h : s.wake = some s') :
    s'.Sound most := by
  unfold Schedule.wake at h
  split at h
  · cases h
  · rename_i t ht
    cases h
    refine ⟨?_, hs.saturated⟩
    have hall := hs.permits_add_held
    have hsplit := length_filter_split t s.sleeping
    have hwoken : ((s.sleeping.filter (·.1 == t)).map fun e => (Stage.woken, e.2)).countP
        (·.1.holds) = (s.sleeping.filter (·.1 == t)).length := by
      rw [List.countP_eq_length.2, List.length_map]
      intro e he
      obtain ⟨x, -, rfl⟩ := List.mem_map.1 he
      rfl
    simp only [held, List.countP_append, hwoken] at hall ⊢
    omega

/-- Only the empty list has no earliest time. -/
theorem earliest_eq_none {l : List (Nat × Retrieval)} (h : earliest l = none) : l = [] := by
  cases l with
  | nil => rfl
  | cons e rest =>
    simp only [earliest] at h
    split at h <;> cases h

/-- Waiting for a delivery loses no retrieval. -/
theorem delivers_await (s : Schedule) (m : Medium) : Delivers [] s m (s.await m) := by
  fun_induction await s m with
  | case1 s m next _ h => exact s.delivers_run m
  | case2 s m next _ s' h ih =>
    have hnext : Delivers [] s m next := s.delivers_run m
    exact (hnext.trans (delivers_wake h next.2)).trans ih
  | case3 s m next _ => exact s.delivers_run m

/-- The permits are accounted for after waiting for a delivery. -/
theorem Sound.await {s : Schedule} (hs : s.Sound most) (m : Medium) : (s.await m).1.Sound most := by
  fun_induction Schedule.await s m with
  | case1 s m => exact hs.run m
  | case2 s m next _ s' h ih => exact ih ((hs.run m).wake h)
  | case3 s m => exact hs.run m

/-- Where no task can run or be woken, a permit is free, so no task queues for one either. -/
theorem outstanding_await {s : Schedule} (hs : s.Sound most) (hpos : 0 < most) (m : Medium)
    (hnone : (s.await m).1.arrived = []) : (s.await m).1.outstanding = [] := by
  fun_induction Schedule.await s m with
  | case1 s m next _ h =>
    have hrunnable : next.1.runnable = [] := s.runnable_run m
    have hsound : next.1.Sound most := hs.run m
    have hsleeping : next.1.sleeping = [] := by
      unfold Schedule.wake at h
      split at h
      · exact earliest_eq_none (by assumption)
      · cases h
    have hwaiting : next.1.waiting = [] := by
      by_contra hne
      have hall := hsound.permits_add_held
      have hzero := hsound.saturated hne
      simp only [held, hrunnable, hsleeping, List.countP_nil, List.length_nil] at hall
      omega
    rw [outstanding, hrunnable, hsleeping, hwaiting]
    rfl
  | case2 s m next _ s' h ih => exact ih ((hs.run m).wake h) hnone
  | case3 s m next hne =>
    have harr : next.1.arrived = [] := hnone
    simp [harr] at hne

end Schedule

end ModuleLoader
