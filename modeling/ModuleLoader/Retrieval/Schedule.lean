import ModuleLoader.Retrieval.Medium

/-!
# Retrievals under way

Concurrent retrievals run as tasks on a virtual clock.  A task first takes one of the permits or
queues for one, then waits out the latency of its location while it keeps the permit, then looks
the location up, gives the permit back and delivers what it got.  Tasks run in the order in which
they became able to.  Main statement: `work_runTask_lt`, every turn of a task brings it closer to
its end, so that running always comes to a stop.
-/

set_option autoImplicit false

namespace ModuleLoader

/-- A module's retrieval. -/
structure Retrieval where
  id : String
  location : String
deriving DecidableEq, Repr

/-- What a retrieval came to. -/
structure Arrival where
  id : String
  result : Except RetrievalFailure String

/-- How far a task is that can run. -/
inductive Stage where
  /-- It has not run yet. -/
  | fresh
  /-- It was handed a permit after queueing for one. -/
  | granted
  /-- It has waited out its latency. -/
  | woken
deriving DecidableEq, Repr

/-- The turns a task still has before it, the delivery counted as one of them. -/
def Stage.weight : Stage → Nat
  | .fresh => 6
  | .granted => 4
  | .woken => 2

/-- All retrievals under way. -/
structure Schedule where
  /-- The time in milliseconds. -/
  clock : Nat
  /-- The permits nobody holds. -/
  permits : Nat
  /-- The tasks that can run, in the order in which they became able to. -/
  runnable : List (Stage × Retrieval)
  /-- The tasks that queue for a permit, first come first served. -/
  waiting : List Retrieval
  /-- The tasks that wait out a latency, with the time at which it ends. -/
  sleeping : List (Nat × Retrieval)
  /-- What was delivered and not yet taken, oldest first. -/
  arrived : List Arrival

namespace Schedule

/-- A schedule with nothing to do. -/
def idle (permits : Nat) : Schedule := ⟨0, permits, [], [], [], []⟩

/-- Start a retrieval; nothing of it happens before its task runs. -/
def spawn (s : Schedule) (r : Retrieval) : Schedule :=
  { s with runnable := s.runnable ++ [(.fresh, r)] }

/-- Give a permit back: to the first in the queue, if there is one. -/
def release (s : Schedule) : Schedule :=
  match s.waiting with
  | [] => { s with permits := s.permits + 1 }
  | r :: rest => { s with waiting := rest, runnable := s.runnable ++ [(.granted, r)] }

/-- Look the location up, give the permit back and deliver. -/
def finish (s : Schedule) (m : Medium) (r : Retrieval) : Schedule × Medium :=
  let (result, m') := m.lookUp r.location
  let s' := s.release
  ({ s' with arrived := s'.arrived ++ [⟨r.id, result⟩] }, m')

/-- With a permit in hand, wait out the latency if there is one. -/
def begin (s : Schedule) (m : Medium) (r : Retrieval) : Schedule × Medium :=
  match m.latency? r.location with
  | some d => ({ s with sleeping := s.sleeping ++ [(s.clock + d, r)] }, m)
  | none => s.finish m r

/-- Run one task until it delivers or has to wait. -/
def runTask (s : Schedule) (m : Medium) (stage : Stage) (r : Retrieval) : Schedule × Medium :=
  match stage with
  | .fresh =>
    if 0 < s.permits then { s with permits := s.permits - 1 }.begin m r
    else ({ s with waiting := s.waiting ++ [r] }, m)
  | .granted => s.begin m r
  | .woken => s.finish m r

/-- Let one of the tasks that can run have its turn, whichever it is. -/
def turn (s : Schedule) (m : Medium) (n : Nat) : Schedule × Medium :=
  match s.runnable[n]? with
  | none => (s, m)
  | some (stage, r) =>
    { s with runnable := s.runnable.take n ++ s.runnable.drop (n + 1) }.runTask m stage r

/-- The turns that some tasks have before them. -/
def totalWeight : List (Stage × Retrieval) → Nat
  | [] => 0
  | (stage, _) :: rest => stage.weight + totalWeight rest

/-- The turns of two lists of tasks are those of both together. -/
theorem totalWeight_append (l m : List (Stage × Retrieval)) :
    totalWeight (l ++ m) = totalWeight l + totalWeight m := by
  induction l with
  | nil => simp [totalWeight]
  | cons task l ih =>
    simp only [List.cons_append, totalWeight, ih]
    omega

/-- The turns that all tasks have before them, with one more for each delivery not taken. -/
def work (s : Schedule) : Nat :=
  totalWeight s.runnable + 5 * s.waiting.length + 3 * s.sleeping.length + s.arrived.length

/-- Giving a permit back makes no more work: who gets it had it before him. -/
theorem work_release_le (s : Schedule) : s.release.work ≤ s.work := by
  unfold release
  split
  · exact Nat.le_refl _
  · rename_i r rest h
    simp only [work, h, totalWeight_append, totalWeight, List.length_cons, Stage.weight]
    omega

/-- A task that is finished leaves at most its delivery to be taken. -/
theorem work_finish_le (s : Schedule) (m : Medium) (r : Retrieval) :
    (s.finish m r).1.work ≤ s.work + 1 := by
  have h := s.work_release_le
  simp only [finish, work, List.length_append, List.length_cons, List.length_nil] at h ⊢
  omega

/-- A task that has got its permit leaves at most its latency and its delivery. -/
theorem work_begin_le (s : Schedule) (m : Medium) (r : Retrieval) :
    (s.begin m r).1.work ≤ s.work + 3 := by
  unfold begin
  split
  · simp only [work, List.length_append, List.length_cons, List.length_nil]
    omega
  · have h := s.work_finish_le m r
    omega

/-- A turn of a task makes less work than the task had before it. -/
theorem work_runTask_lt (s : Schedule) (m : Medium) (stage : Stage) (r : Retrieval) :
    (s.runTask m stage r).1.work < s.work + stage.weight := by
  cases stage with
  | fresh =>
    simp only [runTask]
    split
    · have h := { s with permits := s.permits - 1 }.work_begin_le m r
      have hw : { s with permits := s.permits - 1 }.work = s.work := rfl
      simp only [Stage.weight]
      omega
    · simp only [work, Stage.weight, List.length_append, List.length_cons, List.length_nil]
      omega
  | granted =>
    have h := s.work_begin_le m r
    simp only [runTask, Stage.weight]
    omega
  | woken =>
    have h := s.work_finish_le m r
    simp only [runTask, Stage.weight]
    omega

/-- Taking the first task off the list takes its turns off the work. -/
theorem work_of_runnable {s : Schedule} {stage : Stage} {r : Retrieval}
    {rest : List (Stage × Retrieval)} (h : s.runnable = (stage, r) :: rest) :
    { s with runnable := rest }.work + stage.weight = s.work := by
  simp only [work, h, totalWeight]
  omega

/-- Let tasks have their turns, in the order in which they became able to, until none can run. -/
def run (s : Schedule) (m : Medium) : Schedule × Medium :=
  match _h : s.runnable with
  | [] => (s, m)
  | (stage, r) :: rest =>
    let next := { s with runnable := rest }.runTask m stage r
    next.1.run next.2
termination_by s.work
decreasing_by
  have h1 := work_of_runnable _h
  have h2 := { s with runnable := rest }.work_runTask_lt m stage r
  omega

/-- The earliest time at which a latency ends. -/
def earliest : List (Nat × Retrieval) → Option Nat
  | [] => none
  | (t, _) :: rest =>
    match earliest rest with
    | none => some t
    | some u => some (min t u)

/-- The earliest time is that of an entry. -/
theorem exists_of_earliest {l : List (Nat × Retrieval)} {t : Nat} (h : earliest l = some t) :
    ∃ e ∈ l, e.1 = t := by
  induction l generalizing t with
  | nil => cases h
  | cons e rest ih =>
    simp only [earliest] at h
    cases hr : earliest rest with
    | none =>
      rw [hr] at h
      exact ⟨e, by simp, by simpa using h⟩
    | some u =>
      rw [hr] at h
      obtain ⟨e', he', hu⟩ := ih hr
      by_cases hm : e.1 ≤ u
      · exact ⟨e, by simp, by simp_all⟩
      · refine ⟨e', by simp [he'], ?_⟩
        simp only [Option.some.injEq] at h
        omega

/-- Advance the clock to the earliest end of a latency, and make the tasks able to run that waited
for it. -/
def wake (s : Schedule) : Option Schedule :=
  match earliest s.sleeping with
  | none => none
  | some t =>
    some { s with
      clock := t
      runnable := s.runnable ++ (s.sleeping.filter (·.1 == t)).map fun e => (.woken, e.2)
      sleeping := s.sleeping.filter (·.1 != t) }

/-- The tasks whose latency ends at a time and all the others are all tasks. -/
theorem length_filter_split (t : Nat) (l : List (Nat × Retrieval)) :
    (l.filter (·.1 == t)).length + (l.filter (·.1 != t)).length = l.length := by
  induction l with
  | nil => rfl
  | cons e l ih => by_cases h : e.1 = t <;> simp [h] <;> omega

/-- Tasks that wake up have two turns each before them. -/
theorem totalWeight_woken (l : List (Nat × Retrieval)) :
    totalWeight (l.map fun e => (.woken, e.2)) = 2 * l.length := by
  induction l with
  | nil => rfl
  | cons e l ih =>
    simp only [List.map_cons, totalWeight, ih, List.length_cons, Stage.weight]
    omega

/-- Waking up brings sleeping tasks closer to their end. -/
theorem work_wake_lt {s s' : Schedule} (h : s.wake = some s') : s'.work < s.work := by
  unfold wake at h
  split at h
  · cases h
  · rename_i t ht
    cases h
    obtain ⟨e, he, het⟩ := exists_of_earliest ht
    have hpos : 0 < (s.sleeping.filter (·.1 == t)).length :=
      List.length_pos_of_mem (List.mem_filter.2 ⟨he, by simp [het]⟩)
    have hsplit : (s.sleeping.filter (·.1 == t)).length + (s.sleeping.filter (·.1 != t)).length =
        s.sleeping.length := length_filter_split t s.sleeping
    have hwoken := totalWeight_woken (s.sleeping.filter (·.1 == t))
    simp only [work, totalWeight_append, hwoken]
    omega

/-- Running makes no work. -/
theorem work_run_le (s : Schedule) (m : Medium) : (s.run m).1.work ≤ s.work := by
  fun_induction run s m with
  | case1 => exact Nat.le_refl _
  | case2 s m stage r rest h next ih =>
    have h1 := work_of_runnable h
    have h2 := { s with runnable := rest }.work_runTask_lt m stage r
    have h3 : next = { s with runnable := rest }.runTask m stage r := rfl
    rw [← h3] at h2
    omega

/-- Run tasks, and advance the clock when none can run, until something has arrived or nothing is
under way. -/
def await (s : Schedule) (m : Medium) : Schedule × Medium :=
  let next := s.run m
  if next.1.arrived.isEmpty then
    match _h : next.1.wake with
    | none => next
    | some s' => s'.await next.2
  else next
termination_by s.work
decreasing_by
  have h1 := work_wake_lt _h
  have h2 := s.work_run_le m
  exact Nat.lt_of_lt_of_le h1 h2

/-- Waiting for a delivery makes no work. -/
theorem work_await_le (s : Schedule) (m : Medium) : (s.await m).1.work ≤ s.work := by
  fun_induction await s m with
  | case1 s m next _ h => exact s.work_run_le m
  | case2 s m next _ s' h ih =>
    have h1 := work_wake_lt h
    have h2 : next.1.work ≤ s.work := s.work_run_le m
    omega
  | case3 s m next _ => exact s.work_run_le m

end Schedule

end ModuleLoader
