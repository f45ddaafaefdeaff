import ModuleLoader.Proofs.Retrieval.Outstanding

/-!
# Permits and deliveries

The turns of a schedule are made of moves, in each of which one thing happens: a retrieval takes a
permit, queues for one, waits out a latency, or gives its permit back and delivers.  Moves may come in
any order that the schedule allows, and each of them leaves less to do, so that no order goes on for
ever.  Main statements: `Move.work_lt`, and `Trace.balance`, by which over any number of moves permits
go just once to every retrieval that seeks one, and come back with just one delivery each.
-/

set_option autoImplicit false

namespace ModuleLoader

/-! ## Labelled steps -/

/-- Steps one after the other, with what happens in each. -/
inductive Trace {σ ε : Type} (step : σ → ε → σ → Prop) : σ → List ε → σ → Prop where
  | nil (a : σ) : Trace step a [] a
  | cons {a b c : σ} {event : ε} {events : List ε} (first : step a event b)
      (rest : Trace step b events c) : Trace step a (event :: events) c

namespace Trace

variable {σ ε : Type} {step : σ → ε → σ → Prop} {a b c : σ}

/-- One step. -/
theorem single {event : ε} (h : step a event b) : Trace step a [event] b := .cons h (.nil b)

/-- Steps that follow on others. -/
theorem append {events more : List ε} (h : Trace step a events b) (h' : Trace step b more c) :
    Trace step a (events ++ more) c := by
  induction h with
  | nil => exact h'
  | cons hfirst _ ih => exact .cons hfirst (ih h')

end Trace

/-! ## Occurrences -/

/-- What happens on the way of retrievals. -/
inductive Occurrence where
  | spawned (r : Retrieval)
  /-- A permit is free, and taken. -/
  | granted (r : Retrieval)
  | queued (r : Retrieval)
  /-- The latency of the location begins. -/
  | slept (r : Retrieval)
  /-- The clock advances to the end of the latencies that end first. -/
  | woke
  /-- A latency ends while nobody waits for it. -/
  | roused (r : Retrieval)
  /-- The retrieval delivers, and its permit goes to the first in the queue. -/
  | sent (r : Retrieval) (result : Except RetrievalFailure String) (next : Option Retrieval)
  /-- An arrival is taken account of. -/
  | taken (arrival : Arrival)

namespace Occurrence

/-- The retrieval that starts. -/
def spawns : Occurrence → List Retrieval
  | .spawned r => [r]
  | _ => []

/-- The retrieval that gets a permit. -/
def grants : Occurrence → List Retrieval
  | .granted r => [r]
  | .sent _ _ next => next.toList
  | _ => []

/-- The retrieval that gives its permit back and delivers. -/
def senders : Occurrence → List Retrieval
  | .sent r _ _ => [r]
  | _ => []

/-- What is delivered. -/
def deliveries : Occurrence → List Arrival
  | .sent r result _ => [⟨r.id, result⟩]
  | _ => []

/-- What is taken account of. -/
def takings : Occurrence → List Arrival
  | .taken arrival => [arrival]
  | _ => []

end Occurrence

namespace Schedule

/-- The retrievals that have a permit. -/
def holding (s : Schedule) : List Retrieval :=
  (s.runnable.filter (·.1.holds)).map (·.2) ++ s.sleeping.map (·.2)

/-- The retrievals that have had no permit yet. -/
def seeking (s : Schedule) : List Retrieval :=
  (s.runnable.filter (!·.1.holds)).map (·.2) ++ s.waiting

/-- As many retrievals hold a permit as permits are held. -/
theorem length_holding (s : Schedule) : s.holding.length = s.held := by
  simp [holding, held, List.countP_eq_length_filter]

/-- The outstanding retrievals are those that hold a permit and those that seek one. -/
theorem outstanding_perm (s : Schedule) : s.outstanding.Perm (s.holding ++ s.seeking) := by
  have hsplit := (List.filter_append_perm (fun task : Stage × Retrieval => task.1.holds)
    s.runnable).map (·.2)
  classical
  rw [List.perm_iff_count] at hsplit ⊢
  intro a
  have ha := hsplit a
  simp only [outstanding, holding, seeking, List.map_append, List.count_append] at ha ⊢
  omega

/-- No more retrievals have permits than there are permits. -/
theorem Sound.length_holding_le {most : Nat} {s : Schedule} (h : s.Sound most) :
    s.holding.length ≤ most := by
  rw [s.length_holding, ← h.permits_add_held]
  exact Nat.le_add_left _ _

/-! ## Books -/

/-- What the events between two states of a schedule come to.  Every retrieval that starts or was
seeking a permit gets one or is seeking it still; every retrieval that gets one or had it delivers or
has it still; and arrivals are taken in the order in which they were delivered. -/
structure Balance (s : Schedule) (events : List Occurrence) (s' : Schedule) : Prop where
  granted : (events.flatMap Occurrence.grants ++ s'.seeking).Perm
    (events.flatMap Occurrence.spawns ++ s.seeking)
  sent : (events.flatMap Occurrence.senders ++ s'.holding).Perm
    (events.flatMap Occurrence.grants ++ s.holding)
  arrived : events.flatMap Occurrence.takings ++ s'.arrived =
    s.arrived ++ events.flatMap Occurrence.deliveries

namespace Balance

variable {s s' s'' : Schedule} {events more : List Occurrence}

/-- Nothing changes the balance when nothing happens. -/
theorem refl (s : Schedule) : Balance s [] s := ⟨.refl _, .refl _, (List.append_nil _).symm⟩

/-- What happens in two stretches balances over both. -/
theorem trans (h : Balance s events s') (h' : Balance s' more s'') :
    Balance s (events ++ more) s'' := by
  refine ⟨?_, ?_, ?_⟩
  · have hfirst := h.granted
    have hlast := h'.granted
    classical
    rw [List.perm_iff_count] at hfirst hlast ⊢
    intro a
    have ha := hfirst a
    have ha' := hlast a
    simp only [List.flatMap_append, List.count_append] at ha ha' ⊢
    omega
  · have hfirst := h.sent
    have hlast := h'.sent
    classical
    rw [List.perm_iff_count] at hfirst hlast ⊢
    intro a
    have ha := hfirst a
    have ha' := hlast a
    simp only [List.flatMap_append, List.count_append] at ha ha' ⊢
    omega
  · rw [List.flatMap_append, List.flatMap_append, List.append_assoc, h'.arrived,
      ← List.append_assoc, h.arrived, List.append_assoc]

/-- A retrieval that starts seeks a permit. -/
theorem spawn (s : Schedule) (r : Retrieval) : Balance s [.spawned r] (s.spawn r) := by
  refine ⟨?_, ?_, ?_⟩
  · classical
    rw [List.perm_iff_count]
    intro a
    simp only [seeking, Schedule.spawn, Occurrence.grants, Occurrence.spawns, List.flatMap_cons,
      List.flatMap_nil, List.filter_append, List.filter_cons, List.filter_nil, Stage.holds,
      Bool.not_false, if_true, List.map_append, List.map_cons, List.map_nil, List.count_append,
      List.count_cons, List.count_nil]
    omega
  · simp [Occurrence.senders, Occurrence.grants, holding, Schedule.spawn, Stage.holds]
  · simp [Occurrence.takings, Occurrence.deliveries, Schedule.spawn]

/-- The oldest delivery is taken first. -/
theorem take {arrival : Arrival} {rest : List Arrival} (h : s.arrived = arrival :: rest) :
    Balance s [.taken arrival] { s with arrived := rest } := by
  refine ⟨.refl _, .refl _, ?_⟩
  simp [Occurrence.takings, Occurrence.deliveries, h]

end Balance

/-! ## Moves -/

/-- One thing that may happen next. -/
inductive Move : Schedule × Medium → Occurrence → Schedule × Medium → Prop where
  | grant {s : Schedule} {m : Medium} {r : Retrieval} {before after : List (Stage × Retrieval)}
      (runnable : s.runnable = before ++ (.fresh, r) :: after) (free : 0 < s.permits) :
      Move (s, m) (.granted r)
        ({ s with
            permits := s.permits - 1
            runnable := before ++ (.granted, r) :: after }, m)
  | queue {s : Schedule} {m : Medium} {r : Retrieval} {before after : List (Stage × Retrieval)}
      (runnable : s.runnable = before ++ (.fresh, r) :: after) (none : s.permits = 0) :
      Move (s, m) (.queued r)
        ({ s with
            runnable := before ++ after
            waiting := s.waiting ++ [r] }, m)
  | sleep {s : Schedule} {m : Medium} {r : Retrieval} {before after : List (Stage × Retrieval)}
      {d : Nat} (runnable : s.runnable = before ++ (.granted, r) :: after)
      (latency : m.latency? r.location = some d) :
      Move (s, m) (.slept r)
        ({ s with
            runnable := before ++ after
            sleeping := s.sleeping ++ [(s.clock + d, r)] }, m)
  | send {s : Schedule} {m : Medium} {stage : Stage} {r : Retrieval}
      {before after : List (Stage × Retrieval)}
      (runnable : s.runnable = before ++ (stage, r) :: after)
      (ready : stage = .woken ∨ stage = .granted ∧ m.latency? r.location = none) :
      Move (s, m) (.sent r (m.content r.location) s.waiting.head?)
        ({ s with runnable := before ++ after }.finish m r)
  | wake {s s' : Schedule} {m : Medium} (woken : s.wake = some s') : Move (s, m) .woke (s', m)
  | rouse {s : Schedule} {m : Medium} {n time : Nat} {r : Retrieval}
      (sleeping : s.sleeping[n]? = some (time, r)) : Move (s, m) (.roused r) (s.rouse n, m)

/-- A task that can go on to its delivery holds a permit. -/
theorem holds_of_ready {stage : Stage} {p : Prop} (h : stage = .woken ∨ stage = .granted ∧ p) :
    stage.holds = true := by
  rcases h with rfl | ⟨rfl, -⟩ <;> rfl

/-- Any number of moves. -/
abbrev Moves : Schedule × Medium → List Occurrence → Schedule × Medium → Prop := Trace Move

namespace Move

variable {a b : Schedule × Medium} {event : Occurrence}

/-- A move leaves less to do. -/
theorem work_lt (h : Move a event b) : b.1.work < a.1.work := by
  cases h with
  | grant runnable free =>
    simp only [work, runnable, totalWeight_append, totalWeight, Stage.weight]
    omega
  | queue runnable none =>
    simp only [work, runnable, totalWeight_append, totalWeight, Stage.weight, List.length_append,
      List.length_singleton]
    omega
  | sleep runnable latency =>
    simp only [work, runnable, totalWeight_append, totalWeight, Stage.weight, List.length_append,
      List.length_singleton]
    omega
  | @send s m stage r before after runnable ready =>
    have hfinish := { s with runnable := before ++ after }.work_finish_le m r
    have hweight : 2 ≤ stage.weight := by
      cases stage <;> decide
    simp only [work, runnable, totalWeight_append, totalWeight] at hfinish ⊢
    omega
  | wake woken => exact work_wake_lt woken
  | @rouse s m n time r sleeping =>
    have hsplit := eq_take_append_drop sleeping
    simp only [Schedule.rouse, sleeping]
    generalize s.sleeping.take n = before at hsplit ⊢
    generalize s.sleeping.drop (n + 1) = after at hsplit ⊢
    simp only [work, hsplit, totalWeight_append, totalWeight, Stage.weight, List.length_append,
      List.length_cons]
    omega

/-- The permits are accounted for after every move. -/
theorem sound {most : Nat} (h : Move a event b) (hs : a.1.Sound most) : b.1.Sound most := by
  cases h with
  | @grant s m r before after runnable free =>
    have hall : s.permits + s.held = most := hs.permits_add_held
    refine ⟨?_, fun hne => ?_⟩
    · simp only [held, runnable, List.countP_append, List.countP_cons, Stage.holds,
        Bool.false_eq_true, if_false, if_true] at hall ⊢
      omega
    · have hzero : s.permits = 0 := hs.saturated hne
      omega
  | @queue s m r before after runnable none =>
    have hall : s.permits + s.held = most := hs.permits_add_held
    refine ⟨?_, fun _ => none⟩
    simp only [held, runnable, List.countP_append, List.countP_cons, Stage.holds,
      Bool.false_eq_true, if_false] at hall ⊢
    omega
  | @sleep s m r before after d runnable latency =>
    have hall : s.permits + s.held = most := hs.permits_add_held
    refine ⟨?_, hs.saturated⟩
    simp only [held, runnable, List.countP_append, List.countP_cons, Stage.holds, if_true,
      List.length_append, List.length_singleton] at hall ⊢
    omega
  | @send s m stage r before after runnable ready =>
    have hall : s.permits + s.held = most := hs.permits_add_held
    have hheld := held_of_runnable runnable
    rw [holds_of_ready ready, Bool.toNat_true] at hheld
    refine finish_sound m r ?_ hs.saturated
    show s.permits + _ + 1 = most
    omega
  | wake woken => exact hs.wake woken
  | rouse sleeping => exact hs.rouse _

end Move

/-! ### Books of one move -/

/-- A task that is ready to run has its retrieval among those with a permit, if it holds one. -/
theorem holding_of_runnable {s : Schedule} {stage : Stage} {r : Retrieval}
    {before after : List (Stage × Retrieval)} (h : s.runnable = before ++ (stage, r) :: after) :
    s.holding.Perm ((if stage.holds then [r] else []) ++
      { s with runnable := before ++ after }.holding) := by
  simp only [holding, h, List.filter_append, List.filter_cons]
  split
  · simp only [List.map_append, List.map_cons, List.append_assoc, List.cons_append]
    exact List.perm_middle
  · exact .refl _

/-- A task that is ready to run has its retrieval among those without a permit, if it holds none. -/
theorem seeking_of_runnable {s : Schedule} {stage : Stage} {r : Retrieval}
    {before after : List (Stage × Retrieval)} (h : s.runnable = before ++ (stage, r) :: after) :
    s.seeking.Perm ((if !stage.holds then [r] else []) ++
      { s with runnable := before ++ after }.seeking) := by
  simp only [seeking, h, List.filter_append, List.filter_cons]
  split
  · simp only [List.map_append, List.map_cons, List.append_assoc, List.cons_append]
    exact List.perm_middle
  · exact .refl _

/-- The permit that a delivery gives back goes to the first retrieval in the queue. -/
theorem balance_release (s : Schedule) :
    (s.waiting.head?.toList ++ s.release.seeking).Perm s.seeking ∧
      s.release.holding.Perm (s.waiting.head?.toList ++ s.holding) := by
  unfold release
  split
  · rename_i hnil
    show (s.waiting.head?.toList ++ s.seeking).Perm s.seeking ∧
      s.holding.Perm (s.waiting.head?.toList ++ s.holding)
    rw [hnil]
    exact ⟨.refl _, .refl _⟩
  · rename_i r rest hcons
    classical
    simp only [List.perm_iff_count, ← forall_and]
    intro a
    simp only [seeking, holding, hcons, List.head?_cons, Option.toList_some, List.filter_append,
      List.map_append, List.count_append, List.filter_cons, List.filter_nil, Stage.holds,
      Bool.not_true, Bool.false_eq_true, if_false, if_true, List.map_cons, List.map_nil,
      List.count_cons, List.count_nil]
    omega

/-- Those woken have kept their permits. -/
theorem balance_wake {s s' : Schedule} (h : s.wake = some s') :
    s'.seeking = s.seeking ∧ s'.holding.Perm s.holding ∧ s'.arrived = s.arrived := by
  unfold Schedule.wake at h
  split at h
  · cases h
  · rename_i t _
    cases h
    refine ⟨?_, ?_, rfl⟩
    · simp [seeking, List.filter_map, Function.comp_def, Stage.holds]
    · have hsplit :=
        (List.filter_append_perm (fun e : Nat × Retrieval => e.1 == t) s.sleeping).map (·.2)
      rw [List.map_append] at hsplit
      simp only [holding, List.filter_append, List.filter_map, Function.comp_def, Stage.holds,
        List.filter_true, List.map_append, List.map_map, List.append_assoc]
      exact hsplit.append_left _

/-- Rousing a sleeping task changes nothing of what is held, sought and delivered. -/
theorem balance_rouse {s : Schedule} {n time : Nat} {r : Retrieval}
    (h : s.sleeping[n]? = some (time, r)) : (s.rouse n).seeking = s.seeking ∧
      (s.rouse n).holding.Perm s.holding ∧ (s.rouse n).arrived = s.arrived := by
  have hsplit := eq_take_append_drop h
  simp only [Schedule.rouse, h]
  generalize s.sleeping.take n = before at hsplit ⊢
  generalize s.sleeping.drop (n + 1) = after at hsplit ⊢
  refine ⟨by simp [seeking, Stage.holds], ?_, trivial⟩
  simp only [holding, hsplit, List.filter_append, List.filter_cons, List.filter_nil, Stage.holds,
    if_true, List.map_append, List.map_cons, List.map_nil, List.append_assoc, List.singleton_append]
  exact List.perm_middle.symm.append_left _

namespace Move

variable {a b : Schedule × Medium} {event : Occurrence}

/-- A move keeps the books. -/
theorem balance (h : Move a event b) : Balance a.1 [event] b.1 := by
  cases h with
  | @grant s m r before after runnable free =>
    let s' : Schedule := { s with
      permits := s.permits - 1
      runnable := before ++ (.granted, r) :: after }
    have hnext : s'.runnable = before ++ (.granted, r) :: after := rfl
    refine ⟨?_, ?_, (List.append_nil _).symm⟩
    · show (r :: s'.seeking).Perm s.seeking
      exact ((seeking_of_runnable hnext).cons r).trans (seeking_of_runnable runnable).symm
    · show s'.holding.Perm (r :: s.holding)
      exact (holding_of_runnable hnext).trans ((holding_of_runnable runnable).symm.cons r)
  | @queue s m r before after runnable none =>
    refine ⟨?_, ?_, (List.append_nil _).symm⟩
    · show (_ ++ (s.waiting ++ [r])).Perm s.seeking
      rw [← List.append_assoc]
      exact (List.perm_append_singleton r _).trans (seeking_of_runnable runnable).symm
    · exact (holding_of_runnable runnable).symm
  | @sleep s m r before after d runnable latency =>
    refine ⟨?_, ?_, (List.append_nil _).symm⟩
    · exact (seeking_of_runnable runnable).symm
    · show (_ ++ (s.sleeping ++ [(s.clock + d, r)]).map (·.2)).Perm s.holding
      rw [List.map_append, ← List.append_assoc]
      exact (List.perm_append_singleton r _).trans (holding_of_runnable runnable).symm
  | @send s m stage r before after runnable ready =>
    obtain ⟨hseeking, hholding⟩ := { s with runnable := before ++ after }.balance_release
    have hwithout := seeking_of_runnable runnable
    have hgone := holding_of_runnable runnable
    have harrived : { s with runnable := before ++ after }.release.arrived = s.arrived := by
      unfold release
      split <;> rfl
    rw [holds_of_ready ready] at hwithout hgone
    refine ⟨?_, ?_, ?_⟩
    · show (s.waiting.head?.toList ++ [] ++ _).Perm s.seeking
      rw [List.append_nil]
      exact hseeking.trans hwithout.symm
    · show (r :: _).Perm (s.waiting.head?.toList ++ [] ++ s.holding)
      rw [List.append_nil]
      exact (hholding.cons r).trans
        (List.perm_middle.symm.trans (hgone.symm.append_left s.waiting.head?.toList))
    · show _ ++ (_ ++ _) = _
      rw [harrived]
      rfl
  | wake woken =>
    obtain ⟨hseeking, hholding, harrived⟩ := balance_wake woken
    exact ⟨.of_eq hseeking, hholding, harrived.trans (List.append_nil _).symm⟩
  | rouse sleeping =>
    obtain ⟨hseeking, hholding, harrived⟩ := balance_rouse sleeping
    exact ⟨.of_eq hseeking, hholding, harrived.trans (List.append_nil _).symm⟩

end Move

/-! ## The turns of a schedule are moves -/

/-- A task that begins with its permit makes one move. -/
theorem exists_move_begin {s : Schedule} (m : Medium) {r : Retrieval}
    {before after : List (Stage × Retrieval)} (h : s.runnable = before ++ (.granted, r) :: after) :
    ∃ event, Move (s, m) event ({ s with runnable := before ++ after }.begin m r) := by
  unfold begin
  split
  · rename_i d hlatency
    exact ⟨_, .sleep h hlatency⟩
  · rename_i hlatency
    exact ⟨_, .send h (.inr ⟨rfl, hlatency⟩)⟩

/-- A turn of a task, wherever it stands, is a number of moves. -/
theorem exists_moves_runAt {s : Schedule} (m : Medium) {stage : Stage} {r : Retrieval}
    {before after : List (Stage × Retrieval)} (h : s.runnable = before ++ (stage, r) :: after) :
    ∃ events, Moves (s, m) events ({ s with runnable := before ++ after }.runTask m stage r) := by
  cases stage with
  | fresh =>
    simp only [runTask]
    split
    · rename_i hfree
      have hnext : { s with
          permits := s.permits - 1
          runnable := before ++ (Stage.granted, r) :: after }.runnable =
            before ++ (Stage.granted, r) :: after := rfl
      obtain ⟨event, hmove⟩ := exists_move_begin m hnext
      exact ⟨_, .cons (.grant h hfree) (.single hmove)⟩
    · rename_i hnone
      exact ⟨_, .single (.queue h (Nat.eq_zero_of_not_pos hnone))⟩
  | granted =>
    obtain ⟨event, hmove⟩ := exists_move_begin m h
    exact ⟨_, .single hmove⟩
  | woken => exact ⟨_, .single (.send h (.inl rfl))⟩

/-- A turn of any task is a number of moves. -/
theorem exists_moves_turn (s : Schedule) (m : Medium) (n : Nat) :
    ∃ events, Moves (s, m) events (s.turn m n) := by
  unfold turn
  split
  · exact ⟨[], .nil _⟩
  · rename_i stage r h
    exact exists_moves_runAt m (eq_take_append_drop h)

/-- Rousing any sleeping task is a number of moves. -/
theorem exists_moves_rouse (s : Schedule) (m : Medium) (n : Nat) :
    ∃ events, Moves (s, m) events (s.rouse n, m) := by
  cases h : s.sleeping[n]? with
  | none =>
    rw [rouse, h]
    exact ⟨[], .nil _⟩
  | some sleeper => exact ⟨_, .single (.rouse h)⟩

/-- Running is a number of moves. -/
theorem exists_moves_run (s : Schedule) (m : Medium) :
    ∃ events, Moves (s, m) events (s.run m) := by
  fun_induction run s m with
  | case1 s m h => exact ⟨[], .nil _⟩
  | case2 s m stage r rest h next ih =>
    have hfirst : s.runnable = [] ++ (stage, r) :: rest := h
    obtain ⟨events, hmoves⟩ := exists_moves_runAt m hfirst
    obtain ⟨more, hrest⟩ := ih
    exact ⟨events ++ more, hmoves.append hrest⟩

/-- Waiting for a delivery is a number of moves. -/
theorem exists_moves_await (s : Schedule) (m : Medium) :
    ∃ events, Moves (s, m) events (s.await m) := by
  fun_induction await s m with
  | case1 s m next _ h => exact s.exists_moves_run m
  | case2 s m next _ s' h ih =>
    obtain ⟨events, hrun⟩ := s.exists_moves_run m
    obtain ⟨more, hrest⟩ := ih
    exact ⟨events ++ .woke :: more, hrun.append (.cons (.wake h) hrest)⟩
  | case3 s m next _ => exact s.exists_moves_run m

end Schedule

end ModuleLoader
