import GreenThreads.Proofs.Placement

/-!
# GreenThreads.Proofs.Skipping

What the two switching operations do to a scheduler that may be in any state.

Where every thread is in its place, whoever is at the front of the ready queue
can be switched to.  The operations do not rely on that: they pass over
threads that cannot be, and count them among the zombies.

* `nextRunnable_eq` — what the search makes of a queue, in terms of the
  threads it passes over and the ones it leaves;
* `rotate_or_retire` — both operations, for every scheduler.
-/

namespace GreenThreads.Scheduler

/-! ## the search -/

/-- The threads at the front of the ready queue that cannot be switched to. -/
def passedOver (s : Scheduler) : List Thread := s.ready.takeWhile fun t => !t.isRunnable

/-- The ready queue from the first thread on that can be switched to. -/
def candidates (s : Scheduler) : List Thread := s.ready.dropWhile fun t => !t.isRunnable

theorem ready_eq_append (s : Scheduler) : s.ready = s.passedOver ++ s.candidates :=
  List.takeWhile_append_dropWhile.symm

theorem not_isRunnable_of_mem_passedOver {s : Scheduler} (h : t ∈ s.passedOver) :
    t.isRunnable = false := by
  simpa using List.all_eq_true.mp List.all_takeWhile t h

theorem isRunnable_of_candidates {s : Scheduler} (h : s.candidates = n :: rest) :
    n.isRunnable = true := by
  have hhead := List.head?_dropWhile_not (fun t => !t.isRunnable) s.ready
  rw [← candidates, h] at hhead
  simpa using hhead

/-- The search stops at the first thread that can be switched to. -/
theorem nextRunnable_eq (queue zombies : List Thread) :
    nextRunnable queue zombies =
      ((queue.dropWhile fun t => !t.isRunnable).head?,
        (queue.dropWhile fun t => !t.isRunnable).tail,
        zombies ++ queue.takeWhile fun t => !t.isRunnable) := by
  induction queue generalizing zombies with
  | nil => simp [nextRunnable]
  | cons t rest ih =>
      cases ht : t.isRunnable with
      | true => simp [nextRunnable, ht]
      | false => simp [nextRunnable, ht, ih]

/-- The books once the threads passed over are among the zombies, with `ready`
left of the queue. -/
def skipTo (ready : List Thread) (s : Scheduler) : Scheduler :=
  { s with ready, zombies := s.zombies ++ s.passedOver }

theorem popRunnable_eq (s : Scheduler) :
    s.popRunnable = (s.candidates.head?, s.skipTo s.candidates.tail) := by
  rw [popRunnable, nextRunnable_eq]
  rfl

theorem popNext_of_no_candidate {s : Scheduler} (h : s.candidates = []) :
    s.popNext = (none, s.skipTo []) := by
  rw [popNext_eq, popRunnable_eq, h]
  rfl

/-- The thread that is taken is left as it is. -/
theorem popNext_of_candidates {s : Scheduler} (h : s.candidates = n :: rest) :
    ∃ load, n.registers? = some load ∧ s.popNext = (some (n, load), s.skipTo rest) := by
  obtain ⟨load, hload⟩ := Thread.exists_registers (isRunnable_of_candidates h)
  refine ⟨load, hload, ?_⟩
  rw [popNext_eq, popRunnable_eq, h, List.head?_cons, Option.bind_some, hload]
  rfl

/-! ## the two operations -/

theorem rotate_of_no_context {s : Scheduler} (hc : s.current = some c)
    (hcontext : c.context = none) : s.rotate = (none, s) := by
  simp [rotate, hc, Thread.registers?, hcontext]

theorem rotate_of_no_candidate {s : Scheduler} (hc : s.current = some c)
    (hcontext : c.context.isSome) (h : s.candidates = []) : s.rotate = (none, s.skipTo []) := by
  obtain ⟨save, hsave⟩ := Option.isSome_iff_exists.mp (c.isSome_registers?.trans hcontext)
  simp [rotate, hc, hsave, popNext_of_no_candidate h]

theorem rotate_of_candidates {s : Scheduler} (hc : s.current = some c)
    (hcontext : c.context.isSome) (h : s.candidates = n :: rest) :
    ∃ save load, c.registers? = some save ∧ n.registers? = some load ∧
      s.rotate = (some ⟨save, load⟩, { s.skipTo (rest ++ [c]) with current := some n }) := by
  obtain ⟨save, hsave⟩ := Option.isSome_iff_exists.mp (c.isSome_registers?.trans hcontext)
  obtain ⟨load, hload, hpop⟩ := popNext_of_candidates h
  exact ⟨save, load, hsave, hload, by simp [rotate, hc, hsave, hpop, skipTo]⟩

theorem retire_of_no_candidate {s : Scheduler} (hc : s.current = some c) (h : s.candidates = []) :
    s.retire v = (none, s.skipTo []) := by
  simp [retire, hc, popNext_of_no_candidate h]

theorem retire_of_candidates {s : Scheduler} (hc : s.current = some c)
    (h : s.candidates = n :: rest) :
    ∃ load, n.registers? = some load ∧
      s.retire v =
        (some load,
          { s with
            current := some n
            ready := rest
            zombies := s.zombies ++ s.passedOver ++ [c.finish v]
            retired := s.retired ++ c.stack?.toList }) := by
  obtain ⟨load, hload, hpop⟩ := popNext_of_candidates h
  exact ⟨load, hload, by simp [retire, hc, hpop, skipTo]⟩

/-! ## no thread is lost -/

theorem length_ready (s : Scheduler) :
    s.ready.length = s.passedOver.length + s.candidates.length := by
  rw [← List.length_append, ← ready_eq_append]

theorem count_ready (s : Scheduler) (t : Thread) :
    s.ready.count t = s.passedOver.count t + s.candidates.count t := by
  rw [← List.count_append, ← ready_eq_append]

/-- When the search finds nobody, all that is ready goes to the zombies. -/
theorem threads_skipTo_perm {s : Scheduler} (h : s.candidates = []) :
    (s.skipTo []).threads.Perm s.threads := by
  rw [List.perm_iff_count]
  intro t
  have hready := s.count_ready t
  simp only [h, List.count_nil] at hready
  simp only [threads, skipTo, List.count_append, List.count_nil]
  omega

/-- A rotation moves threads and changes none, nor does it need a longer queue. -/
theorem rotate_conserves (s : Scheduler) :
    s.rotate.2.threads.Perm s.threads ∧ s.rotate.2.ready.length ≤ s.ready.length := by
  cases hc : s.current with
  | none =>
      rw [rotate_of_none hc]
      exact ⟨.refl _, Nat.le_refl _⟩
  | some c =>
      cases hcontext : c.context with
      | none =>
          rw [rotate_of_no_context hc hcontext]
          exact ⟨.refl _, Nat.le_refl _⟩
      | some context =>
          have hsome : c.context.isSome := Option.isSome_of_eq_some hcontext
          cases hcand : s.candidates with
          | nil =>
              rw [rotate_of_no_candidate hc hsome hcand]
              exact ⟨threads_skipTo_perm hcand, Nat.zero_le _⟩
          | cons n rest =>
              obtain ⟨save, load, -, -, hrotate⟩ := rotate_of_candidates hc hsome hcand
              rw [hrotate]
              constructor
              · rw [List.perm_iff_count]
                intro t
                have hready := s.count_ready t
                simp only [hcand, List.count_cons] at hready
                simp only [threads, skipTo, hc, List.count_append, List.count_cons,
                  List.count_nil, Option.toList_some]
                omega
              · have hlength := s.length_ready
                simp only [hcand, List.length_cons] at hlength
                simp only [skipTo, List.length_append, List.length_cons, List.length_nil]
                omega

/-- The threads there are once the current one has finished. -/
def threadsFinished (value : Word) (s : Scheduler) : List Thread :=
  (s.current.map (Thread.finish value)).toList ++ s.ready ++ s.zombies

/-- Ending the current thread changes its descriptor and no other, and none if
there is nobody to go on with. -/
theorem retire_conserves (s : Scheduler) (v : Word) :
    (s.retire v).2.threads.Perm
        (if (s.retire v).1.isSome then s.threadsFinished v else s.threads) ∧
      (s.retire v).2.ready.length ≤ s.ready.length := by
  cases hc : s.current with
  | none =>
      rw [retire_of_none hc]
      exact ⟨.refl _, Nat.le_refl _⟩
  | some c =>
      cases hcand : s.candidates with
      | nil =>
          rw [retire_of_no_candidate hc hcand]
          exact ⟨threads_skipTo_perm hcand, Nat.zero_le _⟩
      | cons n rest =>
          obtain ⟨load, -, hretire⟩ := retire_of_candidates (v := v) hc hcand
          rw [hretire]
          constructor
          · rw [Option.isSome_some, if_pos rfl, List.perm_iff_count]
            intro t
            have hready := s.count_ready t
            simp only [hcand, List.count_cons] at hready
            simp only [threads, threadsFinished, hc, List.count_append, List.count_cons,
              List.count_nil, Option.toList_some, Option.map_some]
            omega
          · have hlength := s.length_ready
            simp only [hcand, List.length_cons] at hlength
            simp only
            omega

/-! ## every scheduler -/

/-- What a rotation and a retirement do, whatever state the scheduler is in.
The threads at the front of the queue that cannot be switched to go to the
zombies in their order, and the first of the others becomes current.  Its
registers are loaded; a rotation saves to those of the thread that it queues, and
a retirement leaves a thread that has finished with `v`. -/
theorem rotate_and_retire_skip (s : Scheduler) (v : Word) :
    (s.ready = s.passedOver ++ s.candidates ∧ (∀ t ∈ s.passedOver, ¬ t.isRunnable) ∧
      ∀ n rest, s.candidates = n :: rest → n.isRunnable) ∧
    ((s.current = none → s.rotate = (none, s)) ∧
      ∀ c, s.current = some c →
        (c.context = none → s.rotate = (none, s)) ∧
        (c.context.isSome → s.candidates = [] →
          s.rotate = (none, { s with ready := [], zombies := s.zombies ++ s.passedOver })) ∧
        ∀ n rest, c.context.isSome → s.candidates = n :: rest →
          ∃ save load, c.registers? = some save ∧ n.registers? = some load ∧
            s.rotate = (some ⟨save, load⟩,
              { s with
                current := some n
                ready := rest ++ [c]
                zombies := s.zombies ++ s.passedOver })) ∧
    ((s.current = none → s.retire v = (none, s)) ∧
      ∀ c, s.current = some c →
        (s.candidates = [] →
          s.retire v = (none, { s with ready := [], zombies := s.zombies ++ s.passedOver })) ∧
        (∀ n rest, s.candidates = n :: rest →
          ∃ load, n.registers? = some load ∧
            s.retire v = (some load,
              { s with
                current := some n
                ready := rest
                zombies := s.zombies ++ s.passedOver ++ [c.finish v]
                retired := s.retired ++ c.stack?.toList })) ∧
        (c.finish v).id = c.id ∧ (c.finish v).exitStatus = some (.returned v)) ∧
    (s.rotate.2.threads.Perm s.threads ∧ s.rotate.2.ready.length ≤ s.ready.length) ∧
    (s.retire v).2.threads.Perm
        (if (s.retire v).1.isSome then s.threadsFinished v else s.threads) ∧
      (s.retire v).2.ready.length ≤ s.ready.length := by
  refine ⟨⟨s.ready_eq_append, fun t ht => ?_, fun n rest h => ?_⟩, ⟨rotate_of_none, fun c hc => ?_⟩,
    ⟨retire_of_none, fun c hc => ?_⟩, s.rotate_conserves, s.retire_conserves v⟩
  · rw [not_isRunnable_of_mem_passedOver ht]
    exact Bool.false_ne_true
  · exact isRunnable_of_candidates h
  · exact ⟨rotate_of_no_context hc, rotate_of_no_candidate hc,
      fun n rest => rotate_of_candidates hc⟩
  · exact ⟨retire_of_no_candidate hc, fun n rest => retire_of_candidates hc, c.id_finish,
      c.exitStatus_finish⟩

/-- A thread that has finished and one that was cancelled are passed over,
though no operation puts either into the ready queue. -/
theorem rotate_and_retire_skip_ended :
    let c := Thread.hosted ⟨1⟩
    let dead := [(Thread.hosted ⟨2⟩).finish 7, (Thread.hosted ⟨3⟩).cancel]
    let n := Thread.create ⟨4⟩ ⟨0, .native⟩ 5 ⟨0, 4096, 8192⟩
    let s : Scheduler := { current := some c, ready := dead ++ [n] }
    let load : Registers := ⟨⟨4⟩, .own ⟨0, 4096, 8192⟩⟩
    s.rotate =
        (some ⟨⟨⟨1⟩, .host⟩, load⟩, { current := some n, ready := [c], zombies := dead }) ∧
      s.retire 9 = (some load, { current := some n, zombies := dead ++ [c.finish 9] }) ∧
      (c.finish 9).exitStatus = some (.returned 9) := by
  intro c dead n s load
  obtain ⟨-, ⟨-, hrotate⟩, ⟨-, hretire⟩, -⟩ := rotate_and_retire_skip s 9
  obtain ⟨save, load', hsave, hload, hrotated⟩ := (hrotate c rfl).2.2 n [] rfl rfl
  obtain rfl := Option.some.inj hsave
  obtain rfl := Option.some.inj hload
  obtain ⟨-, hretired, -, hstatus⟩ := hretire c rfl
  obtain ⟨load', hload, hretired⟩ := hretired n [] rfl
  obtain rfl := Option.some.inj hload
  exact ⟨hrotated, hretired, hstatus⟩

end GreenThreads.Scheduler
