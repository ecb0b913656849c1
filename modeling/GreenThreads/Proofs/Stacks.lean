import GreenThreads.Proofs.Ledger

/-!
# GreenThreads.Proofs.Stacks

Every stack is accounted for.  Each thread that was made has a stack of its
own from the call that makes it until it ends, and gives it back once:

* a thread that is cancelled, in the step in which it is;
* a thread that exits, in the turn of the thread that resumes next.  Until
  then its stack is set aside, for the thread itself is still running on it.

The main statement is `stacks_accounted`.
-/

namespace GreenThreads

/-! ## mappings over time -/

/-- Every stack that has been mapped since has a number beyond all that had been
given out. -/
structure StackPool.Grows (p q : StackPool) : Prop where
  made : p.made ≤ q.made
  mapped : ∀ s ∈ q.mapped, s ∈ p.mapped ∨ p.made ≤ s.number

namespace StackPool

variable {p q r : StackPool}

theorem Grows.refl (p : StackPool) : p.Grows p := ⟨Nat.le_refl _, fun _ hs => .inl hs⟩

theorem Grows.trans (h : p.Grows q) (h' : q.Grows r) : p.Grows r where
  made := Nat.le_trans h.made h'.made
  mapped s hs := by
    cases h'.mapped s hs with
    | inl hold => exact h.mapped s hold
    | inr hnew => exact .inr (Nat.le_trans h.made hnew)

theorem grows_release (p : StackPool) (freed : List Stack) : p.Grows (p.release freed) :=
  ⟨Nat.le_refl _, fun _ hs => .inl (mem_release.mp hs).1⟩

theorem grows_of_map (h : p.map bytes = (.ok s, q)) : p.Grows q := by
  obtain ⟨hnumber, rfl⟩ := map_of_ok h
  constructor
  · exact Nat.le_succ _
  · intro t ht
    rw [push, List.mem_append, List.mem_singleton] at ht
    cases ht with
    | inl hold => exact .inl hold
    | inr heq => exact .inr (Nat.le_of_eq (by rw [heq, hnumber]))

/-- A stack that was given back is not mapped again. -/
theorem Grows.notMem {s : Stack} (h : q.Grows r) (hs : s.number < q.made) (hq : s ∉ q.mapped) :
    s ∉ r.mapped := by
  intro hr
  cases h.mapped s hr with
  | inl hold => exact hq hold
  | inr hnew => omega

end StackPool

/-! ## what a step gives back -/

namespace Process

variable {τ : Transcript} {p q : Process} {c : Thread} {move : Move}

/-- The stacks that are given back when a move is made: those set aside, in a
turn, and that of a thread that is cancelled while it is ready. -/
def givesBack (p : Process) : Move → List Stack
  | .turn => p.scheduler.retired
  | .call (.cancel id) => ((p.scheduler.ready.find? fun t => t.id = id).bind Thread.stack?).toList
  | _ => []

theorem givesBack_cancel (hp : p.Books c) (ht : t ∈ p.scheduler.ready) :
    p.givesBack (.call (.cancel t.id)) = t.stack?.toList := by
  rw [givesBack, hp.placed.find?_ready ht]
  rfl

theorem givesBack_call_of_ne {call : Call}
    (h : ∀ t ∈ p.scheduler.ready, call ≠ .cancel t.id) : p.givesBack (.call call) = [] := by
  cases call with
  | cancel id =>
      have hnone : p.scheduler.ready.find? (fun t => t.id = id) = none := by
        rw [List.find?_eq_none]
        intro t ht
        have hne := h t ht
        simp_all [eq_comm]
      rw [givesBack, hnone]
      rfl
  | _ => rfl

theorem Proceeds.pool_eq {call : Option Call} (hq : p.Proceeds c call q) : q.pool = p.pool := by
  cases hq with
  | answered _ hq => exact hq.books.pool
  | paused _ _ _ hq => exact hq.pool
  | stopped _ hpool => exact hpool

theorem EarlyEffect.pool_eq {call : Call} (hq : p.EarlyEffect call q) : q.pool = p.pool := by
  cases hq with
  | answered _ hq => exact hq.books.pool
  | overflowed _ _ hq => rw [hq]
  | starts _ hq => exact hq.pool
  | stopped _ hpool => exact hpool

/-- A call maps a stack, or gives back what it has to. -/
theorem Idle.pool_perform (hp : p.Idle c) (call : Call) :
    (p.perform call).pool = p.pool.release (p.givesBack (.call call)) ∨
      p.givesBack (.call call) = [] ∧
        ∃ stack, p.pool.map p.scheduler.stackSize = (.ok stack, (p.perform call).pool) := by
  by_cases hready : ∃ t ∈ p.scheduler.ready, call = .cancel t.id
  · obtain ⟨t, ht, rfl⟩ := hready
    rw [givesBack_cancel hp.books ht]
    exact .inl (hp.cancels_of_ready ht).pool
  · have hnone : p.givesBack (.call call) = [] :=
      givesBack_call_of_ne fun t ht hcall => hready ⟨t, ht, hcall⟩
    rw [hnone, StackPool.release_nil]
    cases hp.performs call with
    | answered _ _ hq => exact .inl hq.books.pool
    | proceeds _ hq => exact .inl hq.pool_eq
    | creates _ hq => exact .inr ⟨rfl, _, hq.mapped⟩
    | cancels hcall _ hq =>
        obtain ⟨_, t, _, hr, rfl, -, -⟩ :=
          Scheduler.exists_of_cancel hp.books.placed hq.scheduler
        exact absurd ⟨t, by simp [hr], hcall⟩ hready
    | retires _ _ hq => exact .inl hq.pool
    | stopped _ hpool => exact .inl hpool

/-- **What a step does to the mappings.** -/
theorem Run.pool_step (run : Run τ p) (h : p.Step move q) :
    q.pool = p.pool.release (p.givesBack move) ∨
      p.givesBack move = [] ∧
        ∃ stack, p.pool.map p.scheduler.stackSize = (.ok stack, q.pool) := by
  cases h with
  | call hclient call =>
      obtain ⟨-, ⟨hp, hquiet⟩ | ⟨c, hp⟩⟩ := run.consistent.client hclient
      · have hready : p.scheduler.ready = [] := by rw [hp.scheduler]
        have hnone : p.givesBack (.call call) = [] := givesBack_call_of_ne (by simp [hready])
        rw [hnone, StackPool.release_nil]
        exact .inl (hp.performs hquiet call).pool_eq
      · exact hp.pool_perform call
  | turn hsettled =>
      obtain ⟨-, c, -, hq⟩ := run.consistent.turn hsettled
      exact .inl hq.pool_eq
  | listen => exact .inl (StackPool.release_nil p.pool).symm

theorem Run.pool_grows (run : Run τ p) (h : p.Step move q) : p.pool.Grows q.pool := by
  cases run.pool_step h with
  | inl hreleased => rw [hreleased]; exact p.pool.grows_release _
  | inr hmapped =>
      obtain ⟨-, stack, hmap⟩ := hmapped
      exact StackPool.grows_of_map hmap

/-- What is given back belongs to a thread that is cancelled, or was set
aside. -/
theorem mem_givesBack_iff (hp : p.scheduler.Placed) {stack : Stack} :
    stack ∈ p.givesBack move ↔
      (∃ t ∈ p.scheduler.ready, t.stack? = some stack ∧ move = .call (.cancel t.id)) ∨
        move = .turn ∧ stack ∈ p.scheduler.retired := by
  constructor
  · intro hmem
    unfold givesBack at hmem
    split at hmem
    · exact .inr ⟨rfl, hmem⟩
    · next id =>
        obtain ⟨t, hfind, hstack⟩ := Option.bind_eq_some_iff.mp (Option.mem_toList.mp hmem)
        have hid : t.id = id := by simpa using List.find?_some hfind
        exact .inl ⟨t, List.mem_of_find?_eq_some hfind, hstack, by rw [hid]⟩
    · simp at hmem
  · intro h
    rcases h with ⟨t, ht, hstack, rfl⟩ | ⟨rfl, hretired⟩
    · rw [givesBack, hp.find?_ready ht, Option.bind_some, hstack]
      exact List.mem_singleton_self stack
    · exact hretired

/-- The stacks of threads that have not ended are mapped, as are those set
aside. -/
theorem Books.mem_mapped_iff (hp : p.Books c) {stack : Stack} :
    stack ∈ p.pool.mapped ↔
      (∃ t ∈ p.scheduler.living, t.stack? = some stack) ∨ stack ∈ p.scheduler.retired := by
  rw [hp.mapped.mem_iff, List.mem_append, List.mem_filterMap]

/-- What is given back was mapped. -/
theorem Books.mapped_of_givesBack (hp : p.Books c) {stack : Stack}
    (h : stack ∈ p.givesBack move) : stack ∈ p.pool.mapped := by
  rw [hp.mem_mapped_iff]
  cases (mem_givesBack_iff hp.placed).mp h with
  | inl hcancelled =>
      obtain ⟨t, ht, hstack, -⟩ := hcancelled
      exact .inl ⟨t, List.mem_append_right _ ht, hstack⟩
  | inr hretired => exact .inr hretired.2

theorem Unstarted.mapped_of_givesBack (hp : p.Unstarted) {stack : Stack}
    (h : stack ∈ p.givesBack move) : stack ∈ p.pool.mapped := by
  rw [mem_givesBack_iff hp.placed, hp.scheduler] at h
  simp at h

/-- **A stack is given back** when its thread is cancelled, or in the turn after
its thread has exited. -/
theorem Run.released_iff (run : Run τ p) (h : p.Step move q) (stack : Stack) :
    stack ∈ p.pool.mapped ∧ stack ∉ q.pool.mapped ↔
      (∃ t ∈ p.scheduler.ready, t.stack? = some stack ∧ move = .call (.cancel t.id)) ∨
        move = .turn ∧ stack ∈ p.scheduler.retired := by
  have hreleased : stack ∈ p.pool.mapped ∧ stack ∉ q.pool.mapped ↔
      stack ∈ p.pool.mapped ∧ stack ∈ p.givesBack move := by
    cases run.pool_step h with
    | inl hreleased =>
        rw [hreleased, StackPool.mem_release]
        exact and_congr_right fun hmem => by simp [hmem]
    | inr hmapped =>
        obtain ⟨hnone, made, hmap⟩ := hmapped
        rw [hnone, StackPool.mapped_of_map hmap]
        simp only [List.mem_append, not_or, List.not_mem_nil, and_false, iff_false]
        exact fun hboth => hboth.2.1 hboth.1
  rw [hreleased]
  cases run.consistent with
  | early hp =>
      rw [← mem_givesBack_iff hp.placed]
      exact and_iff_right_of_imp hp.mapped_of_givesBack
  | idle hp =>
      rw [← mem_givesBack_iff hp.books.placed]
      exact and_iff_right_of_imp hp.books.mapped_of_givesBack
  | arriving hp =>
      rw [← mem_givesBack_iff hp.placed]
      exact and_iff_right_of_imp hp.mapped_of_givesBack
  | stopped hover =>
      cases h with
      | call hclient call => simp [hover] at hclient
      | turn hsettled => simp [isSettled, hover] at hsettled
      | listen => simp [givesBack]

theorem Run.grows_later (run : Run τ p) (h : p.Later q) : p.pool.Grows q.pool := by
  induction h with
  | refl => exact .refl _
  | tail hlater hstep ih =>
      obtain ⟨τ', run'⟩ := run.later hlater
      obtain ⟨move, hmove⟩ := hstep
      exact ih.trans (run'.pool_grows hmove)

/-- **A stack is given back once**: no later mapping is the same stack. -/
theorem Run.notMem_later {stack : Stack} (run : Run τ p) (h : p.Step move q)
    (hmem : stack ∈ p.pool.mapped) (hgone : stack ∉ q.pool.mapped) (hlater : q.Later r) :
    stack ∉ r.pool.mapped := by
  have hgrows := (run.step h).grows_later hlater
  have hbelow : stack.number < p.pool.made := by
    cases run.consistent with
    | early hp => simp [hp.mapped] at hmem
    | idle hp => exact hp.books.sound.below stack hmem
    | arriving hp => exact hp.sound.below stack hmem
    | stopped hover =>
        cases h with
        | call hclient call => simp [hover] at hclient
        | turn hsettled => simp [isSettled, hover] at hsettled
        | listen => exact absurd hmem hgone
  exact hgrows.notMem (Nat.lt_of_lt_of_le hbelow (run.pool_grows h).made) hgone

/-! ## what a step sets aside -/

theorem Proceeds.retired_eq {call : Option Call} (hp : p.Books c) (hq : p.Proceeds c call q)
    (hover : q.isOver = false) : q.scheduler.retired = p.scheduler.retired := by
  cases hq with
  | answered _ hq =>
      rw [hq.books.scheduler]
      rfl
  | @paused r n s _ _ _ hq =>
      have hbooks : (p.withCurrent (c.pausedAt r)).Books (c.pausedAt r) :=
        hp.setCurrent rfl rfl rfl
      obtain ⟨rest, -, heq⟩ := hbooks.exists_of_handsOver hq
      rw [heq]
      rfl
  | stopped h => simp [isOver, h] at hover

theorem EarlyEffect.retired_eq {call : Call} (hp : p.Unstarted) (hq : p.EarlyEffect call q)
    (hover : q.isOver = false) : q.scheduler.retired = [] := by
  have hnone : p.scheduler.retired = [] := by rw [hp.scheduler]
  cases hq with
  | answered _ hq => rw [hq.books.scheduler, hnone]
  | overflowed _ _ hq => rw [hq]; exact hnone
  | starts _ hq => rw [hq.scheduler]; rfl
  | stopped h => simp [isOver, h] at hover

/-- A thread that exits leaves its stack behind, and only that. -/
theorem CallEffect.setAside_iff {call : Call} {stack : Stack} (hp : p.Idle c)
    (hq : p.CallEffect c call q) (hover : q.isOver = false) :
    stack ∈ q.scheduler.retired ↔
      c.stack? = some stack ∧ c.id ≠ .initial ∧ (call.exitValue? c.id).isSome := by
  have hnone := hp.retired
  cases hq with
  | answered hexit _ hq =>
      rw [hq.books.scheduler, hnone, hexit]
      simp
  | proceeds hexit hq =>
      rw [hq.retired_eq hp.books hover, hnone]
      cases hexit with
      | inl hexit => simp [hexit]
      | inr hinitial => simp [hinitial]
  | creates hcall hq =>
      have heq : q.scheduler.retired = p.scheduler.retired := by rw [hq.scheduler]; rfl
      rw [heq, hnone, hcall]
      simp [Call.exitValue?]
  | cancels hcall hid hq =>
      obtain ⟨_, _, _, -, -, -, heq⟩ := Scheduler.exists_of_cancel hp.books.placed hq.scheduler
      rw [heq, hcall]
      simp [hnone, Call.exitValue?, hid]
  | retires hexit hinitial hq =>
      obtain ⟨rest, -, heq⟩ := hp.books.exists_of_retires hq
      rw [heq, hexit]
      simp [hnone, hinitial, Option.mem_toList]
  | stopped h => simp [isOver, h] at hover

/-- **A stack is set aside** when its thread exits. -/
theorem Run.setAside_iff (run : Run τ p) (h : p.Step move q) (hover : q.isOver = false)
    (stack : Stack) :
    stack ∈ q.scheduler.retired ∧ stack ∉ p.scheduler.retired ↔
      ∃ t call, p.scheduler.current = some t ∧ t.stack? = some stack ∧ t.id ≠ .initial ∧
        move = .call call ∧ (call.exitValue? t.id).isSome := by
  cases h with
  | call hclient call =>
      obtain ⟨-, ⟨hp, hquiet⟩ | ⟨c, hp⟩⟩ := run.consistent.client hclient
      · have hnone : p.scheduler.current = none := by rw [hp.scheduler]
        rw [(hp.performs hquiet call).retired_eq hp hover, hnone]
        simp
      · rw [(hp.performs call).setAside_iff hp hover, hp.retired, hp.books.current]
        simp
  | turn hsettled =>
      obtain ⟨-, c, hp, hq⟩ := run.consistent.turn hsettled
      have hnone : p.reap.scheduler.retired = [] := rfl
      rw [hq.retired_eq hp.reap hover, hnone]
      simp
  | listen => simp

/-! ## who has a stack -/

/-- The threads that were made and have not ended are those that have a stack
of their own. -/
theorem Ledger.mem_living_iff (hl : Ledger τ p) (hp : p.Books c) {id : ThreadId} :
    id ∈ τ.living ↔ ∃ t ∈ p.scheduler.living, t.id = id ∧ t.stack?.isSome := by
  have hnodup := hl.threads.nodup_iff.mp hp.placed.nodup
  have hthreads : id ∈ p.scheduler.ids ↔ p.host = some id ∨ id ∈ τ.created := by
    rw [hl.threads.mem_iff, List.mem_append, Option.mem_toList]
  have hended : id ∈ τ.ends.map Prod.fst ↔ id ∈ p.scheduler.zombies.map Thread.id := by
    rw [hl.ends, List.map_reverse, List.mem_reverse, hp.placed.map_fst_ended]
  have hplaces := hp.placed.nodup
  rw [Scheduler.ids, Scheduler.threads_eq, List.map_append] at hthreads hplaces
  rw [Transcript.living, List.mem_filter, decide_eq_true_eq, hended]
  constructor
  · intro h
    obtain ⟨hcreated, hnot⟩ := h
    have hmem := (List.mem_append.mp (hthreads.mpr (.inr hcreated))).resolve_right hnot
    obtain ⟨t, ht, rfl⟩ := List.mem_map.mp hmem
    refine ⟨t, ht, rfl, Option.isSome_iff_ne_none.mpr ?_⟩
    intro hnone
    have hhost := (hp.hosted t ht).mp hnone
    exact (List.nodup_append.mp hnodup).2.2 t.id (by simp [hhost]) t.id hcreated rfl
  · intro h
    obtain ⟨t, ht, rfl, hstack⟩ := h
    have hhost : p.host ≠ some t.id := fun hhost =>
      Option.isSome_iff_ne_none.mp hstack ((hp.hosted t ht).mpr hhost)
    have hmem : t.id ∈ p.scheduler.living.map Thread.id := List.mem_map_of_mem ht
    constructor
    · exact (hthreads.mp (List.mem_append_left _ hmem)).resolve_left hhost
    · intro hzombie
      exact (List.nodup_append.mp hplaces).2.2 t.id hmem t.id hzombie rfl

/-- While client code runs there are as many stacks as threads that were made
and have not ended. -/
theorem Ledger.live_eq (hl : Ledger τ p) (hp : p.Books c) (hretired : p.scheduler.retired = []) :
    p.pool.live = τ.living.length := by
  have hstacks : p.pool.live = (p.scheduler.living.filterMap Thread.stack?).length := by
    have hmapped := hp.mapped.length_eq
    rwa [hretired, List.append_nil] at hmapped
  have hcreated := (List.nodup_append.mp (hl.threads.nodup_iff.mp hp.placed.nodup)).2.1
  have howners : ((p.scheduler.living.filter fun t => t.stack?.isSome).map Thread.id).Nodup :=
    (List.filter_sublist.map Thread.id).nodup hp.placed.nodup_living
  have hperm : τ.living.Perm
      ((p.scheduler.living.filter fun t => t.stack?.isSome).map Thread.id) := by
    have hliving : τ.living.Nodup := hcreated.filter _
    rw [List.perm_ext_iff_of_nodup hliving howners]
    intro id
    rw [hl.mem_living_iff hp]
    grind
  rw [hstacks, hperm.length_eq, List.length_map, List.length_filterMap_eq_countP,
    List.countP_eq_length_filter]

/-- **Every stack is accounted for**, in every run.

* While client code runs no stack is set aside, and `liveStacks` counts the
  threads that were made and have not ended.
* These threads, and no others, have a stack; every stack that is mapped is
  that of one of them or is set aside, and none is so twice.
* A step gives a stack back when it cancels the thread, or when it is the turn
  after the thread has set it aside by its exit.
* A stack that was given back is not mapped again. -/
theorem stacks_accounted (run : Run τ p) :
    (∀ reply, p.control = .client reply →
      p.scheduler.retired = [] ∧
        (p.perform .liveStacks).control = .client (.count τ.living.length)) ∧
    (p.isOver = false →
      (∀ id, id ∈ τ.living ↔ ∃ t ∈ p.scheduler.living, t.id = id ∧ t.stack?.isSome) ∧
        p.pool.mapped.Nodup ∧
        p.pool.mapped.Perm
          (p.scheduler.living.filterMap Thread.stack? ++ p.scheduler.retired)) ∧
    ∀ move q stack, p.Step move q →
      (stack ∈ p.pool.mapped ∧ stack ∉ q.pool.mapped ↔
        (∃ t ∈ p.scheduler.ready, t.stack? = some stack ∧ move = .call (.cancel t.id)) ∨
          move = .turn ∧ stack ∈ p.scheduler.retired) ∧
      (q.isOver = false →
        (stack ∈ q.scheduler.retired ∧ stack ∉ p.scheduler.retired ↔
          ∃ t call, p.scheduler.current = some t ∧ t.stack? = some stack ∧ t.id ≠ .initial ∧
            move = .call call ∧ (call.exitValue? t.id).isSome)) ∧
      (stack ∈ p.pool.mapped → stack ∉ q.pool.mapped → ∀ r, q.Later r →
        stack ∉ r.pool.mapped) := by
  have hcounted : ∀ n, p.pool.live = n → (p.perform .liveStacks).control = .client (.count n) := by
    intro n hn
    rw [← hn]
    rfl
  refine ⟨?_, ?_, ?_⟩
  · intro reply hclient
    obtain ⟨hl, ⟨hp, -⟩ | ⟨c, hp⟩⟩ := run.consistent.client hclient
    · have hnone : τ.living = [] := by rw [Transcript.living, hl.created_eq_nil hp]; rfl
      have hretired : p.scheduler.retired = [] := by rw [hp.scheduler]
      have hlive : p.pool.live = τ.living.length := by rw [StackPool.live, hp.mapped, hnone]; rfl
      exact ⟨hretired, hcounted _ hlive⟩
    · exact ⟨hp.retired, hcounted _ (hl.live_eq hp.books hp.retired)⟩
  · intro hrunning
    cases run.consistent with
    | early hp _ _ hl =>
        rw [Transcript.living, hl.created_eq_nil hp, hp.mapped, hp.scheduler]
        simp [Scheduler.living]
    | idle hp _ hl =>
        exact ⟨fun _ => hl.mem_living_iff hp.books, hp.books.sound.nodup, hp.books.mapped⟩
    | arriving hp _ _ _ _ hl => exact ⟨fun _ => hl.mem_living_iff hp, hp.sound.nodup, hp.mapped⟩
    | stopped hover => simp [isOver, hover] at hrunning
  · intro move q stack hstep
    exact ⟨run.released_iff hstep stack, fun hover => run.setAside_iff hstep hover stack,
      fun hmem hgone r hlater => run.notMem_later hstep hmem hgone hlater⟩

/-- One thread is cancelled and another one exits.  The stack of the first is
gone by then; that of the second goes with the next turn, for good. -/
theorem exited_stack_accounted :
    let moves : List Move :=
      [.call (.init (.ofMicros 1000)), .call (.create ⟨0, .native⟩ 5),
        .call (.create ⟨0, .foreign⟩ 6), .call (.cancel ⟨3⟩), .call .yield, .turn, .call (.exit 7)]
    ∃ τ p stack, ({} : Process).follow [] moves = some (τ, p) ∧
      p.scheduler.retired = [stack] ∧ p.pool.mapped = [stack] ∧ stack ∉ p.advance.pool.mapped ∧
      ∀ q, p.advance.Later q → stack ∉ q.pool.mapped := by
  intro moves
  obtain ⟨τ, p, hfollow⟩ : ∃ τ p, ({} : Process).follow [] moves = some (τ, p) := ⟨_, _, rfl⟩
  obtain ⟨stack, hretired, hmapped, hsettled⟩ :
      ∃ stack, p.scheduler.retired = [stack] ∧ p.pool.mapped = [stack] ∧ p.isSettled = false := by
    obtain ⟨-, rfl⟩ := Prod.mk.inj (Option.some.inj hfollow)
    exact ⟨_, rfl, rfl, rfl⟩
  obtain ⟨-, -, hsteps⟩ := stacks_accounted (Run.start.follow hfollow)
  obtain ⟨hreleased, -, hgone⟩ := hsteps .turn p.advance stack (.turn hsettled)
  have hboth := hreleased.mpr (.inr ⟨rfl, by rw [hretired]; exact List.mem_singleton_self stack⟩)
  exact ⟨τ, p, stack, hfollow, hretired, hmapped, hboth.2, hgone hboth.1 hboth.2⟩

end Process

end GreenThreads
