import GreenThreads.Proofs.Placement
import GreenThreads.Proofs.Run

/-!
# GreenThreads.Proofs.Books

The books of a process in which the scheduler has been started: the scheduler
itself, the host's mappings, whose code runs, and the machine states of the
threads that are switched out.

`Process.Books p c` says that they agree, with `c` the current thread:

* the code that runs is that of `c`;
* every thread that is ready has a machine state saved, which is its own, was
  saved with the signal held off, and goes on where its descriptor says;
* the stacks that are mapped are those of the threads that have not ended, and
  those set aside.

Every change that the library makes to the books keeps them so.
-/

namespace GreenThreads

/-! ## mappings -/

/-- No stack is in use twice, and the number to be given out next is beyond those
in use. -/
structure StackPool.Sound (p : StackPool) : Prop where
  nodup : p.mapped.Nodup
  below : ∀ s ∈ p.mapped, s.number < p.made

namespace StackPool

theorem sound_of_nil {p : StackPool} (h : p.mapped = []) : p.Sound :=
  ⟨h ▸ .nil, by simp [h]⟩

theorem mapped_of_map {p q : StackPool} (h : p.map bytes = (.ok s, q)) :
    q.mapped = p.mapped ++ [s] := by
  rw [(map_of_ok h).2, push]

/-- A new stack is none of those that were mapped before. -/
theorem Sound.notMem_of_map {p q : StackPool} (hp : p.Sound) (h : p.map bytes = (.ok s, q)) :
    s ∉ p.mapped := by
  intro hmem
  have hbelow := hp.below s hmem
  rw [(map_of_ok h).1] at hbelow
  exact Nat.lt_irrefl _ hbelow

theorem Sound.map {p q : StackPool} (hp : p.Sound) (h : p.map bytes = (.ok s, q)) : q.Sound := by
  have hnew := hp.notMem_of_map h
  obtain ⟨hnumber, rfl⟩ := map_of_ok h
  constructor
  · rw [push, (List.perm_append_singleton s p.mapped).nodup_iff]
    exact List.nodup_cons.mpr ⟨hnew, hp.nodup⟩
  · intro t ht
    rw [push, List.mem_append, List.mem_singleton] at ht
    cases ht with
    | inl hold => exact Nat.lt_succ_of_lt (hp.below t hold)
    | inr heq => rw [heq, hnumber]; exact Nat.lt_succ_self _

theorem mem_release {p : StackPool} {s : Stack} :
    s ∈ (p.release freed).mapped ↔ s ∈ p.mapped ∧ s ∉ freed := by
  simp [release]

theorem Sound.release {p : StackPool} (h : p.Sound) (freed : List Stack) :
    (p.release freed).Sound where
  nodup := h.nodup.filter _
  below s hs := h.below s (mem_release.mp hs).1

/-- Releasing stacks that are mapped leaves the others. -/
theorem Sound.release_perm {p : StackPool} (h : p.Sound)
    (hperm : p.mapped.Perm (kept ++ freed)) : (p.release freed).mapped.Perm kept := by
  have hnd := hperm.nodup_iff.mp h.nodup
  have hdisj := (List.nodup_append.mp hnd).2.2
  have hkept : kept.filter (fun s => s ∉ freed) = kept :=
    List.filter_eq_self.mpr (by simpa using fun s hs hf => hdisj s hs s hf rfl)
  have hfreed : freed.filter (fun s => s ∉ freed) = [] :=
    List.filter_eq_nil_iff.mpr (by simp)
  have hfilter := hperm.filter (fun s => s ∉ freed)
  rwa [List.filter_append, hkept, hfreed, List.append_nil] at hfilter

end StackPool

/-! ## machine states -/

namespace Process

theorem lookup_cons (id other : ThreadId) (s : Saved) (saved : List (ThreadId × Saved)) :
    ((id, s) :: saved).lookup other = if other = id then some s else saved.lookup other := by
  rw [List.lookup_cons]
  by_cases h : other = id
  · simp [h]
  · rw [beq_false_of_ne h, if_neg h]

/-- Forgetting a machine state leaves those of the other threads. -/
theorem lookup_forget (p : Process) (id other : ThreadId) :
    (p.forget id).saved.lookup other = if other = id then none else p.saved.lookup other := by
  simp only [forget]
  induction p.saved with
  | nil => simp
  | cons x saved ih =>
      obtain ⟨a, s⟩ := x
      by_cases ha : a = id
      · rw [List.filter_cons_of_neg (by simp [ha]), ih, lookup_cons]
        by_cases ho : other = id <;> simp [ho, ha]
      · rw [List.filter_cons_of_pos (by simp [ha]), lookup_cons, ih, lookup_cons]
        by_cases ho : other = a <;> simp [ho, ha]

theorem lookup_keep (p : Process) (id other : ThreadId) (s : Saved) :
    (p.keep id s).saved.lookup other = if other = id then some s else p.saved.lookup other := by
  rw [keep, lookup_cons, lookup_forget]
  by_cases h : other = id <;> simp [h]

end Process

/-! ## threads that are switched out -/

/-- Whom a thread waits for. -/
def Resumption.target : Resumption → ThreadId
  | .joining target _ => target
  | _ => .nobody

/-- The descriptor of a thread fits where the thread is to go on, among the
threads `ids`. -/
structure Thread.GoesOn (t : Thread) (ids : List ThreadId) (r : Resumption) : Prop where
  routine : t.routine.isSome ↔ r = .begin
  joining : t.joining = r.target
  known : ∀ target guard, r = .joining target guard → target ∈ ids ∧ target ≠ t.id
  initial : ∀ value, r = .exiting value → t.id = .initial

theorem Thread.GoesOn.mono {t : Thread} {ids ids' : List ThreadId} (h : t.GoesOn ids r)
    (hsub : ids ⊆ ids') : t.GoesOn ids' r :=
  { h with known := fun target guard hr => (h.known target guard hr).imp_left fun hm => hsub hm }

theorem filterMap_stack?_cons (t : Thread) (l : List Thread) :
    (t :: l).filterMap Thread.stack? = t.stack?.toList ++ l.filterMap Thread.stack? := by
  cases h : t.stack? <;> simp [h]

namespace Process

/-- Whose code runs when a thread has the processor. -/
def strandOf (p : Process) (id : ThreadId) : Strand :=
  if p.host = some id then .host else .created id

/-- The books agree with one another, and `c` is the current thread. -/
structure Books (p : Process) (c : Thread) : Prop where
  placed : p.scheduler.Placed
  current : p.scheduler.current = some c
  strand : p.strand = p.strandOf c.id
  host : ∃ id ∈ p.scheduler.ids, p.host = some id
  hosted : ∀ t ∈ p.scheduler.living, t.stack? = none ↔ p.host = some t.id
  saved : ∀ t ∈ p.scheduler.ready, ∃ s, p.saved.lookup t.id = some s ∧
    s.strand = p.strandOf t.id ∧ s.masked = true ∧ t.GoesOn p.scheduler.ids s.resumption
  sound : p.pool.Sound
  mapped : p.pool.mapped.Perm
    (p.scheduler.living.filterMap Thread.stack? ++ p.scheduler.retired)

/-- Nothing in the books has changed. -/
structure SameBooks (p q : Process) : Prop where
  scheduler : q.scheduler = p.scheduler
  pool : q.pool = p.pool
  host : q.host = p.host
  strand : q.strand = p.strand
  saved : q.saved = p.saved

/-- The processor passes to the first thread that is ready, `n`, with its
machine state `s`; the thread that had it is queued last and will go on
with `r`. -/
structure HandsOver (p : Process) (r : Resumption) (n : Thread) (s : Saved) (q : Process) :
    Prop where
  first : p.scheduler.ready.head? = some n
  loaded : p.saved.lookup n.id = some s
  scheduler : q.scheduler = p.scheduler.rotate.2
  pool : q.pool = p.pool
  host : q.host = p.host
  strand : q.strand = s.strand
  saved : ∀ id, q.saved.lookup id =
    if id = n.id then none
    else if id = p.scheduler.currentId then some ⟨p.strand, true, r⟩
    else p.saved.lookup id
  control : q.control = .arriving s.resumption
  masked : q.signal.masked = s.masked

/-- The current thread ends with `v`, and the processor passes to the first
thread that is ready. -/
structure Retires (p : Process) (v : Word) (n : Thread) (s : Saved) (q : Process) : Prop where
  first : p.scheduler.ready.head? = some n
  loaded : p.saved.lookup n.id = some s
  scheduler : q.scheduler = (p.scheduler.retire v).2
  pool : q.pool = p.pool
  host : q.host = p.host
  strand : q.strand = s.strand
  saved : ∀ id, q.saved.lookup id = if id = n.id then none else p.saved.lookup id
  control : q.control = .arriving s.resumption
  masked : q.signal.masked = s.masked

/-- A thread is made on a stack of its own and queued last. -/
structure Creates (p : Process) (routine : Routine) (arg : Word) (stack : Stack) (q : Process) :
    Prop where
  mapped : p.pool.map p.scheduler.stackSize = (.ok stack, q.pool)
  scheduler : q.scheduler =
    p.scheduler.allocateId.2.add (.create p.scheduler.nextId routine arg stack)
  host : q.host = p.host
  strand : q.strand = p.strand
  saved : ∀ id, q.saved.lookup id =
    if id = p.scheduler.nextId then some ⟨.created p.scheduler.nextId, true, .begin⟩
    else p.saved.lookup id
  control : q.control = .client (.thread p.scheduler.nextId)
  quiet : q.signal.arrives = false

/-- A thread that is ready ends, and its stack is given back. -/
structure Cancels (p : Process) (id : ThreadId) (freed : List Stack) (q : Process) : Prop where
  scheduler : p.scheduler.cancel id = .ok (freed, q.scheduler)
  pool : q.pool = p.pool.release freed
  host : q.host = p.host
  strand : q.strand = p.strand
  saved : ∀ other, q.saved.lookup other = if other = id then none else p.saved.lookup other
  control : q.control = .client .done
  quiet : q.signal.arrives = false

/-- Client code sees `reply`, and nothing in the books has changed. -/
structure Answers (p : Process) (reply : Reply) (q : Process) : Prop where
  books : p.SameBooks q
  control : q.control = .client reply
  quiet : q.signal.arrives = false

/-- The rest of a process may change. -/
theorem sameBooks_with (p : Process) (signal : PreemptSignal) (timer : Timer) (errno : Int)
    (control : Control) (journal : List Record) :
    p.SameBooks { p with signal, timer, errno, control, journal } :=
  ⟨rfl, rfl, rfl, rfl, rfl⟩

theorem answers_answer {p : Process} (hquiet : p.signal.arrives = false) (reply : Reply) :
    p.Answers reply (p.answer reply) :=
  ⟨sameBooks_with .., rfl, hquiet⟩

namespace SameBooks

variable {p p' q : Process}

theorem refl (p : Process) : p.SameBooks p := sameBooks_with ..

theorem of_eq (h : p = q) : p.SameBooks q := h ▸ refl p

theorem trans (h : p.SameBooks p') (hq : p'.SameBooks q) : p.SameBooks q :=
  ⟨hq.scheduler.trans h.scheduler, hq.pool.trans h.pool, hq.host.trans h.host,
    hq.strand.trans h.strand, hq.saved.trans h.saved⟩

theorem note (h : p.SameBooks q) (n : Notice) : p.SameBooks (q.note n) :=
  h.trans (sameBooks_with ..)

theorem answers (h : p.SameBooks p') (hq : p'.Answers reply q) : p.Answers reply q :=
  ⟨h.trans hq.books, hq.control, hq.quiet⟩

theorem handsOver (h : p.SameBooks p') (hq : p'.HandsOver r n s q) : p.HandsOver r n s q := by
  obtain ⟨hscheduler, hpool, hhost, hstrand, hsaved⟩ := h
  have hswitched := hq.saved
  rw [hscheduler, hstrand, hsaved] at hswitched
  constructor
  · rw [← hscheduler]; exact hq.first
  · rw [← hsaved]; exact hq.loaded
  · rw [← hscheduler]; exact hq.scheduler
  · rw [← hpool]; exact hq.pool
  · rw [← hhost]; exact hq.host
  · exact hq.strand
  · exact hswitched
  · exact hq.control
  · exact hq.masked

theorem retires (h : p.SameBooks p') (hq : p'.Retires v n s q) : p.Retires v n s q := by
  obtain ⟨hscheduler, hpool, hhost, hstrand, hsaved⟩ := h
  have hswitched := hq.saved
  rw [hsaved] at hswitched
  constructor
  · rw [← hscheduler]; exact hq.first
  · rw [← hsaved]; exact hq.loaded
  · rw [← hscheduler]; exact hq.scheduler
  · rw [← hpool]; exact hq.pool
  · rw [← hhost]; exact hq.host
  · exact hq.strand
  · exact hswitched
  · exact hq.control
  · exact hq.masked

end SameBooks

/-- The same books with another descriptor of the current thread. -/
def withCurrent (t : Thread) (p : Process) : Process :=
  { p with scheduler := { p.scheduler with current := some t } }

theorem SameBooks.withCurrent {p p' : Process} (h : (p.withCurrent a).SameBooks p') (t : Thread) :
    (p.withCurrent t).SameBooks (p'.withCurrent t) := by
  obtain ⟨hscheduler, hpool, hhost, hstrand, hsaved⟩ := h
  refine ⟨?_, hpool, hhost, hstrand, hsaved⟩
  simp only [Process.withCurrent, hscheduler]

theorem ids_withCurrent {p : Process} (hc : p.scheduler.current = some c) (hid : t.id = c.id) :
    (p.withCurrent t).scheduler.ids = p.scheduler.ids :=
  Scheduler.ids_setCurrent hc hid

theorem strandOf_congr {p q : Process} (h : q.host = p.host) (id : ThreadId) :
    q.strandOf id = p.strandOf id := by
  simp [strandOf, h]

theorem self_of_strand {p : Process} {id : ThreadId} (h : p.strand = p.strandOf id) :
    p.self = id := by
  simp only [self, h, strandOf]
  split
  · next hhost =>
      split at hhost
      · next hc => simp [hc]
      · contradiction
  · next other hother =>
      split at hother
      · contradiction
      · exact (Strand.created.inj hother).symm

namespace Books

variable {p q : Process} {c n : Thread} {r : Resumption} {s : Saved}

theorem congr (h : p.Books c) (hq : p.SameBooks q) : q.Books c := by
  obtain ⟨hscheduler, hpool, hhost, hstrand, hsaved⟩ := hq
  have hof : ∀ id, q.strandOf id = p.strandOf id := strandOf_congr hhost
  constructor
  · rw [hscheduler]; exact h.placed
  · rw [hscheduler]; exact h.current
  · rw [hstrand, hof]; exact h.strand
  · rw [hscheduler, hhost]; exact h.host
  · rw [hscheduler, hhost]; exact h.hosted
  · simp only [hscheduler, hsaved, hof]; exact h.saved
  · rw [hpool]; exact h.sound
  · rw [hscheduler, hpool]; exact h.mapped

/-- The identity of the thread whose code runs is that of the current thread. -/
theorem self_eq (h : p.Books c) : p.self = c.id := self_of_strand h.strand

theorem currentId_eq (h : p.Books c) : p.scheduler.currentId = c.id := by
  simp [Scheduler.currentId, h.current]

theorem mem_living (h : p.Books c) : c ∈ p.scheduler.living := by
  simp [Scheduler.living, h.current]

theorem bounds (h : p.Books c) : 1 ≤ c.id.val ∧ c.id.val < p.scheduler.nextId.val :=
  h.placed.bounds c.id (Scheduler.mem_ids_of_mem_living h.mem_living)

theorem id_ne_nobody (h : p.Books c) : c.id ≠ .nobody :=
  h.placed.ne_nobody (Scheduler.mem_ids_of_mem_living h.mem_living)

/-- An identity that has not been given out is not that of the current
thread. -/
theorem ne_of_nextId_le {id : ThreadId} (h : p.Books c)
    (hid : p.scheduler.nextId.val ≤ id.val) : c.id ≠ id := by
  intro heq
  have hlt := h.bounds.2
  rw [heq] at hlt
  omega

theorem living_eq (h : p.Books c) : p.scheduler.living = c :: p.scheduler.ready := by
  simp [Scheduler.living, h.current]

/-- The descriptor of the current thread may change, as long as it stays who it
is and where it runs. -/
theorem setCurrent (h : p.Books c) (hid : c'.id = c.id) (hcontext : c'.context = c.context)
    (hstate : c'.state = c.state) : (p.withCurrent c').Books c' := by
  have hrun : c'.isRunnable := by
    have hold := h.placed.current h.current
    rwa [Thread.isRunnable, hcontext, hstate]
  have hids := ids_withCurrent h.current hid
  have hstack : c'.stack? = c.stack? := by rw [Thread.stack?, hcontext]; rfl
  have hliving := h.living_eq
  constructor
  · exact h.placed.setCurrent h.current hid hrun
  · rfl
  · exact hid ▸ h.strand
  · rw [hids]; exact h.host
  · intro t ht
    cases List.mem_cons.mp ht with
    | inl heq => rw [heq, hstack, hid]; exact h.hosted c h.mem_living
    | inr hmem => exact h.hosted t (by rw [hliving]; exact List.mem_cons_of_mem c hmem)
  · rw [hids]; exact h.saved
  · exact h.sound
  · have hmapped := h.mapped
    rw [hliving, filterMap_stack?_cons] at hmapped
    have hliving' : (p.withCurrent c').scheduler.living = c' :: p.scheduler.ready := rfl
    rw [hliving', filterMap_stack?_cons, hstack]
    exact hmapped

/-- The stacks that were set aside are given back, and only these. -/
theorem reap (h : p.Books c) : p.reap.Books c where
  placed := h.placed.reap
  current := h.current
  strand := h.strand
  host := h.host
  hosted := h.hosted
  saved := h.saved
  sound := h.sound.release _
  mapped := by
    have hperm := h.sound.release_perm h.mapped
    simpa [Process.reap, Process.release, Scheduler.reap, Scheduler.living] using hperm

/-! ### who is ready afterwards -/

theorem exists_of_handsOver (h : p.Books c) (hq : p.HandsOver r n s q) :
    ∃ rest, p.scheduler.ready = n :: rest ∧
      q.scheduler = { p.scheduler with current := some n, ready := rest ++ [c] } := by
  obtain ⟨rest, hr⟩ : ∃ rest, p.scheduler.ready = n :: rest :=
    List.head?_eq_some_iff.mp hq.first
  refine ⟨rest, hr, ?_⟩
  rw [hq.scheduler, Scheduler.rotate_cons h.placed h.current hr]

theorem exists_of_retires (h : p.Books c) (hq : p.Retires v n s q) :
    ∃ rest, p.scheduler.ready = n :: rest ∧
      q.scheduler =
        { p.scheduler with
          current := some n
          ready := rest
          zombies := p.scheduler.zombies ++ [c.finish v]
          retired := p.scheduler.retired ++ c.stack?.toList } := by
  obtain ⟨rest, hr⟩ : ∃ rest, p.scheduler.ready = n :: rest :=
    List.head?_eq_some_iff.mp hq.first
  refine ⟨rest, hr, ?_⟩
  rw [hq.scheduler, Scheduler.retire_cons h.placed h.current hr]

/-- Where a thread goes on does not change while others are switched. -/
theorem lookup_of_handsOver (h : p.Books c) (hq : p.HandsOver r n s q)
    (ht : t ∈ q.scheduler.ready) :
    (t ∈ p.scheduler.ready ∧ q.saved.lookup t.id = p.saved.lookup t.id) ∨
      (t = c ∧ q.saved.lookup t.id = some ⟨p.strand, true, r⟩) := by
  obtain ⟨rest, hr, heq⟩ := h.exists_of_handsOver hq
  have hplaced := h.placed.rotate
  rw [← hq.scheduler, heq] at hplaced
  rw [heq] at ht
  have hne : t.id ≠ n.id := (hplaced.current_ne rfl ht).symm
  rw [hq.saved, if_neg hne, h.currentId_eq]
  cases List.mem_append.mp ht with
  | inl hold =>
      have hready : t ∈ p.scheduler.ready := by rw [hr]; exact List.mem_cons_of_mem n hold
      have hc : t.id ≠ c.id := (h.placed.current_ne h.current hready).symm
      exact .inl ⟨hready, if_neg hc⟩
  | inr hlast =>
      obtain rfl := List.mem_singleton.mp hlast
      exact .inr ⟨rfl, if_pos rfl⟩

theorem lookup_of_retires (h : p.Books c) (hq : p.Retires v n s q)
    (ht : t ∈ q.scheduler.ready) :
    t ∈ p.scheduler.ready ∧ q.saved.lookup t.id = p.saved.lookup t.id := by
  obtain ⟨rest, hr, heq⟩ := h.exists_of_retires hq
  have hplaced := h.placed.retire v
  rw [← hq.scheduler, heq] at hplaced
  rw [heq] at ht
  have hne : t.id ≠ n.id := (hplaced.current_ne rfl ht).symm
  rw [hq.saved, if_neg hne, hr]
  exact ⟨List.mem_cons_of_mem n ht, rfl⟩

theorem lookup_of_creates (h : p.Books c) (hq : p.Creates routine arg stack q)
    (ht : t ∈ q.scheduler.ready) :
    (t ∈ p.scheduler.ready ∧ q.saved.lookup t.id = p.saved.lookup t.id) ∨
      (t = .create p.scheduler.nextId routine arg stack ∧
        q.saved.lookup t.id = some ⟨.created p.scheduler.nextId, true, .begin⟩) := by
  rw [hq.scheduler] at ht
  rw [hq.saved]
  cases List.mem_append.mp ht with
  | inl hold =>
      have hne : t.id ≠ p.scheduler.nextId := fun heq => h.placed.nextId_notMem
        (heq ▸ Scheduler.mem_ids_of_mem_living (List.mem_append_right _ hold))
      exact .inl ⟨hold, if_neg hne⟩
  | inr hlast =>
      obtain rfl := List.mem_singleton.mp hlast
      exact .inr ⟨rfl, if_pos rfl⟩

theorem lookup_of_cancels {id : ThreadId} (h : p.Books c) (hq : p.Cancels id freed q)
    (ht : t ∈ q.scheduler.ready) :
    t ∈ p.scheduler.ready ∧ q.saved.lookup t.id = p.saved.lookup t.id := by
  obtain ⟨front, a, back, hr, rfl, -, heq⟩ := Scheduler.exists_of_cancel h.placed hq.scheduler
  rw [heq] at ht
  have hsub : (front ++ back).Sublist p.scheduler.ready := by simp [hr]
  have hnd := h.placed.nodup_ready
  rw [hr, (List.perm_middle.map Thread.id).nodup_iff, List.map_cons] at hnd
  have hne : t.id ≠ a.id := by
    intro hid
    exact (List.nodup_cons.mp hnd).1 (hid ▸ List.mem_map_of_mem ht)
  rw [hq.saved, if_neg hne]
  exact ⟨hsub.subset ht, rfl⟩

/-! ### the books afterwards -/

/-- The thread on the host's stack stays on the books. -/
theorem host_mono (h : p.Books c) (hsub : p.scheduler.ids ⊆ q.scheduler.ids)
    (hhost : q.host = p.host) : ∃ id ∈ q.scheduler.ids, q.host = some id := by
  obtain ⟨id, hid, hsome⟩ := h.host
  exact ⟨id, hsub hid, hhost.trans hsome⟩

/-- What is saved of a thread does not go stale. -/
theorem saved_mono (h : p.Books c) (hsub : p.scheduler.ids ⊆ q.scheduler.ids)
    (hhost : q.host = p.host) (ht : t ∈ p.scheduler.ready)
    (hlookup : q.saved.lookup t.id = p.saved.lookup t.id) :
    ∃ s, q.saved.lookup t.id = some s ∧ s.strand = q.strandOf t.id ∧ s.masked = true ∧
      t.GoesOn q.scheduler.ids s.resumption := by
  obtain ⟨s, hs, hstrand, hmasked, hgoes⟩ := h.saved t ht
  rw [strandOf_congr hhost]
  exact ⟨s, hlookup.trans hs, hstrand, hmasked, hgoes.mono hsub⟩

theorem handsOver (h : p.Books c) (hq : p.HandsOver r n s q) (hc : c.GoesOn p.scheduler.ids r) :
    q.Books n ∧ n.GoesOn q.scheduler.ids s.resumption ∧ s.masked = true := by
  obtain ⟨rest, hr, heq⟩ := h.exists_of_handsOver hq
  obtain ⟨s', hs', hstrand, hmasked, hgoes⟩ := h.saved n (by simp [hr])
  obtain rfl : s' = s := Option.some.inj (hs'.symm.trans hq.loaded)
  have hof := strandOf_congr hq.host
  have hids := Scheduler.ids_rotate h.placed
  rw [← hq.scheduler] at hids
  have hliving : q.scheduler.living.Perm p.scheduler.living := by
    rw [h.living_eq, hr, heq]
    exact List.perm_append_singleton c (n :: rest)
  refine ⟨?_, hgoes.mono hids.symm.subset, hmasked⟩
  constructor
  · rw [hq.scheduler]; exact h.placed.rotate
  · rw [heq]
  · rw [hq.strand, hof]; exact hstrand
  · exact h.host_mono hids.symm.subset hq.host
  · intro t ht
    rw [hq.host]
    exact h.hosted t (hliving.subset ht)
  · intro t ht
    cases h.lookup_of_handsOver hq ht with
    | inl hold => exact h.saved_mono hids.symm.subset hq.host hold.1 hold.2
    | inr hlast =>
        obtain ⟨rfl, hlookup⟩ := hlast
        rw [hof]
        exact ⟨_, hlookup, h.strand, rfl, hc.mono hids.symm.subset⟩
  · rw [hq.pool]; exact h.sound
  · have hretired : q.scheduler.retired = p.scheduler.retired := by rw [heq]
    rw [hq.pool, hretired]
    exact h.mapped.trans ((hliving.symm.filterMap _).append_right _)

theorem retires (h : p.Books c) (hq : p.Retires v n s q) :
    q.Books n ∧ n.GoesOn q.scheduler.ids s.resumption ∧ s.masked = true := by
  obtain ⟨rest, hr, heq⟩ := h.exists_of_retires hq
  obtain ⟨s', hs', hstrand, hmasked, hgoes⟩ := h.saved n (by simp [hr])
  obtain rfl : s' = s := Option.some.inj (hs'.symm.trans hq.loaded)
  have hof := strandOf_congr hq.host
  have hids := Scheduler.ids_retire h.placed v
  rw [← hq.scheduler] at hids
  have hliving : p.scheduler.living = c :: q.scheduler.living := by
    rw [h.living_eq, hr, heq]
    rfl
  refine ⟨?_, hgoes.mono hids.symm.subset, hmasked⟩
  constructor
  · rw [hq.scheduler]; exact h.placed.retire v
  · rw [heq]
  · rw [hq.strand, hof]; exact hstrand
  · exact h.host_mono hids.symm.subset hq.host
  · intro t ht
    rw [hq.host]
    exact h.hosted t (hliving ▸ List.mem_cons_of_mem c ht)
  · intro t ht
    obtain ⟨hready, hlookup⟩ := h.lookup_of_retires hq ht
    exact h.saved_mono hids.symm.subset hq.host hready hlookup
  · rw [hq.pool]; exact h.sound
  · have hmapped := h.mapped
    rw [hliving, filterMap_stack?_cons] at hmapped
    have hretired : q.scheduler.retired = p.scheduler.retired ++ c.stack?.toList := by rw [heq]
    rw [hq.pool, hretired]
    apply hmapped.trans
    rw [List.append_assoc, ← List.append_assoc _ p.scheduler.retired]
    exact List.perm_append_comm

theorem creates (h : p.Books c) (hq : p.Creates routine arg stack q) : q.Books c := by
  have hof := strandOf_congr hq.host
  have hplaced := h.placed.add (t := .create p.scheduler.nextId routine arg stack) rfl
    (Thread.isRunnable_create ..)
  have hids := Scheduler.ids_add p.scheduler.allocateId.2
    (.create p.scheduler.nextId routine arg stack)
  rw [← hq.scheduler] at hplaced hids
  have hsub : p.scheduler.ids ⊆ q.scheduler.ids :=
    fun id hid => hids.symm.subset (List.mem_append_left _ hid)
  have hliving : q.scheduler.living =
      p.scheduler.living ++ [.create p.scheduler.nextId routine arg stack] := by
    rw [hq.scheduler, Scheduler.living, Scheduler.living, List.append_assoc]
    rfl
  obtain ⟨host, hmem, hhost⟩ := h.host
  -- the new thread does not run on the host's stack
  have hnew : p.host ≠ some p.scheduler.nextId := by
    rw [hhost]
    intro heq
    exact h.placed.nextId_notMem (Option.some.inj heq ▸ hmem)
  constructor
  · exact hplaced
  · rw [hq.scheduler]; exact h.current
  · rw [hq.strand, hof]; exact h.strand
  · exact h.host_mono hsub hq.host
  · intro t ht
    rw [hliving, List.mem_append, List.mem_singleton] at ht
    rw [hq.host]
    cases ht with
    | inl hold => exact h.hosted t hold
    | inr heq =>
        rw [heq]
        exact iff_of_false (Option.some_ne_none stack) hnew
  · intro t ht
    cases h.lookup_of_creates hq ht with
    | inl hold => exact h.saved_mono hsub hq.host hold.1 hold.2
    | inr hlast =>
        obtain ⟨rfl, hlookup⟩ := hlast
        refine ⟨_, hlookup, ?_, rfl, ?_⟩
        · rw [hof]
          simp [strandOf, hnew, Thread.create]
        · exact ⟨by simp [Thread.create], rfl, by simp, by simp⟩
  · exact h.sound.map hq.mapped
  · have hretired : q.scheduler.retired = p.scheduler.retired := by rw [hq.scheduler]; rfl
    rw [StackPool.mapped_of_map hq.mapped, hliving, hretired, List.filterMap_append,
      List.append_assoc]
    apply (h.mapped.append_right [stack]).trans
    rw [List.append_assoc]
    exact List.perm_append_comm.append_left _

theorem cancels {id : ThreadId} (h : p.Books c) (hq : p.Cancels id freed q) : q.Books c := by
  have hof := strandOf_congr hq.host
  have hids := Scheduler.ids_cancel h.placed hq.scheduler
  obtain ⟨front, t, back, hr, rfl, hfreed, heq⟩ :=
    Scheduler.exists_of_cancel h.placed hq.scheduler
  have hliving : q.scheduler.living = c :: (front ++ back) := by
    rw [Scheduler.living, heq, h.current]
    rfl
  have hsub : (front ++ back).Sublist p.scheduler.ready := by simp [hr]
  constructor
  · exact h.placed.cancel hq.scheduler
  · rw [heq]; exact h.current
  · rw [hq.strand, hof]; exact h.strand
  · exact h.host_mono hids.symm.subset hq.host
  · intro a ha
    rw [hq.host]
    rw [hliving] at ha
    exact h.hosted a (h.living_eq ▸ (hsub.cons_cons c).subset ha)
  · intro a ha
    obtain ⟨hready, hlookup⟩ := h.lookup_of_cancels hq ha
    exact h.saved_mono hids.symm.subset hq.host hready hlookup
  · rw [hq.pool]; exact h.sound.release freed
  · have hretired : q.scheduler.retired = p.scheduler.retired := by rw [heq]
    rw [hq.pool, hliving, hretired, hfreed]
    apply h.sound.release_perm
    apply h.mapped.trans
    have hperm : (c :: (front ++ t :: back)).Perm (t :: c :: (front ++ back)) :=
      (List.perm_middle.cons c).trans (.swap t c _)
    rw [h.living_eq, hr]
    apply ((hperm.filterMap _).append_right _).trans
    rw [filterMap_stack?_cons, List.append_assoc]
    exact List.perm_append_comm

end Books

/-! ## before the start -/

/-- A process in which nothing has been started.  Some identities may have been
used up. -/
structure Unstarted (p : Process) : Prop where
  host : p.host = none
  strand : p.strand = .host
  scheduler : p.scheduler = { nextId := p.scheduler.nextId }
  nextId_pos : 1 ≤ p.scheduler.nextId.val
  mapped : p.pool.mapped = []
  saved : p.saved = []

theorem unstarted_new (host : Host) : Unstarted { pool := { host } } :=
  ⟨rfl, rfl, rfl, Nat.le_refl 1, rfl, rfl⟩

/-- The scheduler is started, with the code that runs as its only thread. -/
structure Starts (p : Process) (size : Nat) (q : Process) : Prop where
  scheduler : q.scheduler =
    (p.scheduler.allocateId.2.start (.hosted p.scheduler.nextId) size).2
  pool : q.pool = p.pool
  host : q.host = some p.scheduler.nextId
  strand : q.strand = p.strand
  saved : q.saved = p.saved

namespace Unstarted

variable {p q : Process}

theorem congr (h : p.Unstarted) (hq : p.SameBooks q) : q.Unstarted := by
  obtain ⟨hscheduler, hpool, hhost, hstrand, hsaved⟩ := hq
  constructor
  · rw [hhost]; exact h.host
  · rw [hstrand]; exact h.strand
  · rw [hscheduler]; exact h.scheduler
  · rw [hscheduler]; exact h.nextId_pos
  · rw [hpool]; exact h.mapped
  · rw [hsaved]; exact h.saved

theorem placed (h : p.Unstarted) : p.scheduler.Placed := by
  have hthreads : p.scheduler.ids = [] := by rw [h.scheduler]; rfl
  constructor
  · rw [hthreads]; exact .nil
  · simp [hthreads]
  · exact h.nextId_pos
  · rw [h.scheduler]; simp [Scheduler.living]
  · rw [h.scheduler]; simp

theorem self_eq (h : p.Unstarted) : p.self = .nobody := by
  simp [self, h.strand, h.host]

theorem nobody_ne_nextId (h : p.Unstarted) : .nobody ≠ p.scheduler.nextId := by
  intro heq
  have hpos := h.nextId_pos
  rw [← heq] at hpos
  contradiction

/-- An identity that is used up in vain starts nothing. -/
theorem allocateId (h : p.Unstarted) (control : Control) :
    { p with scheduler := p.scheduler.allocateId.2, control }.Unstarted where
  host := h.host
  strand := h.strand
  scheduler := by
    rw [h.scheduler]
    rfl
  nextId_pos := Nat.le_succ_of_le h.nextId_pos
  mapped := h.mapped
  saved := h.saved

theorem starts (h : p.Unstarted) (hq : p.Starts size q) :
    q.Books (.hosted p.scheduler.nextId) := by
  have hliving : q.scheduler.living = [.hosted p.scheduler.nextId] := by rw [hq.scheduler]; rfl
  constructor
  · rw [hq.scheduler]; exact h.placed.start size
  · rw [hq.scheduler]; rfl
  · rw [hq.strand, h.strand, strandOf, hq.host]
    simp [Thread.hosted]
  · refine ⟨_, ?_, hq.host⟩
    rw [hq.scheduler, Scheduler.ids_start]
    exact List.mem_singleton_self _
  · rw [hliving, hq.host]
    simp [Thread.hosted, Thread.stack?, Context.stack?]
  · rw [hq.scheduler]
    simp [Scheduler.start]
  · rw [hq.pool]; exact StackPool.sound_of_nil h.mapped
  · have hretired : q.scheduler.retired = [] := by rw [hq.scheduler]; rfl
    rw [hq.pool, h.mapped, hliving, hretired]
    exact .nil

end Unstarted

end Process

end GreenThreads
