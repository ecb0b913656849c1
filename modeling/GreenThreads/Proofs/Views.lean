import GreenThreads.Proofs.Run

/-!
# GreenThreads.Proofs.Views

What somebody sees of the books who overlooks part of what is there.

A `View` says what is overlooked: how a routine is to be called, the value of
`errno`, what some reply is, or that a thread was preempted and has not
yielded.  Of this only the routines are in the books of the scheduler.  No
operation there looks at a routine, so each does to the books as they are seen
(`Scheduler.view`) what it does to the books themselves: `rotate_view`,
`retire_view`, `cancel_view`, `beginJoin_view`, `endJoin_view`.
-/

namespace GreenThreads

/-! ## what is overlooked -/

/-- What somebody makes of what there is to be seen. -/
structure View where
  errno : Int → Int := id
  routine : Routine → Routine := id
  reply : Reply → Reply := id
  /-- Whether a thread that was preempted is taken for one that has yielded. -/
  merges : Bool := false
  reply_begin : ∀ {r r' : Routine} (arg : Word), routine r = routine r' →
    reply (.begin r arg) = reply (.begin r' arg)
  errno_merges : merges = true → ∀ a b : Int, errno a = errno b

namespace View

variable (v : View)

/-- Where two threads go on. -/
inductive Resumes : Resumption → Resumption → Prop where
  | same (r : Resumption) : Resumes r r
  | preempted (herrno : v.errno e = v.errno e') (hreply : v.reply r = v.reply r') :
      Resumes (.preempted e r) (.preempted e' r')
  | interrupted (hmerges : v.merges = true) (hreply : v.reply r = v.reply .done) :
      Resumes (.preempted e r) (.yielding ⟨false⟩)

/-- The machine states of two threads. -/
structure Keeps (s s' : Saved) : Prop where
  strand : s.strand = s'.strand
  masked : s.masked = s'.masked
  resumption : v.Resumes s.resumption s'.resumption

/-- What happens next. -/
inductive Controls : Control → Control → Prop where
  | client (h : v.reply r = v.reply r') : Controls (.client r) (.client r')
  | arriving (h : v.Resumes r r') : Controls (.arriving r) (.arriving r')
  | waiting (h : v.Resumes r r') : Controls (.waiting r) (.waiting r')
  | stopped (o : Outcome) : Controls (.over o) (.over o)

/-- Two calls that come to the same. -/
inductive Calls : Call → Call → Prop where
  | same (call : Call) : Calls call call
  | create (h : v.routine r = v.routine r') (arg : Word) : Calls (.create r arg) (.create r' arg)

/-- A moment of a run as it is seen. -/
def moment : Moment → Moment
  | .called thread call => .called thread call
  | .answered thread r => .answered thread (v.reply r)

end View

/-! ## descriptors -/

namespace Thread

variable (v : View) (t : Thread)

/-- A descriptor as it is seen. -/
def view : Thread := { t with routine := t.routine.map v.routine }

@[simp] theorem id_view : (t.view v).id = t.id := rfl
@[simp] theorem stack?_view : (t.view v).stack? = t.stack? := rfl
@[simp] theorem registers?_view : (t.view v).registers? = t.registers? := rfl
@[simp] theorem isRunnable_view : (t.view v).isRunnable = t.isRunnable := rfl
@[simp] theorem exitStatus_view : (t.view v).exitStatus = t.exitStatus := rfl
@[simp] theorem finish_view (value : Word) :
    (t.view v).finish value = (t.finish value).view v := rfl
@[simp] theorem cancel_view : (t.view v).cancel = t.cancel.view v := rfl

theorem takeRoutine_view :
    (t.view v).takeRoutine =
      (t.takeRoutine.1.map fun r => (v.routine r.1, r.2), t.takeRoutine.2.view v) := by
  simp only [takeRoutine, view, Option.map_map, Function.comp_def, Option.map_none]

end Thread

/-! ## the books -/

namespace Scheduler

variable (v : View) (s : Scheduler)

/-- The books as they are seen. -/
def view : Scheduler :=
  { s with
    current := s.current.map (Thread.view v)
    ready := s.ready.map (Thread.view v)
    zombies := s.zombies.map (Thread.view v) }

theorem nextRunnable_view (queue zombies : List Thread) :
    nextRunnable (queue.map (Thread.view v)) (zombies.map (Thread.view v)) =
      ((nextRunnable queue zombies).1.map (Thread.view v),
        (nextRunnable queue zombies).2.1.map (Thread.view v),
        (nextRunnable queue zombies).2.2.map (Thread.view v)) := by
  induction queue generalizing zombies with
  | nil => rfl
  | cons t rest ih =>
      rw [List.map_cons, nextRunnable, nextRunnable, Thread.isRunnable_view]
      split
      · rfl
      · have hmap : zombies.map (Thread.view v) ++ [t.view v] =
            (zombies ++ [t]).map (Thread.view v) := by
          simp
        rw [hmap, ih]

theorem popRunnable_view :
    (s.view v).popRunnable = (s.popRunnable.1.map (Thread.view v), s.popRunnable.2.view v) := by
  simp only [popRunnable, view, nextRunnable_view]

theorem popNext_view :
    (s.view v).popNext = (s.popNext.1.map fun x => (x.1.view v, x.2), s.popNext.2.view v) := by
  rw [popNext_eq, popNext_eq, popRunnable_view]
  cases s.popRunnable.1 with
  | none => rfl
  | some n => cases hload : n.registers? <;> simp [hload]

theorem currentId_view : (s.view v).currentId = s.currentId := by
  simp only [currentId, view]
  cases s.current <;> rfl

theorem find?_view (id : ThreadId) : (s.view v).find? id = (s.find? id).map (Thread.view v) := by
  simp only [find?, view, ← List.map_append, List.find?_map]
  rfl

theorem isRunning_view (id : ThreadId) : (s.view v).isRunning id = s.isRunning id := by
  simp only [isRunning, currentId_view, find?_view]
  cases s.find? id <;> rfl

theorem setJoining_view (target : ThreadId) :
    (s.view v).setJoining target = (s.setJoining target).view v := by
  simp only [setJoining, view]
  cases s.current <;> rfl

theorem rotate_view : (s.view v).rotate = (s.rotate.1, s.rotate.2.view v) := by
  have hpop := popNext_view v s
  simp only [rotate]
  cases hc : s.current with
  | none =>
      have hc' : (s.view v).current = none := by simp [view, hc]
      simp only [hc']
  | some c =>
      have hc' : (s.view v).current = some (c.view v) := by simp [view, hc]
      simp only [hc', Thread.registers?_view, hpop]
      cases c.registers? with
      | none => rfl
      | some save =>
          rcases s.popNext with ⟨_ | next, s'⟩
          · rfl
          · simp [view]

theorem retire_view (value : Word) :
    (s.view v).retire value = ((s.retire value).1, (s.retire value).2.view v) := by
  have hpop := popNext_view v s
  simp only [retire]
  cases hc : s.current with
  | none =>
      have hc' : (s.view v).current = none := by simp [view, hc]
      simp only [hc']
  | some c =>
      have hc' : (s.view v).current = some (c.view v) := by simp [view, hc]
      simp only [hc', hpop]
      rcases s.popNext with ⟨_ | next, s'⟩
      · rfl
      · simp [view]

theorem cancel_view (id : ThreadId) :
    (s.view v).cancel id = (s.cancel id).map fun r => (r.1, r.2.view v) := by
  have hfind : (s.view v).ready.find? (fun t => t.id = id) =
      (s.ready.find? fun t => t.id = id).map (Thread.view v) := by
    simp only [view, List.find?_map]
    rfl
  simp only [cancel, hfind, find?_view]
  cases s.ready.find? (fun t => t.id = id) with
  | none => cases s.find? id <;> rfl
  | some t =>
      have herase : (s.view v).ready.eraseP (fun t => t.id = id) =
          (s.ready.eraseP fun t => t.id = id).map (Thread.view v) := by
        simp only [view, List.eraseP_map]
        rfl
      simp only [Option.map_some]
      by_cases hstate : t.state = .running
      · have hstate' : (t.view v).state = .running := hstate
        simp only [if_pos hstate, if_pos hstate', herase]
        simp [Except.map, view]
      · have hstate' : (t.view v).state ≠ .running := hstate
        simp only [if_neg hstate, if_neg hstate']
        rfl

theorem beginJoin_view (id : ThreadId) :
    (s.view v).beginJoin id = (s.beginJoin id).map (view v) := by
  simp only [beginJoin, currentId_view, find?_view, setJoining_view]
  split
  · rfl
  · cases s.find? id with
    | none => rfl
    | some t =>
        simp only [Option.map_some]
        by_cases hjoining : t.joining = s.currentId
        · have hjoining' : (t.view v).joining = s.currentId := hjoining
          simp only [if_pos hjoining, if_pos hjoining']
          rfl
        · have hjoining' : (t.view v).joining ≠ s.currentId := hjoining
          simp only [if_neg hjoining, if_neg hjoining']
          rfl

theorem endJoin_view (id : ThreadId) :
    (s.view v).endJoin id = ((s.endJoin id).1, (s.endJoin id).2.view v) := by
  simp only [endJoin, setJoining_view, find?_view]
  cases (s.setJoining .nobody).find? id with
  | none => rfl
  | some t =>
      simp only [Option.map_some, Option.bind_some, Thread.exitStatus_view]
      cases t.exitStatus <;> rfl

theorem start_view (t : Thread) (size : Nat) :
    (s.view v).start (t.view v) size = ((s.start t size).1, (s.start t size).2.view v) := by
  have hstacks (threads : List Thread) :
      (threads.map (Thread.view v)).filterMap Thread.stack? = threads.filterMap Thread.stack? := by
    rw [List.filterMap_map]
    rfl
  have hcurrent : (s.view v).current.toList = s.current.toList.map (Thread.view v) := by
    simp only [view]
    cases s.current <;> rfl
  simp only [start, hcurrent]
  simp only [view, ← List.map_append, hstacks]
  rfl

theorem allocateId_view :
    (s.view v).allocateId = (s.allocateId.1, s.allocateId.2.view v) := rfl

theorem add_view (t : Thread) : (s.view v).add (t.view v) = (s.add t).view v := by
  simp only [add, view, List.map_append, List.map_cons, List.map_nil]

theorem threads_view : (s.view v).threads = s.threads.map (Thread.view v) := by
  simp only [threads, view, List.map_append]
  cases s.current <;> rfl

theorem notices_view : (s.view v).notices = s.notices := by
  have hnotices : (s.view v).threads.map Thread.notice = s.threads.map Thread.notice := by
    rw [threads_view, List.map_map]
    rfl
  rw [notices, hnotices]
  rfl

end Scheduler

end GreenThreads
