import GreenThreads.Thread.Action

/-!
# GreenThreads.Proofs.Holdings

What a descriptor holds for its thread, and how it lets go of it.

A descriptor is made with a context, and perhaps with a routine (`Origin`).
Whatever is asked of it afterwards, and in whatever order, nothing comes back
that has gone:

* a part that some actions clear and all others leave alone is there until the
  first of them (`kept_after`), which holds of the routine, of the context and
  of its stack;
* one routine is taken at most (`length_taken_le`);
* the stack is in the descriptor or it has been given up, and never both
  (`released_append_stack?`).

The main statement is `gives_up_once`.
-/

namespace GreenThreads.Thread

/-! ## new descriptors -/

/-- What a descriptor is made from: it is for a thread that runs already, or for
one that is to call a routine.  The context may have a stack of its own, or be
on the host's. -/
inductive Origin where
  | initial (id : ThreadId) (context : Context)
  | new (id : ThreadId) (routine : Routine) (arg : Word) (context : Context)
  deriving DecidableEq, Repr

/-- The routine that is there to be taken, and its argument. -/
def onOffer (t : Thread) : Option (Routine × Word) := t.takeRoutine.1

namespace Origin

/-- The descriptor. -/
def thread : Origin → Thread
  | initial id context => { id, context := some context }
  | new id routine arg context => { id, routine := some routine, arg, context := some context }

def context : Origin → Context
  | initial _ context => context
  | new _ _ _ context => context

/-- The routine that the descriptor is made with, and its argument. -/
def routine? : Origin → Option (Routine × Word)
  | initial .. => none
  | new _ routine arg _ => some (routine, arg)

theorem thread_initial_host (id : ThreadId) : (initial id .host).thread = hosted id := rfl

theorem thread_new_own (id : ThreadId) (routine : Routine) (arg : Word) (stack : Stack) :
    (new id routine arg (.own stack)).thread = create id routine arg stack := rfl

theorem context_thread (origin : Origin) : origin.thread.context = some origin.context := by
  cases origin <;> rfl

theorem stack?_thread (origin : Origin) : origin.thread.stack? = origin.context.stack? := by
  cases origin <;> rfl

theorem onOffer_thread (origin : Origin) : origin.thread.onOffer = origin.routine? := by
  cases origin <;> rfl

end Origin

/-! ## one action -/

/-- An action that ends the thread. -/
def Action.ends : Action → Bool
  | finish _ | cancel => true
  | _ => false

/-- An action after which there is no routine to be taken. -/
def Action.spends : Action → Bool
  | takeRoutine => true
  | a => a.ends

/-- The routine that was taken, if one was asked for and was there. -/
def Answer.taken? : Answer → Option (Routine × Word)
  | routine taken => taken
  | _ => none

theorem context_act (t : Thread) (a : Action) :
    (t.act a).thread.context = if a.ends then none else t.context := by
  cases a <;> rfl

theorem stack?_act (t : Thread) (a : Action) :
    (t.act a).thread.stack? = if a.ends then none else t.stack? := by
  cases a <;> rfl

theorem onOffer_act (t : Thread) (a : Action) :
    (t.act a).thread.onOffer = if a.spends then none else t.onOffer := by
  cases a <;> rfl

theorem released_act (t : Thread) (a : Action) :
    (t.act a).released = if a.ends then t.stack?.toList else [] := by
  cases a <;> rfl

theorem taken?_act (t : Thread) (a : Action) :
    (t.act a).answer.taken? = if a = .takeRoutine then t.onOffer else none := by
  cases a <;> rfl

/-! ## any history -/

/-- The descriptor after a history of actions. -/
def after (t : Thread) (history : List Action) : Thread :=
  history.foldl (fun t a => (t.act a).thread) t

theorem after_cons (t : Thread) (a : Action) (history : List Action) :
    t.after (a :: history) = (t.act a).thread.after history := rfl

/-- The routines that the actions of a history take, in their order. -/
def taken (t : Thread) : List Action → List (Routine × Word)
  | [] => []
  | a :: history => (t.act a).answer.taken?.toList ++ (t.act a).thread.taken history

/-- The stacks that the actions of a history give up, in their order. -/
def released (t : Thread) : List Action → List Stack
  | [] => []
  | a :: history => (t.act a).released ++ (t.act a).thread.released history

/-- **What has gone does not come back**: a part that some actions clear and all
others leave alone is there until the first action that clears it. -/
theorem kept_after {part : Thread → Option α} {clears : Action → Bool}
    (hact : ∀ t a, part (t.act a).thread = if clears a then none else part t)
    (t : Thread) (history : List Action) :
    part (t.after history) = if history.any clears then none else part t := by
  induction history generalizing t with
  | nil => rfl
  | cons a history ih =>
      rw [after_cons, ih, hact, List.any_cons]
      cases clears a <;> simp

theorem context_after (t : Thread) (history : List Action) :
    (t.after history).context = if history.any Action.ends then none else t.context :=
  kept_after context_act t history

theorem stack?_after (t : Thread) (history : List Action) :
    (t.after history).stack? = if history.any Action.ends then none else t.stack? :=
  kept_after stack?_act t history

theorem onOffer_after (t : Thread) (history : List Action) :
    (t.after history).onOffer = if history.any Action.spends then none else t.onOffer :=
  kept_after onOffer_act t history

/-- Where no routine is there to be taken, none ever is. -/
theorem taken_eq_nil {t : Thread} (h : t.onOffer = none) (history : List Action) :
    t.taken history = [] := by
  induction history generalizing t with
  | nil => rfl
  | cons a history ih =>
      have hnext : (t.act a).thread.onOffer = none := by rw [onOffer_act, h, ite_self]
      rw [taken, taken?_act, h, ite_self, ih hnext]
      rfl

/-- One routine is taken at most. -/
theorem length_taken_le (t : Thread) (history : List Action) : (t.taken history).length ≤ 1 := by
  induction history generalizing t with
  | nil => exact Nat.zero_le 1
  | cons a history ih =>
      rw [taken, taken?_act]
      by_cases ha : a = .takeRoutine
      · -- once it is taken there is none to be taken
        subst ha
        rw [if_pos rfl, taken_eq_nil (onOffer_act t .takeRoutine), List.append_nil]
        exact Option.length_toList_le
      · rw [if_neg ha]
        exact ih _

/-- **The stack is in the descriptor or has been given up**, and never both. -/
theorem released_append_stack? (t : Thread) (history : List Action) :
    t.released history ++ (t.after history).stack?.toList = t.stack?.toList := by
  induction history generalizing t with
  | nil => rfl
  | cons a history ih =>
      rw [released, after_cons, List.append_assoc, ih, released_act, stack?_act]
      cases a.ends <;> simp

theorem released_eq (t : Thread) (history : List Action) :
    t.released history = if history.any Action.ends then t.stack?.toList else [] := by
  have hall := released_append_stack? t history
  rw [stack?_after] at hall
  cases hended : history.any Action.ends <;> simpa [hended] using hall

/-- **A descriptor gives up its routine and its stack once**, whatever is asked of
it and in whatever order.

* One routine is taken at most: the one that the descriptor was made with, and
  only while it has neither been taken before nor the thread ended.
* The stack stays until the thread ends.  The first action that ends it gives the
  stack up, a finish by handing it back, and no other action gives up any.
* The machine state is there until the thread ends.  From then on it is gone, and
  the thread can never be switched to again.
* A descriptor on the host's stack never hands one back. -/
theorem gives_up_once (origin : Origin) (history : List Action) :
    let t := origin.thread.after history
    let ended := history.any Action.ends
    let own := origin.context.stack?
    ((origin.thread.taken history).length ≤ 1 ∧
      (t.act .takeRoutine).answer =
        .routine (if history.any Action.spends then none else origin.routine?)) ∧
    (t.stack? = (if ended then none else own) ∧
      origin.thread.released history = (if ended then own.toList else []) ∧
      (∀ a, (t.act a).released = if a.ends && !ended then own.toList else []) ∧
      ∀ v, (t.act (.finish v)).answer = .stack (if ended then none else own)) ∧
    ((t.act .hasRegisters).answer = .flag (!ended) ∧
      (ended = true → (t.act .isRunnable).answer = .flag false)) ∧
    (origin.context = .host → ∀ v, (t.act (.finish v)).answer = .stack none) := by
  intro t ended own
  have hcontext : t.context = if ended then none else some origin.context := by
    rw [context_after, origin.context_thread]
  have hstack : t.stack? = if ended then none else own := by
    rw [stack?_after, origin.stack?_thread]
  have hfinish : ∀ v, (t.act (.finish v)).answer = .stack (if ended then none else own) :=
    fun _ => congrArg Answer.stack hstack
  refine ⟨⟨length_taken_le _ _, ?_⟩, ⟨hstack, ?_, ?_, hfinish⟩, ⟨?_, ?_⟩, ?_⟩
  · rw [← origin.onOffer_thread, ← onOffer_after]
    rfl
  · rw [released_eq, origin.stack?_thread]
  · intro a
    rw [released_act, hstack]
    cases a.ends <;> cases ended <;> rfl
  · rw [act, isSome_registers?, hcontext]
    cases ended <;> rfl
  · intro hended
    rw [if_pos hended] at hcontext
    simp [act, isRunnable, hcontext]
  · intro hhost v
    have hnone : own = none := congrArg Context.stack? hhost
    rw [hfinish, hnone, ite_self]

/-- To say that it runs does not bring an ended thread back. -/
example : ((create ⟨2⟩ ⟨0, .native⟩ 3 ⟨0, 4096, 12288⟩).after
    [.takeRoutine, .finish 9, .setState .running]).isRunnable = false := by decide

end GreenThreads.Thread
