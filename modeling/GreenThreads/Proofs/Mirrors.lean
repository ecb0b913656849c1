import GreenThreads.Program
import GreenThreads.Proofs.Alike
import Mathlib.Data.List.Forall2

/-!
# GreenThreads.Proofs.Mirrors

A program some of whose calls are made by the foreign convention, beside the
same program with native calls.

A step and its foreign form differ in what they report, and a routine that was
created the foreign way is called another way, so the two programs are not in
the same states.  They take their turns together all the same:

* `Step.Recasts` — a step, and a form of it by the foreign convention;
* `Machine.Mirrors` — two running programs, step for step;
* `Mirrors.turn` — a turn of client code keeps them together, unless the native
  call has no foreign form that returns (`Machine.parts`), or ends both.
-/

namespace GreenThreads

/-! ## forgetting the convention -/

/-- The view of somebody who overlooks by which convention a routine is called. -/
def View.plain : View where
  routine r := { r with convention := .native }
  reply
    | .begin r arg => .begin { r with convention := .native } arg
    | r => r
  reply_begin arg h := by simp only [h]
  errno_merges h := absurd h Bool.false_ne_true

/-- A reply that does not begin a routine is seen as it is. -/
theorem View.reply_eq_of_plain {r r' : Reply} (h : View.plain.reply r = View.plain.reply r')
    (hbegin : ∀ routine arg, r ≠ .begin routine arg) : r' = r := by
  cases r <;> cases r' <;> simp_all [View.plain]

theorem View.begin_of_plain {r : Routine} {told : Reply}
    (h : View.plain.reply (.begin r arg) = View.plain.reply told) :
    ∃ r', told = .begin r' arg ∧ r.entry = r'.entry := by
  cases told with
  | begin r' arg' =>
      simp only [View.plain, Reply.begin.injEq, Routine.mk.injEq, and_true] at h
      obtain ⟨hentry, rfl⟩ := h
      exact ⟨r', rfl, hentry⟩
  | _ => simp [View.plain] at h

/-! ## steps -/

namespace Step

/-- The second step is the first, or a form of it by the foreign convention.  A
pointer may only be null where the result is not wanted. -/
inductive Recasts : Step → Step → Prop where
  | same (step : Step) : Recasts step step
  | init (quantum : Operand) : Recasts (.init quantum) (.foreignInit quantum)
  | create (routine : Nat) (argument : Operand) (dest : Option Nat) :
      Recasts (.create routine argument dest) (.foreignCreate true routine argument dest)
  | createNull (routine : Nat) (argument : Operand) :
      Recasts (.create routine argument none) (.foreignCreate false routine argument none)
  | join (id : Operand) (dest : Option Nat) :
      Recasts (.join id dest) (.foreignJoin true id dest)
  | joinNull (id : Operand) : Recasts (.join id none) (.foreignJoin false id none)
  | cancel (id : Operand) : Recasts (.cancel .native id) (.cancel .foreign id)
  | yield : Recasts (.yield .native) (.yield .foreign)
  | exit (value : Operand) : Recasts (.exit .native value) (.exit .foreign value)
  | self : Recasts (.self .native) (.self .foreign)
  | equal (a b : Operand) : Recasts (.equal .native a b) (.equal .foreign a b)
  | without (h : Recasts step step') : Recasts (.without step) (.without step')

/-- Whether a step makes a call and waits for the reply, or reports a value. -/
def isPlain : Step → Bool
  | goto _ | ifLess .. | ret _ | panic | exit .. | without _ | set .. | add .. => false
  | _ => true

/-- Whether a call ends the process when it fails in arithmetic: an error that is
none of the library's cannot leave a function of the foreign convention. -/
def aborts : Step → Reply → Bool
  | foreignCreate .., .overflowed _ => true
  | _, _ => false

theorem Recasts.isPlain_eq (h : Recasts step step') : step.isPlain = step'.isPlain := by
  cases h <;> rfl

/-- A native call does not end the process that way. -/
theorem Recasts.aborts_of (h : Recasts step step') (hreturns : step'.aborts reply = false) :
    step.aborts reply = false := by
  cases h with
  | same => exact hreturns
  | _ => rfl

end Step

/-- Two programs, the second with some steps by the foreign convention. -/
structure Program.Recasts (p p' : Program) : Prop where
  main : List.Forall₂ Step.Recasts p.main p'.main
  routines : List.Forall₂ (List.Forall₂ Step.Recasts) p.routines p'.routines

/-! ## activations -/

/-- Two tasks for the same step.  A panic that leaves a foreign routine ends the
process on the spot. -/
inductive Task.Mirrors : Task → Task → Prop where
  | perform (h : step.Recasts step') : Mirrors (.perform step) (.perform step')
  | await (h : step.Recasts step') : Mirrors (.await step) (.await step')
  | close (guard : Guard) (h : step.Recasts step') :
      Mirrors (.close guard step) (.close guard step')
  | release (guard : Guard) : Mirrors (.release guard) (.release guard)
  | leave (call : Call) : Mirrors (.leave call) (.leave call)
  | panicked (c c' : Convention) : Mirrors (.leave c.panicked) (.leave c'.panicked)

/-- Two runs of the same routine, which may be called by different conventions. -/
structure Activation.Mirrors (a a' : Activation) : Prop where
  code : List.Forall₂ Step.Recasts a.code a'.code
  arg : a.arg = a'.arg
  place : a.place = a'.place
  guards : a.guards = a'.guards
  tasks : List.Forall₂ Task.Mirrors a.tasks a'.tasks

theorem Task.Mirrors.refl (task : Task) : task.Mirrors task := by
  cases task with
  | perform step => exact .perform (.same step)
  | await step => exact .await (.same step)
  | close guard step => exact .close guard (.same step)
  | release guard => exact .release guard
  | leave last => exact .leave last

theorem Activation.Mirrors.refl (a : Activation) : a.Mirrors a where
  code := List.forall₂_same.mpr fun step _ => .same step
  arg := rfl
  place := rfl
  guards := rfl
  tasks := List.forall₂_same.mpr fun task _ => .refl task

theorem Activation.Mirrors.withTasks {a a' : Activation} (h : a.Mirrors a')
    (htasks : List.Forall₂ Task.Mirrors t t') :
    Activation.Mirrors { a with tasks := t } { a' with tasks := t' } :=
  { h with tasks := htasks }

/-! ## what is seen -/

/-- What a value says of a call: zero, or the code of the error. -/
def Value.errorCode : Value → Int
  | .refused e => e.code
  | .code c | .codeOut c _ => c
  | _ => 0

/-- What an event says of the schedule: what the process has told the outside, or
which thread began which routine, or took a step and with what code. -/
inductive Mark where
  | told (record : Record)
  | began (thread : ThreadId) (entry : Nat) (arg : Word)
  | stepped (thread : ThreadId) (code : Int)
  | limit
  deriving DecidableEq, Repr

/-- What is told of the schedule.  How a panic is reported is no part of it. -/
def Record.mark? : Record → Option Mark
  | .notice (.panicked _) | .flush => none
  | record => some (.told record)

/-- What an event says of the schedule, if anything. -/
def Event.mark? : Event → Option Mark
  | .told record => record.mark?
  | .began thread routine arg => some (.began thread routine.entry arg)
  | .stepped thread _ value => some (.stepped thread value.errorCode)
  | .limit => some .limit

namespace Machine

/-- The schedule that a program has followed, the latest first. -/
def marks (m : Machine) : List Mark := m.events.filterMap Event.mark?

theorem marks_listen (m : Machine) :
    m.listen.marks = (m.process.journal.filterMap Record.mark?).reverse ++ m.marks := by
  rw [marks, listen, List.filterMap_append, List.filterMap_reverse, List.filterMap_map]
  rfl

/-- Two programs that run step for step. -/
structure Mirrors (m m' : Machine) : Prop where
  process : Process.Agree .plain m.process m'.process
  limit : m.limit = m'.limit
  routines : List.Forall₂ (List.Forall₂ Step.Recasts) m.routines m'.routines
  registers : m.registers = m'.registers
  activations : List.Forall₂ (fun x y => x.1 = y.1 ∧ x.2.Mirrors y.2) m.activations m'.activations
  marks : m.marks = m'.marks
  steps : m.steps = m'.steps

/-- Whether two programs come apart when their client code sees `reply`: the
native call has no foreign form, since its quantum is not a positive number, or
it fails where the foreign one ends the process. -/
def parts (m m' : Machine) (reply : Reply) : Bool :=
  match m.activation.tasks, m'.activation.tasks with
  | .perform (.init quantum) :: _, .perform (.foreignInit _) :: _ => (m.read quantum).signed ≤ 0
  | .await step :: _, .await step' :: _ => !step.aborts reply && step'.aborts reply
  | _, _ => false

end Machine

/-! ## lists of activations -/

section

variable {R : β → β' → Prop}

theorem lookup_forall₂ [BEq α] {l : List (α × β)} {l' : List (α × β')}
    (h : List.Forall₂ (fun x y => x.1 = y.1 ∧ R x.2 y.2) l l') (key : α) :
    Option.Rel R (l.lookup key) (l'.lookup key) := by
  induction h with
  | nil => exact .none
  | @cons x y l l' hxy _ ih =>
      obtain ⟨a, b⟩ := x
      obtain ⟨a', b'⟩ := y
      obtain ⟨hkey, hrel⟩ := hxy
      simp only at hkey hrel
      subst hkey
      rw [List.lookup_cons, List.lookup_cons]
      split
      · exact .some hrel
      · exact ih

theorem filter_forall₂ {l : List (α × β)} {l' : List (α × β')}
    (h : List.Forall₂ (fun x y => x.1 = y.1 ∧ R x.2 y.2) l l') (f : α → Bool) :
    List.Forall₂ (fun x y => x.1 = y.1 ∧ R x.2 y.2) (l.filter fun x => f x.1)
      (l'.filter fun x => f x.1) := by
  induction h with
  | nil => exact .nil
  | cons hxy _ ih =>
      rw [List.filter_cons, List.filter_cons, hxy.1]
      split
      · exact .cons hxy ih
      · exact ih

theorem getElem?_forall₂ {l : List β} {l' : List β'} (h : List.Forall₂ R l l') (i : Nat) :
    Option.Rel R l[i]? l'[i]? := by
  induction h generalizing i with
  | nil => exact .none
  | cons hxy _ ih =>
      cases i with
      | zero => exact .some hxy
      | succ i => exact ih i

theorem getD_rel {a : Option β} {a' : Option β'} (h : Option.Rel R a a') (hd : R d d') :
    R (a.getD d) (a'.getD d') := by
  cases h with
  | none => exact hd
  | some hrel => exact hrel

end

/-! ## one machine -/

/-- A variable that is written to holds the word that the native call returns. -/
theorem Reply.writeOut_eq (reply : Reply) (old : Word) :
    (reply.word?.map fun _ => reply.writeOut true old) = reply.word? := by
  cases hword : reply.word? with
  | none => rfl
  | some word => simp [Reply.writeOut, hword]

theorem Value.errorCode_ofReply (reply : Reply) : (Value.ofReply reply).errorCode = reply.code := by
  cases reply <;> rfl

namespace Machine

variable {step : Step}

theorem perform_of_isPlain (hplain : step.isPlain) (m : Machine) (a : Activation) :
    m.perform step a =
      match m.callOf? step with
      | some c => (m.setActivation { a with tasks := .await step :: a.tasks }).call c
      | none => (m.setActivation a).report step (m.valueOf step) := by
  cases step <;> first | rfl | contradiction

theorem await_of_aborts (h : step.aborts reply = true) (m : Machine) (a : Activation) :
    m.await step reply a = { m with process := m.process.abort } := by
  unfold Step.aborts at h
  split at h
  · rfl
  · contradiction

theorem await_of_returns (h : step.aborts reply = false) (m : Machine) (a : Activation) :
    m.await step reply a =
      ((m.setActivation { a with guards := Machine.guardsAfter reply a.guards step }).write?
        (result? reply step).1 (result? reply step).2).report step (valueOfReply reply step) := by
  unfold Machine.await
  split
  · contradiction
  · rfl

/-- A turn that begins no routine does the first task. -/
theorem turn_eq (m : Machine) (hbegin : ∀ routine arg, reply ≠ .begin routine arg) :
    m.turn reply =
      match m.activation.tasks with
      | [] => m.fetch m.activation
      | .perform step :: tasks => m.perform step { m.activation with tasks }
      | .await step :: tasks => m.await step reply { m.activation with tasks }
      | .close guard step :: tasks =>
        (m.setActivation { m.activation with tasks := .await step :: tasks }).call (.release guard)
      | .release guard :: tasks =>
        (m.setActivation { m.activation with tasks }).call (.release guard)
      | .leave last :: tasks => (m.setActivation { m.activation with tasks }).call last := by
  unfold Machine.turn
  split
  · exact absurd rfl (hbegin _ _)
  · rfl

end Machine

/-! ## small steps of two machines -/

namespace Machine.Mirrors

variable {m m' : Machine} {a a' : Activation} {step step' : Step}

theorem refl (m : Machine) : Mirrors m m where
  process := .refl _ _
  limit := rfl
  routines := List.forall₂_same.mpr fun _ _ => List.forall₂_same.mpr fun step _ => .same step
  registers := rfl
  activations := List.forall₂_same.mpr fun x _ => ⟨rfl, .refl x.2⟩
  marks := rfl
  steps := rfl

theorem self (h : Mirrors m m') : m.self = m'.self := h.process.currentId

theorem strand (h : Mirrors m m') : m.process.strand = m'.process.strand := h.process.strand

theorem activation (h : Mirrors m m') : m.activation.Mirrors m'.activation := by
  unfold Machine.activation
  rw [h.strand]
  exact getD_rel (lookup_forall₂ h.activations _) ⟨.nil, rfl, rfl, rfl, .nil⟩

theorem setActivation (h : Mirrors m m') (ha : a.Mirrors a') :
    Mirrors (m.setActivation a) (m'.setActivation a') := by
  refine { h with activations := ?_ }
  simp only [Machine.setActivation, h.strand]
  exact .cons ⟨rfl, ha⟩ (filter_forall₂ h.activations fun strand => strand ≠ m'.process.strand)

theorem withProcess (h : Mirrors m m') (hp : Process.Agree .plain p p') :
    Mirrors { m with process := p } { m' with process := p' } :=
  { h with process := hp }

theorem call (h : Mirrors m m') (hcall : View.plain.Calls c c') : Mirrors (m.call c) (m'.call c') :=
  h.withProcess (h.process.toAlike.perform hcall)

theorem see (h : Mirrors m m') (he : e.mark? = e'.mark?) : Mirrors (m.see e) (m'.see e') := by
  refine { h with marks := ?_ }
  have hmarks := h.marks
  simp only [Machine.marks, Machine.see] at hmarks ⊢
  rw [List.filterMap_cons, List.filterMap_cons, he, hmarks]

theorem report (h : Mirrors m m') (step step' : Step) (hv : v.errorCode = v'.errorCode) :
    Mirrors (m.report step v) (m'.report step' v') :=
  h.see (by rw [Event.mark?, Event.mark?, h.self, hv])

theorem write (h : Mirrors m m') (dest : Nat) (value : Word) :
    Mirrors (m.write dest value) (m'.write dest value) :=
  { h with registers := by rw [Machine.write, Machine.write, h.registers] }

theorem write? (h : Mirrors m m') (dest : Option Nat) (value : Option Word) :
    Mirrors (m.write? dest value) (m'.write? dest value) := by
  unfold Machine.write?
  split
  · exact h.write _ _
  · exact h

theorem listen (h : Mirrors m m') : Mirrors m.listen m'.listen := by
  refine { h with process := h.process.listen, marks := ?_ }
  rw [marks_listen, marks_listen, h.process.journal, h.marks]

theorem read (h : Mirrors m m') (o : Operand) : m.read o = m'.read o := by
  cases o with
  | const value => rfl
  | arg => exact h.activation.arg
  | self => rw [Machine.read, Machine.read, h.self]
  | register index => rw [Machine.read, Machine.read, h.registers]

theorem readId (h : Mirrors m m') (o : Operand) : m.readId o = m'.readId o := by
  rw [Machine.readId, Machine.readId, h.read]

/-! ## making a call -/

/-- The two steps make the same call, or none, unless an initialisation has no
foreign form. -/
theorem callOf? (h : Mirrors m m') (hstep : step.Recasts step')
    (hinit : ∀ q, step = .init q → step' = .foreignInit q → 0 < (m.read q).signed) :
    Option.Rel View.plain.Calls (m.callOf? step) (m'.callOf? step') := by
  cases hstep with
  | same step =>
      have hcall : m.callOf? step = m'.callOf? step := by
        cases step <;> simp only [Machine.callOf?, h.read, h.readId, h.activation.guards]
      rw [hcall]
      cases m'.callOf? step with
      | none => exact .none
      | some c => exact .some (.same c)
  | init q =>
      have hpos := hinit q rfl rfl
      have hforeign : m'.callOf? (.foreignInit q) = some (.init (.ofMicros (m.read q))) := by
        rw [Machine.callOf?, ← h.read, Call.foreignInit, if_neg (Int.not_le.mpr hpos)]
        rfl
      rw [hforeign]
      exact .some (.same _)
  | create routine x dest | createNull routine x =>
      have hroutine : View.plain.routine ⟨routine, .native⟩ =
          View.plain.routine ⟨routine, .foreign⟩ := rfl
      rw [Machine.callOf?, Machine.callOf?, h.read, Call.foreignCreate]
      exact .some (.create hroutine _)
  | join id dest | joinNull id | cancel id =>
      rw [Machine.callOf?, Machine.callOf?, h.readId]
      exact .some (.same _)
  | yield | self => exact .some (.same _)
  | exit | equal | without => exact .none

/-- What the two steps report that make no call. -/
theorem errorCode_valueOf (h : Mirrors m m') (hstep : step.Recasts step')
    (hnone : m.callOf? step = none) :
    (m.valueOf step).errorCode = (m'.valueOf step').errorCode := by
  cases hstep with
  | same step =>
      cases step with
      | foreignInit period => rw [valueOf, valueOf, h.read]
      | equal convention x y => cases convention <;> rfl
      | _ => rfl
  | exit | equal | without => rfl
  | _ => contradiction

theorem perform_plain (h : Mirrors m m') (ha : a.Mirrors a') (hstep : step.Recasts step')
    (hplain : step.isPlain)
    (hinit : ∀ q, step = .init q → step' = .foreignInit q → 0 < (m.read q).signed) :
    Mirrors (m.perform step a) (m'.perform step' a') := by
  have hplain' : step'.isPlain := hstep.isPlain_eq ▸ hplain
  have hcall := h.callOf? hstep hinit
  rw [perform_of_isPlain hplain, perform_of_isPlain hplain']
  cases hnone : m.callOf? step with
  | none =>
      rw [hnone] at hcall
      generalize m'.callOf? step' = call' at hcall
      cases hcall
      exact (h.setActivation ha).report step step' (h.errorCode_valueOf hstep hnone)
  | some c =>
      rw [hnone] at hcall
      generalize m'.callOf? step' = call' at hcall
      cases hcall with
      | some hc =>
          exact (h.setActivation (ha.withTasks (.cons (.await hstep) ha.tasks))).call hc

/-! ## steps of their own -/

theorem guard?_tasks (h : List.Forall₂ Task.Mirrors tasks tasks') :
    tasks.filterMap Task.guard? = tasks'.filterMap Task.guard? := by
  induction h with
  | nil => rfl
  | cons htask _ ih => cases htask <;> simp only [List.filterMap_cons, Task.guard?, ih]

/-- Two activations that end release the same guards. -/
theorem leaving (ha : a.Mirrors a') (hlast : Task.Mirrors (.leave c) (.leave c')) :
    (a.leaving c).Mirrors (a'.leaving c') := by
  refine { ha with guards := rfl, tasks := ?_ }
  simp only [Activation.leaving, guard?_tasks ha.tasks, ha.guards]
  refine List.rel_append ?_ (.cons hlast .nil)
  rw [List.forall₂_map_left_iff, List.forall₂_map_right_iff, List.forall₂_same]
  exact fun guard _ => .release guard

theorem finish (h : Mirrors m m') (name name' : String) (hv : v.errorCode = v'.errorCode)
    (hlast : Task.Mirrors (.leave c) (.leave c')) :
    Mirrors (m.finish name v c) (m'.finish name' v' c') := by
  refine (h.see ?_).setActivation (leaving h.activation hlast)
  rw [Event.mark?, Event.mark?, h.self, hv]

theorem lastCall (h : Mirrors m m') (value : Word) : m.lastCall value = m'.lastCall value := by
  rw [Machine.lastCall, Machine.lastCall, h.strand]

theorem without (h : Mirrors m m') (ha : a.Mirrors a') (hstep : step.Recasts step') :
    Mirrors (m.perform (.without step) a) (m'.perform (.without step') a') := by
  have htasks (guard : Guard) : List.Forall₂ Task.Mirrors
      (.perform step :: .close guard (.without step) :: a.tasks)
      (.perform step' :: .close guard (.without step') :: a'.tasks) :=
    .cons (.perform hstep) (.cons (.close guard hstep.without) ha.tasks)
  rw [Machine.perform, Machine.perform, h.process.signal]
  exact (h.setActivation (ha.withTasks (htasks _))).call (.same _)

/-- **Two programs that perform a step and its foreign form keep together**, if
the native call has a foreign form. -/
theorem perform (h : Mirrors m m') (ha : a.Mirrors a') (hstep : step.Recasts step')
    (hinit : ∀ q, step = .init q → step' = .foreignInit q → 0 < (m.read q).signed) :
    Mirrors (m.perform step a) (m'.perform step' a') := by
  by_cases hplain : step.isPlain
  · exact h.perform_plain ha hstep hplain hinit
  · have hset := h.setActivation ha
    cases hstep with
    | same step =>
        cases step with
        | goto target => exact h.setActivation { ha with place := rfl }
        | ifLess x y target =>
            rw [Machine.perform, Machine.perform, h.read, h.read]
            split
            · exact h.setActivation { ha with place := rfl }
            · exact hset
        | ret value =>
            rw [Machine.perform, Machine.perform, h.lastCall, h.read]
            exact hset.finish _ _ rfl (.leave _)
        | panic => exact hset.finish _ _ rfl (.panicked _ _)
        | exit convention value =>
            rw [Machine.perform, Machine.perform, h.read]
            exact ((h.report _ _ rfl).setActivation (ha.withTasks .nil)).call (.same _)
        | without inner => exact h.without ha (.same inner)
        | set dest value =>
            rw [Machine.perform, Machine.perform, h.read]
            exact (hset.write _ _).report _ _ rfl
        | add dest value =>
            rw [Machine.perform, Machine.perform, h.read, h.read]
            exact (hset.write _ _).report _ _ rfl
        | _ => exact absurd rfl hplain
    | exit value =>
        rw [Machine.perform, Machine.perform, h.read]
        exact ((h.report _ _ rfl).setActivation (ha.withTasks .nil)).call (.same _)
    | without hinner => exact h.without ha hinner
    | _ => exact absurd rfl hplain

/-! ## seeing a reply -/

theorem guardsAfter (hstep : step.Recasts step') (reply : Reply) (guards : List (Option Guard)) :
    Machine.guardsAfter reply guards step = Machine.guardsAfter reply guards step' := by
  cases hstep <;> rfl

theorem write?_result (h : Mirrors m m') (hstep : step.Recasts step') (reply : Reply) :
    Mirrors (m.write? (result? reply step).1 (result? reply step).2)
      (m'.write? (result? reply step').1 (result? reply step').2) := by
  cases hstep with
  | createNull | joinNull => exact h
  | create routine x dest | join id dest =>
      simp only [result?, Reply.writeOut_eq]
      exact h.write? _ _
  | _ => exact h.write? _ _

theorem errorCode_valueOfReply (hstep : step.Recasts step') (reply : Reply) :
    (valueOfReply reply step).errorCode = (valueOfReply reply step').errorCode := by
  cases hstep with
  | same | yield | exit | self | equal | without => rfl
  | _ => exact Value.errorCode_ofReply reply

/-- **They keep together when they see the reply**, unless only the foreign call
ends the process. -/
theorem await (h : Mirrors m m') (ha : a.Mirrors a') (hstep : step.Recasts step')
    (hparts : step'.aborts reply = true → step.aborts reply = true) :
    Mirrors (m.await step reply a) (m'.await step' reply a') := by
  cases haborts : step'.aborts reply with
  | true =>
      rw [await_of_aborts (hparts haborts), await_of_aborts haborts]
      exact h.withProcess h.process.abort
  | false =>
      have hset : Mirrors
          (m.setActivation { a with guards := Machine.guardsAfter reply a.guards step })
          (m'.setActivation { a' with guards := Machine.guardsAfter reply a'.guards step' }) :=
        h.setActivation { ha with guards := by rw [guardsAfter hstep, ha.guards] }
      rw [await_of_returns (hstep.aborts_of haborts), await_of_returns haborts]
      exact (hset.write?_result hstep reply).report _ _ (errorCode_valueOfReply hstep reply)

/-! ## turns -/

theorem fetch (h : Mirrors m m') (ha : a.Mirrors a') : Mirrors (m.fetch a) (m'.fetch a') := by
  have hnext := getElem?_forall₂ ha.code a.place
  unfold Machine.fetch
  rw [← ha.place, h.strand, h.limit, h.steps, h.lastCall]
  generalize a.code[a.place]? = next, a'.code[a.place]? = next' at hnext
  cases hnext with
  | none =>
      split
      · contradiction
      · exact h.finish _ _ rfl (.leave _)
      · exact h.finish _ _ rfl (.leave _)
  | @some step step' hstep =>
      dsimp only
      split
      · exact (h.see rfl).withProcess (h.process.toAlike.stop _)
      · have hnext : Activation.Mirrors { a with place := a.place + 1, tasks := [.perform step] }
            { a' with place := a.place + 1, tasks := [.perform step'] } :=
          { ha with place := rfl, tasks := .cons (.perform hstep) .nil }
        exact { h.setActivation hnext with steps := rfl }

theorem begin (h : Mirrors m m') (hentry : routine.entry = routine'.entry) (arg : Word) :
    Mirrors (m.begin routine arg) (m'.begin routine' arg) := by
  have hcode : List.Forall₂ Step.Recasts ((m.routines[routine.entry]?).getD [])
      ((m'.routines[routine'.entry]?).getD []) := by
    rw [← hentry]
    exact getD_rel (getElem?_forall₂ h.routines _) .nil
  have hsee : Mirrors (m.see (.began m.self routine arg)) (m'.see (.began m'.self routine' arg)) :=
    h.see (by rw [Event.mark?, Event.mark?, h.self, hentry])
  have ha : Activation.Mirrors
      { code := (m.routines[routine.entry]?).getD [], arg, convention := routine.convention }
      { code := (m'.routines[routine'.entry]?).getD [], arg, convention := routine'.convention } :=
    ⟨hcode, rfl, rfl, rfl, .nil⟩
  exact (hsee.setActivation ha).withProcess (h.process.toAlike.answer rfl)

/-- **Two programs that run step for step take their next turns together**, or
part there, or end both by a panic. -/
theorem turn (h : Mirrors m m') (hreply : View.plain.reply reply = View.plain.reply reply')
    (hparts : m.parts m' reply = false) :
    Mirrors (m.turn reply) (m'.turn reply') ∨
      ∃ x x' c c', Mirrors x x' ∧ m.turn reply = x.call (Convention.panicked c) ∧
        m'.turn reply' = x'.call (Convention.panicked c') := by
  by_cases hbegin : ∃ routine arg, reply = .begin routine arg
  · obtain ⟨routine, arg, rfl⟩ := hbegin
    obtain ⟨routine', rfl, hentry⟩ := View.begin_of_plain hreply
    exact .inl (h.begin hentry arg)
  · have hbegin : ∀ routine arg, reply ≠ .begin routine arg := by simpa using hbegin
    obtain rfl := View.reply_eq_of_plain hreply hbegin
    have htasks := h.activation.tasks
    rw [turn_eq m hbegin, turn_eq m' hbegin]
    generalize hl : m.activation.tasks = l, hl' : m'.activation.tasks = l' at htasks
    cases htasks with
    | nil => exact .inl (h.fetch h.activation)
    | cons htask hrest =>
        have ha := h.activation.withTasks hrest
        cases htask with
        | perform hstep =>
            refine .inl (h.perform ha hstep fun q hq hq' => ?_)
            subst hq hq'
            rw [Machine.parts, hl, hl'] at hparts
            exact Int.not_le.mp (of_decide_eq_false hparts)
        | await hstep =>
            refine .inl (h.await ha hstep fun haborts => ?_)
            rw [Machine.parts, hl, hl'] at hparts
            simpa [haborts] using hparts
        | close guard hstep =>
            have hawait := h.activation.withTasks (.cons (.await hstep) hrest)
            exact .inl ((h.setActivation hawait).call (.same _))
        | release guard => exact .inl ((h.setActivation ha).call (.same _))
        | leave last => exact .inl ((h.setActivation ha).call (.same _))
        | panicked c c' => exact .inr ⟨_, _, c, c', h.setActivation ha, rfl, rfl⟩

end Machine.Mirrors

end GreenThreads
