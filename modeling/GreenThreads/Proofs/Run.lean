import GreenThreads.Process.Turn
import Mathlib.Logic.Relation

/-!
# GreenThreads.Proofs.Run

Runs of a process, with nothing assumed of its client code: whenever client
code holds the processor it may make any call, and whenever the library does
it takes its turn.

```
call    client code makes a call and loses the processor, or is answered at once
turn    the library goes on with the thread that it has switched to
listen  the outside has taken note of what the process told it
```

A run is known by its `Transcript`: the calls that were made and the replies
that were seen, each with the thread whose code did so.  What the transcript
says about threads does not go through the books of the scheduler:

* `outstanding` — the call that a thread waits to have answered;
* `created` — the threads that a call to make one has returned;
* `ends` — how threads have ended, by their own doing or by that of others.
-/

namespace GreenThreads

/-! ## transcripts -/

/-- What client code does and sees. -/
inductive Moment where
  | called (thread : ThreadId) (call : Call)
  | answered (thread : ThreadId) (reply : Reply)
  deriving DecidableEq, Repr

/-- What client code has done and seen, the latest first. -/
abbrev Transcript := List Moment

/-- The value with which a thread is to end that makes a call: the one it
exits with, or zero when it cancels itself. -/
def Call.exitValue? (thread : ThreadId) : Call → Option Word
  | .exit value => some value
  | .cancel id => if id = thread then some 0 else none
  | _ => none

namespace Transcript

/-- The call of a thread that has not been answered. -/
def outstanding (thread : ThreadId) : Transcript → Option Call
  | [] => none
  | .called other call :: earlier =>
    if other = thread then some call else outstanding thread earlier
  | .answered other _ :: earlier =>
    if other = thread then none else outstanding thread earlier

/-- The threads that were made, the latest first. -/
def created : Transcript → List ThreadId
  | [] => []
  | .called .. :: earlier => created earlier
  | .answered thread reply :: earlier =>
    match outstanding thread earlier, reply with
    | some (.create ..), .thread made => made :: created earlier
    | _, _ => created earlier

/-- How threads have ended, the latest first.  A thread ends when it exits,
and when the call of another thread to cancel it has returned.  The initial
thread does not end by its exit, which ends the process in due time; nor does
code that runs before there are threads. -/
def ends : Transcript → List (ThreadId × ExitStatus)
  | [] => []
  | .called thread call :: earlier =>
    match call.exitValue? thread with
    | some value =>
      if thread = .nobody ∨ thread = .initial then ends earlier
      else (thread, .returned value) :: ends earlier
    | none => ends earlier
  | .answered thread reply :: earlier =>
    match outstanding thread earlier, reply with
    | some (.cancel other), .done => (other, .cancelled) :: ends earlier
    | _, _ => ends earlier

/-- The threads that were made and have not ended. -/
def living (τ : Transcript) : List ThreadId :=
  (created τ).filter fun id => id ∉ (ends τ).map Prod.fst

/-- A call of a thread has been answered, after what is written in
`earlier`. -/
def Answered (τ : Transcript) (thread : ThreadId) (call : Call) (reply : Reply)
    (earlier : Transcript) : Prop :=
  .answered thread reply :: earlier <:+ τ ∧ outstanding thread earlier = some call

end Transcript

/-! ## steps and runs -/

namespace Process

/-- The thread whose code the processor runs, or nobody while there are no
threads. -/
def self (p : Process) : ThreadId :=
  match p.strand with
  | .host => p.host.getD .nobody
  | .created id => id

/-- What drives a process on. -/
inductive Move where
  | call (call : Call)
  | turn
  | listen
  deriving DecidableEq, Repr

/-- A step of a process. -/
inductive Step : Process → Move → Process → Prop where
  | call (h : p.control = .client reply) (call : Call) : Step p (.call call) (p.perform call)
  | turn (h : p.isSettled = false) : Step p .turn p.advance
  | listen : Step p .listen { p with journal := [] }

/-- The transcript once client code has seen its reply, if it has one. -/
def seen (p : Process) (τ : Transcript) : Transcript :=
  match p.control with
  | .client reply => .answered p.self reply :: τ
  | _ => τ

/-- The transcript after a step from `p` to `q`. -/
def transcribe (p : Process) (move : Move) (q : Process) (τ : Transcript) : Transcript :=
  match move with
  | .call call => q.seen (.called p.self call :: τ)
  | .turn => q.seen τ
  | .listen => τ

/-- A run of a new process up to `p`, with what is written of it, on any host. -/
inductive Run : Transcript → Process → Prop where
  | start {host : Host} : Run [] { pool := { host } }
  | step (run : Run τ p) (h : p.Step move q) : Run (p.transcribe move q τ) q

/-- The process has come from `p` to `q` in some number of steps. -/
def Later (p q : Process) : Prop := Relation.ReflTransGen (fun a b => ∃ move, a.Step move b) p q

theorem Run.later (run : Run τ p) (h : p.Later q) : ∃ τ', Run τ' q := by
  induction h with
  | refl => exact ⟨τ, run⟩
  | tail _ hstep ih =>
      obtain ⟨τ', run'⟩ := ih
      obtain ⟨move, hmove⟩ := hstep
      exact ⟨_, run'.step hmove⟩

/-- Whether the process is over. -/
def isOver (p : Process) : Bool :=
  match p.control with
  | .over _ => true
  | _ => false

/-! ## runs that can be computed -/

/-- The process after a move, if the move can be made. -/
def move? (p : Process) : Move → Option Process
  | .call call =>
    match p.control with
    | .client _ => some (p.perform call)
    | _ => none
  | .turn => if p.isSettled then none else some p.advance
  | .listen => some { p with journal := [] }

theorem step_iff {p q : Process} : p.Step move q ↔ p.move? move = some q := by
  constructor
  · intro h
    cases h with
    | call hclient call => rw [move?, hclient]
    | turn hsettled => rw [move?, hsettled]; rfl
    | listen => rfl
  · intro h
    cases move with
    | call call =>
        simp only [move?] at h
        split at h
        · next hclient => exact Option.some.inj h ▸ .call hclient call
        · contradiction
    | turn =>
        simp only [move?] at h
        split at h
        · contradiction
        · next hsettled => exact Option.some.inj h ▸ .turn (Bool.eq_false_iff.mpr hsettled)
    | listen => exact Option.some.inj h ▸ .listen

/-- Where a sequence of moves leads, if all of them can be made. -/
def follow (τ : Transcript) (p : Process) : List Move → Option (Transcript × Process)
  | [] => some (τ, p)
  | move :: moves =>
    match p.move? move with
    | none => none
    | some q => q.follow (p.transcribe move q τ) moves

theorem Run.follow (run : Run τ p) (h : p.follow τ moves = some (τ', q)) : Run τ' q := by
  induction moves generalizing τ p with
  | nil =>
      obtain ⟨rfl, rfl⟩ := Prod.mk.inj (Option.some.inj h)
      exact run
  | cons move moves ih =>
      rw [Process.follow] at h
      split at h
      · contradiction
      · next q hq => exact ih (run.step (step_iff.mpr hq)) h

/-! ## where replies come from -/

/-- How client code has come to see a reply: a call was answered at once, or
the library has taken a turn. -/
inductive Reached (earlier : Transcript) (q : Process) : Prop where
  | call (run : Run τ p) (h : p.control = .client reply) (call : Call)
      (hq : q = p.perform call) (hτ : earlier = .called p.self call :: τ)
  | turn (run : Run earlier p) (h : p.isSettled = false) (hq : q = p.advance)

theorem seen_client {p : Process} (h : p.control = .client reply) (τ : Transcript) :
    p.seen τ = .answered p.self reply :: τ := by
  rw [seen, h]

theorem seen_arriving {p : Process} (h : p.control = .arriving r) (τ : Transcript) :
    p.seen τ = τ := by
  rw [seen, h]

/-- A reply is the one that is being seen, or an earlier one. -/
theorem of_suffix_seen {q : Process} (h : .answered who reply :: earlier <:+ q.seen τ) :
    (q.control = .client reply ∧ q.self = who ∧ earlier = τ) ∨
      .answered who reply :: earlier <:+ τ := by
  cases hq : q.control with
  | client reply' =>
      rw [seen_client hq, List.suffix_cons_iff] at h
      cases h with
      | inl heq =>
          obtain ⟨hmoment, rfl⟩ := List.cons.inj heq
          obtain ⟨rfl, rfl⟩ := Moment.answered.inj hmoment
          exact .inl ⟨rfl, rfl, rfl⟩
      | inr hold => exact .inr hold
  | _ =>
      rw [seen, hq] at h
      exact .inr h

/-- For every reply in a transcript there was a process in which client code
saw it. -/
theorem Run.exists_of_answered (run : Run τ p) (h : .answered who reply :: earlier <:+ τ) :
    ∃ q, q.control = .client reply ∧ q.self = who ∧ Run (.answered who reply :: earlier) q ∧
      Reached earlier q := by
  induction run with
  | start => simp at h
  | @step τ p move q run hstep ih =>
      cases hstep with
      | call hclient call =>
          have hnext := run.step (.call hclient call)
          rw [transcribe] at h hnext
          cases of_suffix_seen h with
          | inl hnew =>
              obtain ⟨hreply, rfl, rfl⟩ := hnew
              rw [seen_client hreply] at hnext
              exact ⟨_, hreply, rfl, hnext, .call run hclient call rfl rfl⟩
          | inr hold => exact ih ((List.suffix_cons_iff.mp hold).resolve_left (by simp))
      | turn hsettled =>
          have hnext := run.step (.turn hsettled)
          rw [transcribe] at h hnext
          cases of_suffix_seen h with
          | inl hnew =>
              obtain ⟨hreply, rfl, rfl⟩ := hnew
              rw [seen_client hreply] at hnext
              exact ⟨_, hreply, rfl, hnext, .turn run hsettled rfl⟩
          | inr hold => exact ih hold
      | listen => exact ih h

end Process

end GreenThreads
