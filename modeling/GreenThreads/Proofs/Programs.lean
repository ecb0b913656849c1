import GreenThreads.Program
import GreenThreads.Proofs.Run

/-!
# GreenThreads.Proofs.Programs

What the machine does to a process is a run of it, whatever the program.  So
all that holds of runs holds of programs, between any two turns of client code.

* `process_turn` — a turn of client code makes one call, or none;
* `Run.settleWithin` — between them the library takes turns;
* `exists_run` — so the process of a program has come there by a run.
-/

namespace GreenThreads

/-! ## turns of client code -/

namespace Machine

variable {m : Machine}

theorem process_call (c : Call) : (m.call c).process = m.process.perform c := rfl

theorem process_write? (dest : Option Nat) (value : Option Word) :
    (m.write? dest value).process = m.process := by
  unfold write?
  split
  · rfl
  · rfl

/-- Whether a process has stayed as it was, or client code has made one call. -/
def Calls (p q : Process) : Prop := q = p ∨ ∃ call, q = p.perform call

theorem calls_perform (step : Step) (a : Activation) :
    Calls m.process (m.perform step a).process := by
  cases step with
  | goto | ifLess | ret | panic | set | add => exact .inl rfl
  | exit convention value => exact .inr ⟨_, process_call _⟩
  | without inner => exact .inr ⟨_, process_call _⟩
  | _ =>
      -- the others go by the call that `callOf?` finds for them
      simp only [perform]
      split
      · exact .inr ⟨_, process_call _⟩
      · exact .inl rfl

theorem calls_await (step : Step) (reply : Reply) (a : Activation) :
    Calls m.process (m.await step reply a).process := by
  unfold await
  split
  · exact .inr ⟨.abort, rfl⟩
  · exact .inl (process_write? ..)

/-- A program that has taken all the steps it may quits. -/
theorem calls_fetch (a : Activation) : Calls m.process (m.fetch a).process := by
  unfold fetch
  split
  · split
    · exact .inr ⟨.quit limitCode, rfl⟩
    · exact .inl rfl
  · exact .inl rfl
  · exact .inl rfl

/-- A routine begins as if it had set `errno` to what it is. -/
theorem calls_begin (routine : Routine) (arg : Word) :
    Calls m.process (m.begin routine arg).process :=
  .inr ⟨.setErrno m.process.errno, rfl⟩

/-- **A turn of client code makes one call, or none.** -/
theorem process_turn (m : Machine) (reply : Reply) :
    Calls m.process (m.turn reply).process := by
  unfold turn
  split
  · exact calls_begin _ _
  · dsimp only
    split
    · exact calls_fetch _
    · exact calls_perform _ _
    · exact calls_await _ _ _
    · exact .inr ⟨_, process_call _⟩
    · exact .inr ⟨_, process_call _⟩
    · exact .inr ⟨_, process_call _⟩

end Machine

/-! ## from turn to turn -/

namespace Process

variable {τ : Transcript} {p q : Process}

theorem Run.listen (run : Run τ p) : Run τ { p with journal := [] } := run.step .listen

theorem Run.calls (run : Run τ p) (hclient : p.control = .client reply)
    (h : Machine.Calls p q) : ∃ τ', Run τ' q := by
  cases h with
  | inl heq => exact ⟨τ, heq ▸ run⟩
  | inr hcall =>
      obtain ⟨call, rfl⟩ := hcall
      exact ⟨_, run.step (.call hclient call)⟩

/-- The library takes its turns in a run. -/
theorem Run.settleWithin (run : Run τ p) (h : p.settleWithin n = some q) : ∃ τ', Run τ' q := by
  induction n generalizing τ p with
  | zero =>
      rw [Process.settleWithin] at h
      split at h
      · exact ⟨τ, Option.some.inj h ▸ run⟩
      · contradiction
  | succ n ih =>
      rw [Process.settleWithin] at h
      split at h
      · exact ⟨τ, Option.some.inj h ▸ run⟩
      · next hsettled => exact ih (run.step (.turn (Bool.eq_false_iff.mpr hsettled))) h

end Process

namespace Machine

theorem exists_run_of_run {m : Machine} (run : Process.Run τ m.process) (n : Nat) :
    ∃ τ', Process.Run τ' (m.run n).1.process := by
  induction n generalizing τ m with
  | zero => exact ⟨τ, run⟩
  | succ n ih =>
      rw [Machine.run]
      have hlistened : Process.Run τ m.listen.process := run.listen
      cases hsettle : m.listen.process.settle with
      | none => exact ⟨τ, hlistened⟩
      | some p =>
          obtain ⟨τ', run'⟩ := hlistened.settleWithin hsettle
          have hnext := run'.listen
          dsimp only
          split
          · next reply hclient =>
              let m' : Machine := listen { m.listen with process := p }
              obtain ⟨τ'', run''⟩ := hnext.calls hclient (process_turn m' reply)
              exact ih run''
          · exact ⟨τ', hnext⟩
          · exact ⟨τ', hnext⟩

/-- **The process of a program has come to where it is by a run.** -/
theorem exists_run (program : Program) (limit : Nat) (host : Host) (n : Nat) :
    ∃ τ, Process.Run τ ((start program limit host).run n).1.process :=
  exists_run_of_run .start n

end Machine

end GreenThreads
