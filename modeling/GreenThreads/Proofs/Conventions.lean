import GreenThreads.Proofs.Join
import GreenThreads.Proofs.Mirrors
import GreenThreads.Proofs.Moments

/-!
# GreenThreads.Proofs.Conventions

The foreign calling convention agrees with the native one.

* `Run.exists_conveyed` — a foreign call returns, as numbers, what the native
  call returns;
* `Mirrors.run` — a program some of whose calls are made the foreign way runs
  like the program with native calls, turn by turn.

The main statement is `conventions_agree`.
-/

namespace GreenThreads

/-! ## what a call returns -/

/-- The calls that have a form which returns a code. -/
def Call.hasCode : Call → Bool
  | .init _ | .create .. | .join _ | .cancel _ => true
  | _ => false

/-- What a native call has come to, after what is written in `τ`: an error, or
the word that there is to pass on, if any. -/
inductive Transcript.ComesTo (τ : Transcript) :
    Call → Reply → Except ThreadError (Option Word) → Prop where
  | refused : ComesTo τ call (.refused e) (.error e)
  | started : ComesTo τ (.init config) .done (.ok none)
  | created (made : ThreadId) :
      ComesTo τ (.create routine arg) (.thread made) (.ok (some (UInt64.ofNat made.val)))
  | returned {target : ThreadId} (h : τ.EndedItself target v) :
      ComesTo τ (.join target) (.status (.returned v)) (.ok (some v))
  | cancelled {target : ThreadId} (h : τ.WasCancelled target) :
      ComesTo τ (.join target) (.status .cancelled) (.ok (some Word.largest))
  | done (target : ThreadId) : ComesTo τ (.cancel target) .done (.ok none)

/-- What a foreign call returns, and what is behind its pointer afterwards, is
what the native call comes to. -/
structure Reply.Conveys (reply : Reply) (result : Except ThreadError (Option Word)) : Prop where
  zero_iff : reply.code = 0 ↔ ∃ word, result = .ok word
  code : ∀ e, result = .error e → reply.code = e.code
  written : ∀ word, result = .ok (some word) → ∀ old, reply.writeOut true old = word
  untouched : (∀ word, result ≠ .ok (some word)) → ∀ old, reply.writeOut true old = old
  null : ∀ old, reply.writeOut false old = old

theorem Reply.conveys_error (e : ThreadError) : Conveys (.refused e) (.error e) where
  zero_iff := by simp [code, Int.ne_of_lt e.code_neg]
  code _ h := by rw [Except.error.inj h]; rfl
  written _ h := nomatch h
  untouched _ _ := rfl
  null _ := rfl

theorem Reply.conveys_ok {reply : Reply} (hcode : reply.code = 0) (hword : reply.word? = word) :
    Conveys reply (.ok word) where
  zero_iff := by simp [hcode]
  code _ h := nomatch h
  written w h old := by
    rw [Except.ok.inj h] at hword
    simp [writeOut, hword]
  untouched hnone old := by
    cases word with
    | none => simp [writeOut, hword]
    | some w => exact absurd rfl (hnone w)
  null _ := rfl

theorem Transcript.ComesTo.conveys {τ : Transcript} {call : Call}
    (h : τ.ComesTo call reply result) : reply.Conveys result := by
  cases h with
  | refused => exact Reply.conveys_error _
  | _ => exact Reply.conveys_ok rfl rfl

theorem Due.admits {call : Call} (h : Due ended (some call) reply) : call.admits reply := by
  cases h with
  | done hgives => cases call <;> first | rfl | contradiction
  | joined _ => rfl

namespace Process

variable {τ earlier : Transcript} {p q : Process} {call : Call}

/-- **A call is answered in kind**, whenever it is answered. -/
theorem Run.admits_of_answered (run : Run τ p) (h : τ.Answered who call reply earlier) :
    call.admits reply := by
  obtain ⟨-, q, -, -, -, -, -, hreply⟩ | ⟨ended, hdue⟩ := run.answered_cases h
  · exact admits_perform call hreply
  · exact hdue.admits

/-- **A foreign call conveys what the native call comes to**, if that returns. -/
theorem Run.exists_conveyed (run : Run τ p) (h : τ.Answered who call reply earlier)
    (hcall : call.hasCode) (hreturns : ∀ cause, reply ≠ .overflowed cause) :
    ∃ result, earlier.ComesTo call reply result ∧ reply.Conveys result := by
  have hadmits := run.admits_of_answered h
  suffices hcomes : ∃ result, earlier.ComesTo call reply result by
    obtain ⟨result, hcomes⟩ := hcomes
    exact ⟨result, hcomes, hcomes.conveys⟩
  cases reply with
  | refused e => exact ⟨_, .refused⟩
  | overflowed cause => exact absurd rfl (hreturns cause)
  | thread made =>
      cases call with
      | create routine arg => exact ⟨_, .created made⟩
      | _ => contradiction
  | done =>
      cases call with
      | init config => exact ⟨_, .started⟩
      | cancel id => exact ⟨_, .done id⟩
      | _ => contradiction
  | status status =>
      cases call with
      | join id =>
          have hmem : (id, status) ∈ earlier.ends := run.truthful h
          cases status with
          | returned v => exact ⟨_, .returned (Transcript.mem_ends_returned.mp hmem)⟩
          | cancelled =>
              have hsuffix : earlier <:+ τ := (List.suffix_cons _ earlier).trans h.1
              exact ⟨_, .cancelled (run.wasCancelled hsuffix hmem)⟩
      | _ => contradiction
  | _ => cases call <;> contradiction

end Process

/-! ## programs turn by turn -/

namespace Machine

variable {m m' : Machine}

/-- The machine when its client code has the processor again, if it ever has. -/
def ready? (m : Machine) : Option Machine :=
  m.listen.process.settle.map fun p => { m.listen with process := p }.listen

/-- A run takes its first turn, and then the others. -/
theorem run_succ (n : Nat) (m : Machine) :
    m.run (n + 1) =
      match m.ready? with
      | none => (m.listen, none)
      | some r =>
        match r.process.control with
        | .client reply => (r.turn reply).run n
        | .over outcome => (r, some outcome)
        | _ => (r, none) := by
  rw [run, ready?]
  cases m.listen.process.settle <;> rfl

/-- Whether two programs come apart within `n` turns. -/
def partWithin : Nat → Machine → Machine → Bool
  | 0, _, _ => false
  | n + 1, m, m' =>
    match m.ready?, m'.ready? with
    | some r, some r' =>
      match r.process.control, r'.process.control with
      | .client reply, .client reply' =>
        r.parts r' reply || partWithin n (r.turn reply) (r'.turn reply')
      | _, _ => false
    | _, _ => false

/-- Two programs have come equally far: the same threads are where they were, and
have ended the same way, and the same has been done. -/
structure SameCourse (m m' : Machine) : Prop where
  scheduler : m.process.scheduler.view .plain = m'.process.scheduler.view .plain
  pool : m.process.pool = m'.process.pool
  timer : m.process.timer = m'.process.timer
  registers : m.registers = m'.registers
  marks : m.marks = m'.marks
  steps : m.steps = m'.steps

theorem Mirrors.sameCourse (h : Mirrors m m') : SameCourse m m' where
  scheduler := h.process.scheduler
  pool := h.process.pool
  timer := h.process.timer
  registers := h.registers
  marks := h.marks
  steps := h.steps

theorem Mirrors.ready? (h : Mirrors m m') : Option.Rel Mirrors m.ready? m'.ready? := by
  have hsettle := h.listen.process.settle
  rw [Machine.ready?, Machine.ready?]
  generalize m.listen.process.settle = p, m'.listen.process.settle = p' at hsettle
  cases hsettle with
  | none => exact .none
  | some hp => exact .some (h.listen.withProcess hp).listen

/-! ## the end of a program -/

/-- A process that is over takes no turn. -/
theorem run_of_stopped (h : m.process.control = .over outcome) (n : Nat) :
    m.run (n + 1) = (m.listen.listen, some outcome) := by
  have hlistened : m.listen.process.control = .over outcome := h
  have hsettled : m.listen.process.isSettled = true := by rw [Process.isSettled, hlistened]
  have hsettle : m.listen.process.settle = some m.listen.process := by
    rw [Process.settle, Process.turnBound, Nat.mul_add, Process.settleWithin, if_pos hsettled]
  rw [run, hsettle]
  simp only [hlistened]

/-- Nothing that is told of a panic belongs to the schedule. -/
theorem marks_panicked (c : Convention) (m : Machine) :
    (m.call c.panicked).listen.listen.marks = m.listen.marks := by
  have htold : (m.call c.panicked).process.journal.filterMap Record.mark? =
      m.process.journal.filterMap Record.mark? := by
    cases c with
    | foreign => rfl
    | native =>
        have hjournal : (m.call .panic).process.journal =
            m.process.journal ++ [.notice (.panicked m.self), .flush] :=
          List.append_assoc ..
        rw [Convention.panicked, hjournal, List.filterMap_append]
        exact List.append_nil _
  rw [marks_listen, marks_listen, marks_listen, htold]
  rfl

/-- Both programs end, whichever way the panic has left the routine. -/
theorem Mirrors.run_panicked (h : Mirrors m m') (c c' : Convention) (n : Nat) :
    SameCourse ((m.call c.panicked).run n).1 ((m'.call c'.panicked).run n).1 ∧
      ((m.call c.panicked).run n).2 = ((m'.call c'.panicked).run n).2 := by
  have hover (c : Convention) (m : Machine) :
      (m.call c.panicked).process.control = .over (.signal 6) := by cases c <;> rfl
  have hscheduler (c : Convention) (m : Machine) :
      (m.call c.panicked).process.scheduler = m.process.scheduler := by cases c <;> rfl
  have hpool (c : Convention) (m : Machine) :
      (m.call c.panicked).process.pool = m.process.pool := by cases c <;> rfl
  have htimer (c : Convention) (m : Machine) :
      (m.call c.panicked).process.timer = m.process.timer := by cases c <;> rfl
  have hcourse : SameCourse (m.call c.panicked) (m'.call c'.panicked) :=
    { h.sameCourse with
      scheduler := by rw [hscheduler, hscheduler, h.process.scheduler]
      pool := by rw [hpool, hpool, h.process.pool]
      timer := by rw [htimer, htimer, h.process.timer] }
  cases n with
  | zero =>
      rw [run, run]
      exact ⟨hcourse, rfl⟩
  | succ n =>
      rw [run_of_stopped (hover c m), run_of_stopped (hover c' m')]
      refine ⟨{ hcourse with marks := ?_ }, rfl⟩
      rw [marks_panicked, marks_panicked, h.listen.marks]

/-! ## whole programs -/

/-- **Two programs that run step for step go the same way**, unless they come
apart. -/
theorem Mirrors.run (h : Mirrors m m') (n : Nat) (hparts : partWithin n m m' = false) :
    SameCourse (m.run n).1 (m'.run n).1 ∧ (m.run n).2 = (m'.run n).2 := by
  induction n generalizing m m' with
  | zero =>
      rw [Machine.run, Machine.run]
      exact ⟨h.sameCourse, rfl⟩
  | succ n ih =>
      have hready := h.ready?
      rw [partWithin] at hparts
      rw [run_succ, run_succ]
      generalize m.ready? = r, m'.ready? = r' at hready hparts
      cases hready with
      | none => exact ⟨h.listen.sameCourse, rfl⟩
      | @some r r' hr =>
          have hcontrol := hr.process.control
          dsimp only at hparts ⊢
          generalize r.process.control = control, r'.process.control = control' at hcontrol hparts
          cases hcontrol with
          | client hreply =>
              obtain ⟨hnow, hlater⟩ := Bool.or_eq_false_iff.mp hparts
              obtain hturn | ⟨x, x', c, c', hx, heq, heq'⟩ := hr.turn hreply hnow
              · exact ih hturn hlater
              · simp only [heq, heq']
                exact hx.run_panicked c c' n
          | arriving | waiting => exact ⟨hr.sameCourse, rfl⟩
          | stopped => exact ⟨hr.sameCourse, rfl⟩

theorem Mirrors.start {program program' : Program} (h : program.Recasts program') (limit : Nat)
    (host : Host) : Mirrors (start program limit host) (start program' limit host) where
  process := .refl _ _
  limit := rfl
  routines := h.routines
  registers := rfl
  activations := .cons ⟨rfl, h.main, rfl, rfl, rfl, .nil⟩ .nil
  marks := rfl
  steps := rfl

/-! ## single calls -/

/-- An initialisation with a positive quantum makes the native call. -/
theorem process_foreignInit (hpos : 0 < (m.read quantum).signed) (a : Activation) :
    (m.perform (.foreignInit quantum) a).process =
      m.process.perform (.init (.ofMicros (m.read quantum))) := by
  have hcall : m.callOf? (.foreignInit quantum) = some (.init (.ofMicros (m.read quantum))) := by
    rw [callOf?, Call.foreignInit, if_neg (Int.not_le.mpr hpos)]
    rfl
  rw [perform_of_isPlain rfl, hcall]
  rfl

/-- One with another quantum makes no call. -/
theorem perform_foreignInit (hneg : (m.read quantum).signed ≤ 0) (a : Activation) :
    m.perform (.foreignInit quantum) a =
      (m.setActivation a).report (.foreignInit quantum)
        (.code ThreadError.invalidQuantum.code) := by
  have hrefused : Call.foreignInit (m.read quantum) = .error .invalidQuantum := if_pos hneg
  rw [perform_of_isPlain rfl]
  simp only [callOf?, valueOf, hrefused]
  rfl

/-- **The foreign convention agrees with the native one.**

* Whatever native call has been answered in a run, and has returned, its foreign
  form returns zero if it succeeded, and otherwise the code of its error.  The
  variable gets the new identity, or the value of the thread that was joined, or
  the word that stands for a cancellation; it is left alone when the call has
  failed or the pointer is null.
* In every state, a step and its foreign form leave the same process, but for
  how new routines are to be called, and whatever follows, what is seen is the
  same.  They also do the same with the same reply.
* A foreign initialisation makes the native call if its quantum is positive, and
  otherwise is refused and changes nothing, in every state.
* So a program some of whose steps are taken the foreign way takes the same
  turns and comes to the same results, on any host and however many steps it may
  take, until there is a native call that does not return or that has no foreign
  form. -/
theorem conventions_agree {τ : Transcript} {p : Process} (run : Process.Run τ p) :
    (∀ who call reply earlier, τ.Answered who call reply earlier → call.hasCode →
      (∀ cause, reply ≠ .overflowed cause) →
      ∃ result, earlier.ComesTo call reply result ∧ reply.Conveys result) ∧
    (∀ (m : Machine) (step step' : Step) (a : Activation), step.Recasts step' →
      ((∀ quantum, step = .init quantum → step' = .foreignInit quantum →
          0 < (m.read quantum).signed) →
        (m.perform step a).Mirrors (m.perform step' a) ∧
        ∀ (σ : Transcript) (moves : List Process.Move),
          Option.Rel
            (fun x y => x.1.map View.plain.moment = y.1.map View.plain.moment ∧
              Process.Agree .plain x.2 y.2)
            ((m.perform step a).process.follow σ moves)
            ((m.perform step' a).process.follow σ moves)) ∧
      ∀ reply, (step'.aborts reply → step.aborts reply) →
        (m.await step reply a).Mirrors (m.await step' reply a)) ∧
    (∀ (m : Machine) (quantum : Operand) (a : Activation),
      (0 < (m.read quantum).signed →
        (m.perform (.foreignInit quantum) a).process =
          m.process.perform (.init (.ofMicros (m.read quantum)))) ∧
      ((m.read quantum).signed ≤ 0 →
        m.perform (.foreignInit quantum) a =
            (m.setActivation a).report (.foreignInit quantum)
              (.code ThreadError.invalidQuantum.code) ∧
          (m.perform (.foreignInit quantum) a).process = m.process)) ∧
    ∀ program program' : Program, program.Recasts program' → ∀ limit host n,
      partWithin n (start program limit host) (start program' limit host) = false →
      SameCourse ((start program limit host).run n).1 ((start program' limit host).run n).1 ∧
        ((start program limit host).run n).2 = ((start program' limit host).run n).2 := by
  refine ⟨?_, ?_, ?_, ?_⟩
  · intro who call reply earlier h hcall hreturns
    exact run.exists_conveyed h hcall hreturns
  · intro m step step' a hstep
    refine ⟨fun hinit => ?_, fun reply haborts => ?_⟩
    · have hperform := (Mirrors.refl m).perform (.refl a) hstep hinit
      exact ⟨hperform, fun σ moves => hperform.process.follow rfl moves⟩
    · exact (Mirrors.refl m).await (.refl a) hstep haborts
  · intro m quantum a
    refine ⟨fun hpos => process_foreignInit hpos a, fun hneg => ?_⟩
    have hrefused := perform_foreignInit hneg a
    exact ⟨hrefused, by rw [hrefused]; rfl⟩
  · intro program program' hprogram limit host n hparts
    exact (Mirrors.start hprogram limit host).run n hparts

/-- A thread that was cancelled is joined, and a program that cancels one and joins
two is run with native calls and with some of them foreign. -/
theorem conventions_agree_of_cancelled :
    let moves : List Process.Move :=
      [.call (.init (.ofMicros 1000)), .call (.create ⟨0, .foreign⟩ 5), .call (.cancel ⟨2⟩),
        .call (.join ⟨2⟩)]
    let program : Program :=
      { main :=
          [.init (.const 1000), .create 0 (.const 5) (some 0), .create 1 (.const 6) (some 1),
            .cancel .native (.register 1), .join (.register 0) (some 2),
            .join (.register 1) (some 3)]
        routines := [[.yield .native, .ret .arg], []] }
    let program' : Program :=
      { main :=
          [.foreignInit (.const 1000), .foreignCreate true 0 (.const 5) (some 0),
            .create 1 (.const 6) (some 1), .cancel .foreign (.register 1),
            .foreignJoin true (.register 0) (some 2), .join (.register 1) (some 3)]
        routines := [[.yield .foreign, .ret .arg], []] }
    let m := start program Program.stepLimit .roomy
    let m' := start program' Program.stepLimit .roomy
    ∃ τ p earlier, ({} : Process).follow [] moves = some (τ, p) ∧
      τ.Answered .initial (.join ⟨2⟩) (.status .cancelled) earlier ∧
      (∀ old, (Reply.status .cancelled).writeOut true old = Word.largest) ∧
      (m'.perform (.foreignInit (.const 0)) { code := [] }).process = {} ∧
      program.Recasts program' ∧ partWithin 40 m m' = false ∧
      SameCourse (m.run 40).1 (m'.run 40).1 ∧
      (m.run 40).2 = some (.exit 0) ∧ (m'.run 40).2 = some (.exit 0) := by
  intro moves program program' m m'
  obtain ⟨τ, p, hfollow⟩ : ∃ τ p, ({} : Process).follow [] moves = some (τ, p) := ⟨_, _, rfl⟩
  obtain ⟨earlier, hjoined⟩ :
      ∃ earlier, τ.Answered .initial (.join ⟨2⟩) (.status .cancelled) earlier := by
    obtain ⟨rfl, -⟩ := Prod.mk.inj (Option.some.inj hfollow)
    exact ⟨_, ⟨[], rfl⟩, rfl⟩
  have hrecasts : program.Recasts program' :=
    ⟨.cons (.init _) (.cons (.create ..) (.cons (.same _) (.cons (.cancel _)
      (.cons (.join ..) (.cons (.same _) .nil))))),
      .cons (.cons .yield (.cons (.same _) .nil)) (.cons .nil .nil)⟩
  have hparts : partWithin 40 m m' = false := by decide +kernel
  obtain ⟨hcalls, -, hinit, hprograms⟩ := conventions_agree (Process.Run.start.follow hfollow)
  obtain ⟨result, hcomes, hconveys⟩ := hcalls _ _ _ _ hjoined rfl (by simp)
  have hwritten : ∀ old, (Reply.status .cancelled).writeOut true old = Word.largest := by
    cases hcomes
    exact hconveys.written _ rfl
  obtain ⟨hcourse, houtcome⟩ := hprograms program program' hrecasts _ _ 40 hparts
  have hexit : (m.run 40).2 = some (.exit 0) := by decide +kernel
  exact ⟨τ, p, earlier, hfollow, hjoined, hwritten,
    ((hinit m' (.const 0) { code := [] }).2 (by decide)).2, hrecasts, hparts,
    hcourse, hexit, houtcome ▸ hexit⟩

end Machine

end GreenThreads
