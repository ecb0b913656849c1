import GreenThreads.Proofs.Refusals
import GreenThreads.Proofs.Rounding

/-!
# GreenThreads.Proofs.Quantum

A quantum that is accepted arms the timer.

Whether a quantum is valid is read off its whole microseconds, which are counted
without a bound.  The timer is set from its seconds and from what is left of
them, apart, and the seconds wrap to a signed word.  Both go by the same thing:

* an interval stops the timer exactly when the duration has no whole
  microsecond (`Timeval.ofDuration_eq_zero_iff`);
* as long as the seconds do not wrap, nothing but the part of a microsecond is
  lost (`Timeval.micros_ofDuration`);
* seconds that wrap are negative, and the host turns them down
  (`Timer.arm_of_wraps`).

A quantum given in microseconds never wraps, so the call that starts the
scheduler refuses it only if it is zero.  The main statement is
`accepted_quantum_arms`.
-/

namespace GreenThreads

/-! ## durations -/

namespace Duration

/-- The span in nanoseconds. -/
def nanoseconds (d : Duration) : Nat := d.secs.toNat * 1000000000 + d.nanos

theorem micros_eq (d : Duration) : d.micros = d.nanoseconds / 1000 := by
  simp only [micros, nanoseconds]
  omega

theorem toNat_secs_ofMicros (n : Word) : (ofMicros n).secs.toNat = n.toNat / 1000000 :=
  UInt64.toNat_div n 1000000

theorem micros_ofMicros (n : Word) : (ofMicros n).micros = n.toNat := by
  rw [micros, toNat_secs_ofMicros]
  simp only [ofMicros]
  omega

theorem micros_ofMicros_pos_iff (n : Word) : 0 < (ofMicros n).micros ↔ n ≠ 0 := by
  rw [micros_ofMicros, Nat.pos_iff_ne_zero, ne_eq, ne_eq, ← UInt64.toNat_inj, UInt64.toNat_zero]

end Duration

/-! ## intervals -/

namespace Timeval

/-- The microseconds that an interval is worth. -/
def micros (t : Timeval) : Int := t.sec * 1000000 + t.usec

theorem usec_ofDuration_bounds (d : Duration) :
    0 ≤ (ofDuration d).usec ∧ (ofDuration d).usec < 1000000 := by
  have hnanos := d.nanos_lt
  simp only [ofDuration]
  omega

theorem sec_ofDuration_neg_iff (d : Duration) :
    (ofDuration d).sec < 0 ↔ 0x8000000000000000 ≤ d.secs.toNat :=
  d.secs.signed_neg_iff

theorem sec_ofDuration (h : d.secs.toNat < 0x8000000000000000) :
    (ofDuration d).sec = d.secs.toNat :=
  if_pos h

theorem micros_ofDuration (h : d.secs.toNat < 0x8000000000000000) :
    (ofDuration d).micros = d.micros := by
  rw [micros, sec_ofDuration h]
  simp [ofDuration, Duration.micros]

/-- The interval that stops the timer comes from no span of a microsecond. -/
theorem ofDuration_eq_zero_iff (d : Duration) : ofDuration d = zero ↔ d.micros = 0 := by
  have hsecs := d.secs.toNat_lt
  simp only [ofDuration, zero, Timeval.mk.injEq, Word.signed, Duration.micros]
  split <;> omega

end Timeval

theorem Config.hasValidQuantum_iff (c : Config) :
    c.hasValidQuantum = true ↔ 0 < c.quantum.micros :=
  decide_eq_true_iff

/-! ## the timer -/

namespace Timer

/-- The host turns seconds down that wrap. -/
theorem arm_of_wraps (h : 0x8000000000000000 ≤ d.secs.toNat) :
    arm d = .error .invalidArgument :=
  if_pos ((Timeval.sec_ofDuration_neg_iff d).mpr h)

/-- What is left it takes as it is, up to the longest interval it can count. -/
theorem arm_of_short (h : d.secs.toNat < 0x8000000000000000)
    (hshort : (Timeval.ofDuration d).sec < Timeval.longest.sec) :
    arm d = .ok ⟨.ofDuration d⟩ := by
  have hsec := Timeval.sec_ofDuration h
  unfold arm
  dsimp only
  rw [if_neg (by omega), if_pos hshort]

theorem arm_of_long (hlong : Timeval.longest.sec ≤ (Timeval.ofDuration d).sec) :
    arm d = .ok ⟨.longest⟩ := by
  have hpos : 0 ≤ Timeval.longest.sec := by decide
  unfold arm
  dsimp only
  rw [if_neg (by omega), if_neg (by omega)]

/-- The timer then runs if there is a microsecond to count. -/
theorem arm_of_fits (h : d.secs.toNat < 0x8000000000000000) :
    ∃ timer, arm d = .ok timer ∧ (timer.isRunning = true ↔ 0 < d.micros) := by
  have hsec := Timeval.sec_ofDuration h
  have hzero := Timeval.ofDuration_eq_zero_iff d
  cases Int.lt_or_le (Timeval.ofDuration d).sec Timeval.longest.sec with
  | inl hshort =>
      refine ⟨_, arm_of_short h hshort, ?_⟩
      simp [isRunning, hzero, Nat.pos_iff_ne_zero]
  | inr hlong =>
      -- an interval too long to be counted is cut, not stopped
      refine ⟨_, arm_of_long hlong, iff_of_true (by decide) ?_⟩
      simp only [Duration.micros, Timeval.longest] at hlong ⊢
      omega

end Timer

/-! ## the call that starts the scheduler -/

namespace Process

variable {τ : Transcript} {p q : Process}

theorem Unstarted.init_of_invalid (h : p.Unstarted) (hquiet : p.signal.arrives = false)
    (hvalid : config.hasValidQuantum = false) :
    p.init config = p.answer (.refused .invalidQuantum) := by
  have hinit : p.block.isInitialised = false := h.isInitialised_eq
  simp only [init, hinit, hvalid, if_false, if_true, not_false_eq_true, Bool.false_eq_true]
  rw [leave_guard hquiet rfl]
  rfl

/-- The timer is left as the host has set it. -/
theorem Unstarted.init_of_valid {timer : Timer} (h : p.Unstarted)
    (hvalid : config.hasValidQuantum = true) (hsize : config.stackSize = .ok size)
    (harm : Timer.arm config.quantum = .ok timer) :
    (p.init config).control = .client .done ∧ (p.init config).timer = timer := by
  have hinit : p.block.isInitialised = false := h.isInitialised_eq
  simp only [init, hinit, hvalid, hsize, harm, if_false, not_true, Bool.false_eq_true]
  rw [unblock_of_alone rfl rfl]
  exact ⟨rfl, rfl⟩

/-- What the host does not take ends the process. -/
theorem Unstarted.init_of_refused (h : p.Unstarted) (hvalid : config.hasValidQuantum = true)
    (hsize : config.stackSize = .ok size) (harm : Timer.arm config.quantum = .error e) :
    (p.init config).control = .over (.exit 1) := by
  have hinit : p.block.isInitialised = false := h.isInitialised_eq
  simp only [init, hinit, hvalid, hsize, harm, if_false, not_true, Bool.false_eq_true]
  rfl

/-- Microseconds that fit a word are seconds that do not wrap. -/
theorem arm_ofMicros (n : Word) : ∃ timer, Timer.arm (.ofMicros n) = .ok timer ∧
    (timer.isRunning = true ↔ n ≠ 0) := by
  have hn := n.toNat_lt
  have hsecs := Duration.toNat_secs_ofMicros n
  obtain ⟨timer, harm, hruns⟩ := Timer.arm_of_fits (d := .ofMicros n) (by omega)
  exact ⟨timer, harm, hruns.trans (Duration.micros_ofMicros_pos_iff n)⟩

theorem hasValidQuantum_ofMicros (n : Word) :
    (Config.ofMicros n).hasValidQuantum = true ↔ n ≠ 0 :=
  (Config.ofMicros n).hasValidQuantum_iff.trans (Duration.micros_ofMicros_pos_iff n)

/-- The size where none is asked for does not overflow. -/
theorem stackSize_ofMicros (n : Word) : ∃ size, (Config.ofMicros n).stackSize = .ok size := by
  have hdefault : (Config.ofMicros n).requestedStack ≤ wordBound - Page.size :=
    (by decide : Config.defaultStackPages * Page.size ≤ wordBound - Page.size)
  obtain ⟨hover, -⟩ | ⟨-, size, hsize, -⟩ := (Config.ofMicros n).stackSize_cases
  · exact absurd hover (Nat.not_lt.mpr hdefault)
  · exact ⟨size, hsize⟩

/-- What client code runs on that has started nothing. -/
theorem Run.unstarted (run : Run τ p) (hclient : p.control = .client reply)
    (hinit : p.isInitialised = false) : p.Unstarted ∧ p.signal.arrives = false := by
  obtain ⟨-, hp | ⟨c, hp⟩⟩ := run.consistent.client hclient
  · exact hp
  · simp [hp.books.isInitialised] at hinit

/-- **A start with a quantum in microseconds is refused only if it is zero**, and
otherwise arms the timer. -/
theorem Run.init_ofMicros (run : Run τ p) (hclient : p.control = .client reply)
    (hinit : p.isInitialised = false) (n : Word) :
    (n = 0 → p.perform (.init (.ofMicros n)) = p.answer (.refused .invalidQuantum)) ∧
      (n ≠ 0 → (p.perform (.init (.ofMicros n))).control = .client .done ∧
        Timer.arm (.ofMicros n) = .ok (p.perform (.init (.ofMicros n))).timer ∧
        (p.perform (.init (.ofMicros n))).timer.isRunning = true) := by
  obtain ⟨hp, hquiet⟩ := run.unstarted hclient hinit
  constructor
  · intro hzero
    have hvalid := mt (hasValidQuantum_ofMicros n).mp (not_not.mpr hzero)
    exact hp.init_of_invalid hquiet (Bool.eq_false_iff.mpr hvalid)
  · intro hpos
    obtain ⟨timer, harm, hruns⟩ := arm_ofMicros n
    obtain ⟨size, hsize⟩ := stackSize_ofMicros n
    obtain ⟨hdone, htimer⟩ :=
      hp.init_of_valid ((hasValidQuantum_ofMicros n).mpr hpos) hsize harm
    rw [perform, htimer]
    exact ⟨hdone, harm, hruns.mpr hpos⟩

theorem Run.returns_invalidQuantum_iff (run : Run τ p) (hclient : p.control = .client reply)
    (hinit : p.isInitialised = false) (n : Word) :
    (∃ q, p.Returns (.init (.ofMicros n)) (.refused .invalidQuantum) q) ↔ n = 0 := by
  obtain ⟨hrefused, hdone⟩ := run.init_ofMicros hclient hinit n
  constructor
  · rintro ⟨q, hreturns⟩
    by_contra hpos
    have hcontrol := hreturns.control
    rw [(hreturns.eq_answer_of_refused run).1, (hdone hpos).1] at hcontrol
    contradiction
  · intro hzero
    have hq := hrefused hzero
    exact ⟨_, .called hclient, by rw [hq]; rfl, by rw [hq]; rfl⟩

/-- **A quantum that is accepted arms the timer**, whatever the duration.

* A quantum is valid exactly when its interval is not the one that stops the
  timer.
* The microseconds of an interval stay below a second.  If the seconds do not
  wrap, the interval is the duration in whole microseconds, rounded down, the
  host takes it as it is up to the longest that it can count, and the timer runs
  if the quantum is valid.  If they do, the seconds are negative, and the host
  turns the interval down.
* A number of microseconds becomes an interval of just as many.
* Before the start, the call that starts the scheduler with a valid quantum leaves
  the timer armed with it and succeeds, unless the host turns it down, which ends
  the process.  It refuses a number of microseconds exactly when it is zero, and
  otherwise succeeds and leaves the timer running. -/
theorem accepted_quantum_arms (run : Run τ p) :
    (∀ config : Config, config.hasValidQuantum = true ↔
      Timeval.ofDuration config.quantum ≠ .zero) ∧
    (∀ d : Duration,
      (0 ≤ (Timeval.ofDuration d).usec ∧ (Timeval.ofDuration d).usec < 1000000) ∧
      (d.secs.toNat < 0x8000000000000000 →
        (Timeval.ofDuration d).micros = (d.nanoseconds / 1000 : Nat) ∧
        (∃ timer, Timer.arm d = .ok timer ∧ (timer.isRunning = true ↔ 0 < d.micros)) ∧
        ((Timeval.ofDuration d).sec < Timeval.longest.sec →
          Timer.arm d = .ok ⟨Timeval.ofDuration d⟩) ∧
        (Timeval.longest.sec ≤ (Timeval.ofDuration d).sec →
          Timer.arm d = .ok ⟨Timeval.longest⟩)) ∧
      (0x8000000000000000 ≤ d.secs.toNat →
        (Timeval.ofDuration d).sec < 0 ∧ Timeval.ofDuration d ≠ .zero ∧
        Timer.arm d = .error .invalidArgument)) ∧
    (∀ n : Word, (Timeval.ofDuration (Config.ofMicros n).quantum).micros = n.toNat) ∧
    ∀ reply, p.control = .client reply → p.isInitialised = false →
      (∀ (config : Config) (size : Nat), config.hasValidQuantum = true →
        config.stackSize = .ok size →
        (∀ timer, Timer.arm config.quantum = .ok timer →
          (p.perform (.init config)).control = .client .done ∧
          (p.perform (.init config)).timer = timer) ∧
        ∀ e, Timer.arm config.quantum = .error e →
          (p.perform (.init config)).control = .over (.exit 1)) ∧
      ∀ n : Word,
        ((∃ q, p.Returns (.init (.ofMicros n)) (.refused .invalidQuantum) q) ↔ n = 0) ∧
        (n ≠ 0 → (p.perform (.init (.ofMicros n))).control = .client .done ∧
          Timer.arm (.ofMicros n) = .ok (p.perform (.init (.ofMicros n))).timer ∧
          (p.perform (.init (.ofMicros n))).timer.isRunning = true) := by
  refine ⟨?_, fun d => ⟨Timeval.usec_ofDuration_bounds d, ?_, ?_⟩, ?_, ?_⟩
  · intro config
    rw [config.hasValidQuantum_iff, ne_eq, Timeval.ofDuration_eq_zero_iff, Nat.pos_iff_ne_zero]
  · intro hfits
    exact ⟨by rw [Timeval.micros_ofDuration hfits, d.micros_eq], Timer.arm_of_fits hfits,
      Timer.arm_of_short hfits, Timer.arm_of_long⟩
  · intro hwraps
    refine ⟨(Timeval.sec_ofDuration_neg_iff d).mpr hwraps, ?_, Timer.arm_of_wraps hwraps⟩
    rw [ne_eq, Timeval.ofDuration_eq_zero_iff]
    simp only [Duration.micros]
    omega
  · intro n
    have hn := n.toNat_lt
    have hsecs := Duration.toNat_secs_ofMicros n
    exact (Timeval.micros_ofDuration (d := .ofMicros n) (by omega)).trans
      (congrArg Nat.cast (Duration.micros_ofMicros n))
  · intro reply hclient hinit
    obtain ⟨hp, -⟩ := run.unstarted hclient hinit
    refine ⟨fun config size hvalid hsize => ?_, fun n => ?_⟩
    · exact ⟨fun timer => hp.init_of_valid hvalid hsize, fun e => hp.init_of_refused hvalid hsize⟩
    · exact ⟨run.returns_invalidQuantum_iff hclient hinit n, (run.init_ofMicros hclient hinit n).2⟩

/-- After a start that has overflowed, one with the longest quantum that fits a
word succeeds and leaves the timer running, and one with none is refused. -/
theorem longest_quantum_arms :
    let moves : List Move :=
      [.call (.init ((Config.ofMicros 1000).withStackSize 18446744073709551615))]
    ∃ τ p, ({} : Process).follow [] moves = some (τ, p) ∧
      (p.perform (.init (.ofMicros 0xffffffffffffffff))).control = .client .done ∧
      (p.perform (.init (.ofMicros 0xffffffffffffffff))).timer.isRunning = true ∧
      (Timeval.ofDuration (Config.ofMicros 0xffffffffffffffff).quantum).micros =
        18446744073709551615 ∧
      ∃ q, p.Returns (.init (.ofMicros 0)) (.refused .invalidQuantum) q := by
  intro moves
  obtain ⟨τ, p, hfollow⟩ : ∃ τ p, ({} : Process).follow [] moves = some (τ, p) := ⟨_, _, rfl⟩
  obtain ⟨hcontrol, hinit⟩ :
      p.control = .client (.overflowed .multiply) ∧ p.isInitialised = false := by
    obtain ⟨-, rfl⟩ := Prod.mk.inj (Option.some.inj hfollow)
    exact ⟨rfl, rfl⟩
  obtain ⟨-, -, hworth, hstarts⟩ := accepted_quantum_arms (Run.start.follow hfollow)
  obtain ⟨-, hmicros⟩ := hstarts _ hcontrol hinit
  obtain ⟨hdone, -, hruns⟩ := (hmicros 0xffffffffffffffff).2 (by decide)
  exact ⟨τ, p, hfollow, hdone, hruns, hworth _, (hmicros 0).1.mpr rfl⟩

end Process

end GreenThreads
