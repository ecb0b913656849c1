import GreenThreads.Proofs.Stacks
import GreenThreads.Proofs.Underway
import GreenThreads.Stack.Bench
import Mathlib.Order.Bounds.Basic

/-!
# GreenThreads.Proofs.Rounding

The size of a stack is rounded up to whole pages twice: when the settings are
read, and again when the stack is mapped.

* `Page.holding n` — the sizes that fill whole pages and hold `n` bytes.
  Rounding up gives the least of them, or overflows (`Page.roundUp_cases`).
* A mapping has one page more than its stack, so it overflows one page earlier
  than the setting does (`StackPool.mappingLength_cases`).
* What has been rounded once fills whole pages, and stays as it is.  So every
  stack in use has exactly the size that was set (`Process.Run.sized`).

A mapping alone does not make a stack: its lowest page must be protected as
well (`no_stack_without_guard_page`).  The main statement is `stack_sizes_agree`,
for every host.
-/

namespace GreenThreads

/-! ## whole pages -/

namespace Page

/-- The sizes that fill whole pages and hold `n` bytes. -/
def holding (n : Nat) : Set Nat := {m | size ∣ m ∧ n ≤ m}

/-- No more pages are counted than are needed. -/
theorem isLeast_count_mul (n : Nat) : IsLeast (holding n) (count n * size) := by
  refine ⟨⟨Nat.dvd_mul_left .., le_count_mul n⟩, ?_⟩
  rintro m ⟨⟨k, rfl⟩, hm⟩
  have hlt := count_mul_lt n
  simp only [size] at hm hlt ⊢
  omega

/-- Who asks for a byte at least gets a page at least. -/
theorem holding_max_one (n : Nat) : holding (max n 1) = {m ∈ holding n | 0 < m} := by
  ext m
  simp only [holding, Set.mem_ofPred_eq, Nat.max_le]
  exact and_assoc.symm

/-- A size in whole pages is the least that holds it. -/
theorem isLeast_self {n : Nat} (h : size ∣ n) : IsLeast (holding n) n :=
  ⟨⟨h, Nat.le_refl n⟩, fun _ hm => hm.2⟩

/-- Rounding up overflows within the last page below the bound. -/
theorem roundUp_cases (n : Nat) :
    (wordBound - size < n ∧ roundUp n = .error .multiply) ∨
      (n ≤ wordBound - size ∧ roundUp n = .ok (count n * size)) := by
  have hle := le_count_mul n
  have hlt := count_mul_lt n
  by_cases hfits : count n * size < wordBound
  · refine .inr ⟨?_, if_pos hfits⟩
    simp only [size, wordBound] at hle hfits ⊢
    omega
  · refine .inl ⟨?_, if_neg hfits⟩
    simp only [size, wordBound] at hlt hfits ⊢
    omega

end Page

/-! ## the setting -/

/-- The sizes below which no stack is set make no difference to what overflows. -/
theorem Config.stackSize_cases (c : Config) :
    (wordBound - Page.size < c.requestedStack ∧ c.stackSize = .error .multiply) ∨
      (c.requestedStack ≤ wordBound - Page.size ∧
        ∃ n, c.stackSize = .ok n ∧
          IsLeast (Page.holding (max (max c.requestedStack minStackSize) signalStackSize)) n) := by
  have hmin : minStackSize ≤ wordBound - Page.size := by decide
  have hsignal : signalStackSize ≤ wordBound - Page.size := by decide
  cases Page.roundUp_cases (max (max c.requestedStack minStackSize) signalStackSize) with
  | inl hover => exact .inl ⟨by omega, hover.2⟩
  | inr hfits => exact .inr ⟨by omega, _, hfits.2, Page.isLeast_count_mul _⟩

/-- What is set fills whole pages, one at least. -/
theorem Config.fills_of_stackSize (c : Config) (h : c.stackSize = .ok n) :
    Page.size ∣ n ∧ 0 < n := by
  obtain ⟨-, hover⟩ | ⟨-, m, hsize, hleast⟩ := c.stackSize_cases
  · rw [hover] at h
    contradiction
  · obtain rfl : m = n := Except.ok.inj (hsize.symm.trans h)
    obtain ⟨hpages, hholds⟩ := hleast.1
    have hmin : 0 < minStackSize := by decide
    exact ⟨hpages, by omega⟩

/-! ## the mapping -/

namespace StackPool

/-- A mapping has a page more than its stack, which has one at least. -/
theorem mappingLength_cases (bytes : Nat) :
    (wordBound - Page.size < bytes ∧ mappingLength bytes = .error .multiply) ∨
    (wordBound - 2 * Page.size < bytes ∧ bytes ≤ wordBound - Page.size ∧
      mappingLength bytes = .error .add) ∨
    (bytes ≤ wordBound - 2 * Page.size ∧
      ∃ n, mappingLength bytes = .ok (n + Page.size) ∧
        IsLeast {m ∈ Page.holding bytes | 0 < m} n) := by
  have hone : 1 ≤ wordBound - 2 * Page.size := by decide
  have hless : wordBound - 2 * Page.size ≤ wordBound - Page.size := by decide
  unfold mappingLength
  cases Page.roundUp_cases (max bytes 1) with
  | inl hover =>
      obtain ⟨hbytes, hround⟩ := hover
      rw [hround]
      exact .inl ⟨by omega, rfl⟩
  | inr hfits =>
      obtain ⟨hbytes, hround⟩ := hfits
      have hle := Page.le_count_mul (max bytes 1)
      have hlt := Page.count_mul_lt (max bytes 1)
      rw [hround]
      by_cases hadd : Page.count (max bytes 1) * Page.size + Page.size < wordBound
      · refine .inr (.inr ⟨?_, _, if_pos hadd, ?_⟩)
        · simp only [Page.size, wordBound] at hle hadd ⊢
          omega
        · rw [← Page.holding_max_one]
          exact Page.isLeast_count_mul _
      · refine .inr (.inl ⟨?_, by omega, if_neg hadd⟩)
        simp only [Page.size, wordBound] at hlt hadd ⊢
        omega

theorem exists_mappingLength (h : bytes ≤ wordBound - 2 * Page.size) :
    ∃ n, mappingLength bytes = .ok (n + Page.size) ∧
      IsLeast {m ∈ Page.holding bytes | 0 < m} n := by
  have hless : wordBound - 2 * Page.size ≤ wordBound - Page.size := by decide
  obtain ⟨hover, -⟩ | ⟨hlow, -, -⟩ | ⟨-, hfits⟩ := mappingLength_cases bytes
  · omega
  · omega
  · exact hfits

theorem mappingLength_eq_error_iff :
    mappingLength bytes = .error o ↔
      (o = .multiply ∧ wordBound - Page.size < bytes) ∨
        (o = .add ∧ wordBound - 2 * Page.size < bytes ∧ bytes ≤ wordBound - Page.size) := by
  have hless : wordBound - 2 * Page.size ≤ wordBound - Page.size := by decide
  obtain ⟨hbytes, hlength⟩ | ⟨hlow, hhigh, hlength⟩ | ⟨hbytes, n, hlength, -⟩ :=
    mappingLength_cases bytes
  · cases o <;> simp [hlength] <;> omega
  · cases o <;> simp [hlength] <;> omega
  · cases o <;> simp [hlength] <;> omega

/-! ### the stack -/

variable {p q : StackPool}

theorem map_of_overflow (h : mappingLength bytes = .error o) :
    p.map bytes = (.error (.overflow o), p) := by
  rw [map, h]

theorem map_of_refused (h : mappingLength bytes = .ok length)
    (hhost : p.host.mapGuarded p.made length = .error e) :
    p.map bytes = (.error (.host e), p) := by
  simp only [map, h, hhost]

theorem map_of_granted (h : mappingLength bytes = .ok length)
    (hhost : p.host.mapGuarded p.made length = .ok address) :
    p.map bytes = (.ok ⟨p.made, address, length⟩, p.push ⟨p.made, address, length⟩) := by
  simp only [map, h, hhost]

theorem map_eq_overflow_iff :
    (p.map bytes).1 = .error (.overflow o) ↔ mappingLength bytes = .error o := by
  cases hlength : mappingLength bytes with
  | error o' => simp [map_of_overflow hlength]
  | ok length =>
      simp only [map, hlength]
      split <;> simp

/-- What fills whole pages is mapped as it is. -/
theorem size_of_map (h : p.map n = (.ok stack, q)) (hpages : Page.size ∣ n) (hpos : 0 < n) :
    stack.size = n := by
  obtain ⟨-, hlength⟩ | ⟨-, -, hlength⟩ | ⟨-, m, hlength, hleast⟩ := mappingLength_cases n
  · simp [map_of_overflow hlength] at h
  · simp [map_of_overflow hlength] at h
  · rw [← Page.holding_max_one, Nat.max_eq_left hpos] at hleast
    obtain rfl : m = n := hleast.unique (Page.isLeast_self hpages)
    cases hhost : p.host.mapGuarded p.made (m + Page.size) with
    | error e => simp [map_of_refused hlength hhost] at h
    | ok address =>
        rw [map_of_granted hlength hhost] at h
        rw [← Except.ok.inj (Prod.mk.inj h).1]
        exact Nat.add_sub_cancel ..

/-- The bench's pool is the one that the mapping leaves. -/
theorem pool_step_new (b : Stack.Bench) (bytes : Nat) :
    (b.step (.new bytes)).2.pool = (b.pool.map bytes).2 := by
  rw [Stack.Bench.step]
  split <;> simp [*]

end StackPool

/-- **Both roundings agree up to the limit**, for every setting, every request
and every host.

* The setting overflows for the last sizes below the bound, a page short of one;
  otherwise it is the least size in whole pages that holds what was asked for
  and what every stack must hold.
* The mapping overflows for the same sizes, and for those of the page below
  them.  Otherwise the host is asked for a mapping with one page more than the
  least size in whole pages, one at least, that holds what was asked for.  If it
  is granted, at an address, and its lowest page protected, it is the mapping of
  a new stack of that size, and one stack more is in use.
* Whatever fails, no stack is, and the failure that is told is the host's.
* So a stack of the size that was set is mapped with that size.
* The pool of a bench is the one that the mapping leaves. -/
theorem stack_sizes_agree (config : Config) (bytes : Nat) (pool : StackPool) :
    let mapped := pool.map bytes
    ((config.stackSize = .error .multiply ↔ wordBound - Page.size < config.requestedStack) ∧
      (config.requestedStack ≤ wordBound - Page.size → ∃ n, config.stackSize = .ok n ∧
        IsLeast (Page.holding
          (max (max config.requestedStack Config.minStackSize) Config.signalStackSize)) n)) ∧
    ((mapped.1 = .error (.overflow .multiply) ↔ wordBound - Page.size < bytes) ∧
      (mapped.1 = .error (.overflow .add) ↔
        wordBound - 2 * Page.size < bytes ∧ bytes ≤ wordBound - Page.size) ∧
      (bytes ≤ wordBound - 2 * Page.size → ∃ n, IsLeast {m ∈ Page.holding bytes | 0 < m} n ∧
        (∀ address, pool.host.map pool.made (n + Page.size) = .ok address →
          (pool.host.protect pool.made address = .ok () →
            (address ≠ 0 → ∃ stack, mapped.1 = .ok stack ∧
              stack.mapping = address ∧ stack.start = address + Page.size ∧
              stack.size = n ∧ stack.finish - stack.start = n ∧
              mapped.2.mapped = pool.mapped ++ [stack] ∧ mapped.2.live = pool.live + 1) ∧
            (address = 0 → mapped.1 = .error (.host .nullMapping))) ∧
          ∀ e, pool.host.protect pool.made address = .error e → mapped.1 = .error (.host e)) ∧
        ∀ e, pool.host.map pool.made (n + Page.size) = .error e → mapped.1 = .error (.host e)) ∧
      ∀ cause, mapped.1 = .error cause → mapped.2 = pool ∧ mapped.2.live = pool.live) ∧
    (∀ n stack, config.stackSize = .ok n → (pool.map n).1 = .ok stack →
      stack.size = n ∧ stack.finish - stack.start = n) ∧
    ∀ held, ((Stack.Bench.mk held pool).step (.new bytes)).2.pool = mapped.2 := by
  intro mapped
  refine ⟨?_, ⟨?_, ?_, ?_, ?_⟩, ?_, fun held => StackPool.pool_step_new ⟨held, pool⟩ bytes⟩
  · obtain ⟨hover, hsize⟩ | ⟨hfits, n, hsize, hleast⟩ := config.stackSize_cases
    · exact ⟨by simp [hsize, hover], fun hfits => absurd hover (Nat.not_lt.mpr hfits)⟩
    · exact ⟨by simp [hsize, hfits], fun _ => ⟨n, hsize, hleast⟩⟩
  · simp [mapped, StackPool.map_eq_overflow_iff, StackPool.mappingLength_eq_error_iff]
  · simp [mapped, StackPool.map_eq_overflow_iff, StackPool.mappingLength_eq_error_iff]
  · intro hbytes
    obtain ⟨n, hlength, hleast⟩ := StackPool.exists_mappingLength hbytes
    have hrefused : ∀ e, pool.host.mapGuarded pool.made (n + Page.size) = .error e →
        mapped.1 = .error (.host e) :=
      fun e hhost => congrArg Prod.fst (StackPool.map_of_refused hlength hhost)
    refine ⟨n, hleast, fun address hmap => ⟨fun hprotect => ⟨fun hne => ?_, ?_⟩, ?_⟩, ?_⟩
    · have hgranted : mapped = _ := StackPool.map_of_granted hlength
        (Host.mapGuarded_of_protected hmap hprotect hne)
      rw [hgranted]
      refine ⟨_, rfl, rfl, rfl, Nat.add_sub_cancel .., ?_, rfl, ?_⟩
      · exact (Stack.finish_sub_start _).trans (Nat.add_sub_cancel ..)
      · exact List.length_append
    · rintro rfl
      exact hrefused _ (Host.mapGuarded_of_null hmap hprotect)
    · exact fun e hprotect => hrefused e (Host.mapGuarded_of_unprotected hmap hprotect)
    · exact fun e hmap => hrefused e (Host.mapGuarded_of_refused hmap)
  · intro cause hfailed
    have hpool : mapped.2 = pool := StackPool.map_of_error (Prod.ext hfailed rfl)
    exact ⟨hpool, by rw [hpool]⟩
  · intro n stack hsize hstack
    obtain ⟨hpages, hpos⟩ := config.fills_of_stackSize hsize
    have hsame : stack.size = n := StackPool.size_of_map (Prod.ext hstack rfl) hpages hpos
    exact ⟨hsame, stack.finish_sub_start.trans hsame⟩

/-- Four pages and a byte are set as five pages, and mapped as five. -/
theorem five_pages_mapped :
    let config := (Config.ofMicros 1000).withStackSize 16385
    let host : Host := ⟨fun _ _ => .ok Page.size, fun _ _ => .ok ()⟩
    let pool : StackPool := { host }
    config.stackSize = .ok 20480 ∧
      (∃ stack, (pool.map 20480).1 = .ok stack ∧ stack.size = 20480) ∧
      (pool.map 20480).2.live = pool.live + 1 := by
  intro config host pool
  have hsize : config.stackSize = .ok 20480 := by decide
  have hagree := stack_sizes_agree config 20480 pool
  obtain ⟨n, -, hgranted, -⟩ := hagree.2.1.2.2.1 (by decide)
  obtain ⟨stack, hstack, -, -, -, -, -, hlive⟩ :=
    ((hgranted Page.size rfl).1 rfl).1 (by decide)
  exact ⟨hsize, ⟨stack, hstack, (hagree.2.2.1 _ _ hsize hstack).1⟩, hlive⟩

/-- A mapping makes no stack where its lowest page cannot be protected, nor where
it lies at address zero. -/
theorem no_stack_without_guard_page :
    let unprotecting : StackPool :=
      { host := ⟨fun _ _ => .ok Page.size, fun _ _ => .error .outOfMemory⟩ }
    let atZero : StackPool := { host := ⟨fun _ _ => .ok 0, fun _ _ => .ok ()⟩ }
    let length := Page.size + Page.size
    1 ≤ wordBound - 2 * Page.size ∧ StackPool.mappingLength 1 = .ok length ∧
      unprotecting.host.map unprotecting.made length = .ok Page.size ∧
      (unprotecting.map 1).1 = .error (.host .outOfMemory) ∧
      atZero.host.map atZero.made length = .ok 0 ∧
      (atZero.map 1).1 = .error (.host .nullMapping) := by
  intro unprotecting atZero length
  exact ⟨by decide, rfl, rfl, rfl, rfl, rfl⟩

/-! ## the stacks of a run -/

namespace Process

variable {τ : Transcript} {p q : Process} {c : Thread} {move : Move}

/-- The size for new stacks is one that was set, and all stacks in use have it. -/
structure Sized (p : Process) : Prop where
  set : p.isInitialised = true → ∃ config : Config, config.stackSize = .ok p.scheduler.stackSize
  mapped : ∀ stack ∈ p.pool.mapped, stack.size = p.scheduler.stackSize

theorem Proceeds.stackSize_eq {call : Option Call} (hp : p.Books c) (h : p.Proceeds c call q)
    (hover : q.isOver = false) : q.scheduler.stackSize = p.scheduler.stackSize := by
  cases h with
  | answered _ hq => rw [hq.books.scheduler]; rfl
  | @paused r n s _ _ _ hq =>
      have hbooks : (p.withCurrent (c.pausedAt r)).Books (c.pausedAt r) :=
        hp.setCurrent rfl rfl rfl
      obtain ⟨rest, -, heq⟩ := hbooks.exists_of_handsOver hq
      rw [heq]
      rfl
  | stopped hstopped => simp [isOver, hstopped] at hover

theorem CallEffect.stackSize_eq {call : Call} (hp : p.Idle c) (h : p.CallEffect c call q)
    (hover : q.isOver = false) : q.scheduler.stackSize = p.scheduler.stackSize := by
  cases h with
  | answered _ _ hq => rw [hq.books.scheduler]
  | proceeds _ hq => exact hq.stackSize_eq hp.books hover
  | creates _ hq => rw [hq.scheduler]; rfl
  | cancels _ _ hq =>
      obtain ⟨_, _, _, -, -, -, heq⟩ := Scheduler.exists_of_cancel hp.books.placed hq.scheduler
      rw [heq]
  | retires _ _ hq =>
      obtain ⟨rest, -, heq⟩ := hp.books.exists_of_retires hq
      rw [heq]
  | stopped hstopped => simp [isOver, hstopped] at hover

/-- The size for new stacks does not change once it is set. -/
theorem Run.stackSize_eq (run : Run τ p) (h : p.Step move q) (hinit : p.isInitialised = true)
    (hover : q.isOver = false) : q.scheduler.stackSize = p.scheduler.stackSize := by
  cases h with
  | call hclient call =>
      obtain ⟨-, ⟨hp, -⟩ | ⟨c, hp⟩⟩ := run.consistent.client hclient
      · simp [hp.isInitialised_eq] at hinit
      · exact (hp.performs call).stackSize_eq hp hover
  | turn hsettled =>
      obtain ⟨-, c, hp, hq⟩ := run.consistent.turn hsettled
      exact Proceeds.stackSize_eq (p := p.reap) hp.reap hq hover
  | listen => rfl

theorem Unstarted.sized (h : p.Unstarted) : p.Sized where
  set hinit := by simp [h.isInitialised_eq] at hinit
  mapped := by simp [h.mapped]

theorem Unstarted.sized_init (h : p.Unstarted) (hquiet : p.signal.arrives = false)
    (config : Config) (hover : (p.init config).isOver = false) : (p.init config).Sized := by
  cases h.inits hquiet config with
  | refused _ hq => rw [hq]; exact (h.congr (sameBooks_with ..)).sized
  | overflowed _ hq => rw [hq]; exact (h.allocateId _).sized
  | starts hsize hq =>
      have hset := congrArg Scheduler.stackSize hq.scheduler
      exact ⟨fun _ => ⟨config, hset ▸ hsize⟩, by simp [hq.pool, h.mapped]⟩
  | stopped hstopped => simp [isOver, hstopped] at hover

theorem Unstarted.sized_perform (h : p.Unstarted) (hquiet : p.signal.arrives = false)
    (call : Call) (hover : (p.perform call).isOver = false) : (p.perform call).Sized := by
  cases h.performs hquiet call with
  | answered _ hq => exact (h.congr hq.books).sized
  | overflowed hcall => subst hcall; exact h.sized_init hquiet _ hover
  | starts hcall => subst hcall; exact h.sized_init hquiet _ hover
  | stopped hstopped => simp [isOver, hstopped] at hover

theorem Sized.step (hp : p.Sized) (run : Run τ p) (h : p.Step move q)
    (hinit : p.isInitialised = true) (hover : q.isOver = false) : q.Sized := by
  have hset := run.stackSize_eq h hinit hover
  obtain ⟨config, hsize⟩ := hp.set hinit
  refine ⟨fun _ => ⟨config, hset ▸ hsize⟩, fun stack hstack => ?_⟩
  rw [hset]
  cases run.pool_step h with
  | inl hreleased =>
      rw [hreleased] at hstack
      exact hp.mapped stack (StackPool.mem_release.mp hstack).1
  | inr hmaps =>
      obtain ⟨-, new, hmap⟩ := hmaps
      rw [StackPool.mapped_of_map hmap, List.mem_append, List.mem_singleton] at hstack
      cases hstack with
      | inl hold => exact hp.mapped stack hold
      | inr hnew =>
          obtain ⟨hpages, hpos⟩ := config.fills_of_stackSize hsize
          rw [hnew]
          exact StackPool.size_of_map hmap hpages hpos

/-- **Every stack in use has exactly the size that was set**, in every run. -/
theorem Run.sized (run : Run τ p) (hover : p.isOver = false) : p.Sized := by
  induction run with
  | start => exact (unstarted_new _).sized
  | @step τ p move q run hstep ih =>
      have hp := ih (hstep.isOver_eq_false hover)
      by_cases hinit : p.isInitialised = true
      · exact hp.step run hstep hinit hover
      · cases hstep with
        | call hclient call =>
            obtain ⟨-, ⟨hunstarted, hquiet⟩ | ⟨c, hidle⟩⟩ := run.consistent.client hclient
            · exact hunstarted.sized_perform hquiet call hover
            · exact absurd hidle.books.isInitialised hinit
        | turn hsettled =>
            obtain ⟨-, c, hbooks, -⟩ := run.consistent.turn hsettled
            exact absurd hbooks.isInitialised hinit
        | listen => exact ⟨hp.set, hp.mapped⟩

end Process

end GreenThreads
