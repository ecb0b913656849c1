import GreenThreads.Proofs.Placement
import Mathlib.Data.List.Rotate

/-!
# GreenThreads.Proofs.Rotation

Rotation is a cyclic permutation.

The threads that live form a ring: the current one comes first, then those that
are ready in their order.  A rotation turns the ring by one place and changes
nothing else, so any number of rotations turns it by that many places.

* `rotate_eq_withLiving` — one rotation;
* `rotations_eq` — any number of them in a row.

The main statement is `rotation_is_cyclic`.
-/

namespace GreenThreads.Scheduler

variable {s : Scheduler}

/-! ## the ring -/

/-- The same scheduler with other living threads: the first one is current, the
others are ready. -/
def withLiving (ring : List Thread) (s : Scheduler) : Scheduler :=
  { s with current := ring.head?, ready := ring.tail }

@[simp] theorem living_withLiving (ring : List Thread) (s : Scheduler) :
    (s.withLiving ring).living = ring := by
  cases ring <;> rfl

@[simp] theorem withLiving_withLiving (ring ring' : List Thread) (s : Scheduler) :
    (s.withLiving ring).withLiving ring' = s.withLiving ring' := rfl

theorem living_cons (hc : s.current = some c) : s.living = c :: s.ready := by
  simp [living, hc]

/-- A scheduler that has been started has its own living threads. -/
theorem withLiving_living (hc : s.current = some c) : s.withLiving s.living = s := by
  rw [living_cons hc, withLiving, List.head?_cons, List.tail_cons, ← hc]

/-! ## one rotation -/

/-- A rotation turns the ring by one place. -/
theorem rotate_eq_withLiving (h : s.Placed) (hc : s.current = some c) :
    s.rotate.2 = s.withLiving (s.living.rotate 1) := by
  cases hr : s.ready with
  | nil =>
      have halone : s.living.rotate 1 = s.living := by simp [living_cons hc, hr]
      rw [rotate_nil hr, halone, withLiving_living hc]
  | cons n rest => simp [rotate_cons h hc hr, living_cons hc, hr, withLiving]

/-- It switches from the first thread of the ring to the second one. -/
theorem rotate_fst (h : s.Placed) (hc : s.current.isSome)
    (hs : s.living = out :: next :: rest) :
    ∃ save load, out.registers? = some save ∧ next.registers? = some load ∧
      s.rotate.1 = some ⟨save, load⟩ := by
  obtain ⟨c, hc⟩ := Option.isSome_iff_exists.mp hc
  obtain ⟨rfl, hr⟩ := List.cons.inj ((living_cons hc).symm.trans hs)
  rw [rotate_cons h hc hr]
  exact Switch.exists_of_between (h.current hc) (h.ready (by simp [hr]))

/-! ## any number of rotations -/

/-- **Rotations turn the ring by their number**, and change nothing else. -/
theorem rotations_eq (h : s.Placed) (hc : s.current.isSome) (k : Nat) :
    s.after (List.replicate k .rotate) = s.withLiving (s.living.rotate k) := by
  induction k generalizing s with
  | zero =>
      obtain ⟨c, hc⟩ := Option.isSome_iff_exists.mp hc
      simp [withLiving_living hc]
  | succ k ih =>
      obtain ⟨c, hc⟩ := Option.isSome_iff_exists.mp hc
      have hturn := rotate_eq_withLiving h hc
      have hc' : s.rotate.2.current.isSome := by
        simp [hturn, withLiving, living_cons hc]
      calc s.after (List.replicate (k + 1) .rotate)
          = s.rotate.2.after (List.replicate k .rotate) := rfl
        _ = s.rotate.2.withLiving (s.rotate.2.living.rotate k) := ih h.rotate hc'
        _ = s.withLiving ((s.living.rotate 1).rotate k) := by simp [hturn]
        _ = s.withLiving (s.living.rotate (k + 1)) := by rw [List.rotate_rotate, Nat.add_comm]

/-- The next switch goes from one place of the ring to the one behind it. -/
theorem rotate_fst_of_rotations (h : s.Placed) (hc : s.current = some c) (hr : s.ready ≠ [])
    (k : Nat) : ∃ out next save load, s.living[k % s.living.length]? = some out ∧
      s.living[(k + 1) % s.living.length]? = some next ∧
      out.registers? = some save ∧ next.registers? = some load ∧
      (s.after (List.replicate k .rotate)).rotate.1 = some ⟨save, load⟩ := by
  have hsome : s.current.isSome := Option.isSome_of_eq_some hc
  have hlength : 1 < s.living.length := by
    simpa [living_cons hc] using List.length_pos_iff.mpr hr
  have hfirst : (s.living.rotate k)[0]? = s.living[k % s.living.length]? := by
    rw [List.getElem?_rotate (by omega), Nat.zero_add]
  have hsecond : (s.living.rotate k)[1]? = s.living[(k + 1) % s.living.length]? := by
    rw [List.getElem?_rotate hlength, Nat.add_comm]
  obtain ⟨out, next, rest, hring⟩ : ∃ out next rest, s.living.rotate k = out :: next :: rest := by
    have hrotated := List.length_rotate s.living k
    generalize s.living.rotate k = turned at hrotated
    rcases turned with _ | ⟨out, _ | ⟨next, rest⟩⟩
    · rw [List.length_nil] at hrotated; omega
    · rw [List.length_singleton] at hrotated; omega
    · exact ⟨out, next, rest, rfl⟩
  have hturned := rotations_eq h hsome k
  have hcurrent : (s.after (List.replicate k .rotate)).current.isSome := by
    simp [hturned, withLiving, hring]
  have hliving : (s.after (List.replicate k .rotate)).living = out :: next :: rest := by
    rw [hturned, living_withLiving, hring]
  obtain ⟨save, load, hsave, hload, hswitch⟩ :=
    rotate_fst (h.after (List.replicate k .rotate)) hcurrent hliving
  rw [← hfirst, ← hsecond, hring]
  exact ⟨out, next, save, load, rfl, rfl, hsave, hload, hswitch⟩

/-- **Rotation is a cyclic permutation.**  Take a scheduler that has been started,
and the ring of its current thread and of those that are ready, in their order.

* Where nobody is ready a rotation makes no switch and changes nothing.
* Any number of rotations turns the ring by that many places, up to whole rounds,
  and changes nothing else, not even in a descriptor.
* Where somebody is ready each of them makes a switch, which saves to the registers
  of the thread that the ring has been turned to and loads those of the one behind
  it.
* A whole round leaves the scheduler as it was. -/
theorem rotation_is_cyclic (history : List Operation) (c : Thread)
    (hcurrent : (({} : Scheduler).after history).current = some c) :
    let s := ({} : Scheduler).after history
    let ring := c :: s.ready
    (s.ready = [] → s.rotate = (none, s)) ∧
      (∀ k, s.after (List.replicate k .rotate) =
        s.withLiving (ring.rotate (k % ring.length))) ∧
      (s.ready ≠ [] → ∀ k, ∃ out next save load,
        ring[k % ring.length]? = some out ∧ ring[(k + 1) % ring.length]? = some next ∧
        out.registers? = some save ∧ next.registers? = some load ∧
        (s.after (List.replicate k .rotate)).rotate.1 = some ⟨save, load⟩) ∧
      s.after (List.replicate ring.length .rotate) = s := by
  intro s ring
  have h : s.Placed := placed_empty.after history
  have hring : s.living = ring := living_cons hcurrent
  have hturns := rotations_eq h (Option.isSome_of_eq_some hcurrent)
  simp only [hring] at hturns
  refine ⟨fun hr => rotate_nil hr, fun k => ?_, fun hr k => ?_, ?_⟩
  · rw [List.rotate_mod, hturns]
  · simpa only [hring] using rotate_fst_of_rotations h hcurrent hr k
  · rw [hturns, List.rotate_length, ← hring, withLiving_living hcurrent]

/-- Two threads are ready.  After four rotations the second thread is current, and
three rotations are a round. -/
theorem three_threads_rotate :
    let history : List Operation :=
      [.start 4096, .spawn ⟨0, .native⟩ 1 ⟨0, 4096, 8192⟩, .spawn ⟨0, .foreign⟩ 2 ⟨1, 12288, 8192⟩]
    let s := ({} : Scheduler).after history
    let second := Thread.create ⟨2⟩ ⟨0, .native⟩ 1 ⟨0, 4096, 8192⟩
    let third := Thread.create ⟨3⟩ ⟨0, .foreign⟩ 2 ⟨1, 12288, 8192⟩
    s.current = some (.hosted ⟨1⟩) ∧ s.ready = [second, third] ∧
      s.after (List.replicate 4 .rotate) = s.withLiving [second, third, .hosted ⟨1⟩] ∧
      (s.after (List.replicate 4 .rotate)).rotate.1 =
        some ⟨⟨⟨2⟩, .own ⟨0, 4096, 8192⟩⟩, ⟨⟨3⟩, .own ⟨1, 12288, 8192⟩⟩⟩ ∧
      s.after (List.replicate 3 .rotate) = s := by
  intro history s second third
  have hready : (({} : Scheduler).after history).ready = [second, third] := by decide
  have h := rotation_is_cyclic history (.hosted ⟨1⟩) rfl
  simp only [hready] at h
  obtain ⟨-, hturns, hswitches, hround⟩ := h
  obtain ⟨out, next, save, load, hout, hnext, hsave, hload, hswitch⟩ := hswitches (by simp) 4
  obtain rfl : second = out := by simpa using hout
  obtain rfl : third = next := by simpa using hnext
  obtain rfl := Option.some.inj hsave
  obtain rfl := Option.some.inj hload
  exact ⟨by decide, hready, by simpa using hturns 4, hswitch, hround⟩

end GreenThreads.Scheduler
