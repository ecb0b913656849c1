import GreenThreads.Proofs.Effect

/-!
# GreenThreads.Proofs.Turns

What a turn does in a process whose books agree: the thread that has arrived
goes on, and what becomes of it is `Proceeds`.

A thread that waits for something looks whether it has happened.  If it has
not there is another thread that is ready, so the processor always finds
somebody: `proceeds_awaitEnd`, `proceeds_awaitOthers`.
-/

namespace GreenThreads.Process

theorem awaitOthers_of_alone {p : Process} (hr : p.scheduler.ready = []) (value : Word) :
    p.awaitOthers value = p.terminate value := by
  rw [awaitOthers, hr]
  rfl

namespace Books

variable {p q : Process} {c n : Thread} {r : Resumption} {s : Saved}

/-! ## waiting -/

theorem withCurrent_eq (h : p.Books c) : p.withCurrent c = p := by
  rw [withCurrent, ← h.current]

theorem sameBooks_of_eq (h : p.Books c) (hc : c' = c) : (p.withCurrent c').SameBooks p :=
  .of_eq (by rw [hc, h.withCurrent_eq])

/-- A thread that waits for one that has ended is told how it has. -/
theorem awaitEnd_of_zombie (h : p.Books c) (hroutine : c.routine = none)
    (ht : t ∈ p.scheduler.zombies) (hstatus : t.exitStatus = some status) (guard : Guard) :
    p.awaitEnd t.id guard =
      ((p.withCurrent c.active).note (.joined c.id t.id status)).leave guard (.status status) := by
  have hmem : t ∈ p.scheduler.ready ++ p.scheduler.zombies := List.mem_append_right _ ht
  have hcleared : { p with scheduler := p.scheduler.setJoining .nobody } =
      p.withCurrent c.active := by
    rw [Scheduler.setJoining_eq h.current, withCurrent, Thread.active, hroutine]
  have hself : (p.scheduler.setJoining .nobody).currentId = c.id := by
    rw [Scheduler.setJoining_eq h.current, Scheduler.currentId]
  have hfind : (p.scheduler.setJoining .nobody).find? t.id = some t := h.placed.find?_eq hmem
  have hend : p.scheduler.endJoin t.id = (.ok status, p.scheduler.setJoining .nobody) := by
    simp [Scheduler.endJoin, hfind, hstatus]
  rw [awaitEnd, h.placed.isRunning_of_zombie h.current ht, hend, ← hcleared, ← hself]
  rfl

/-- A thread that waits for another one to end looks whether it has.  If so it
is told how; if not, the other one is ready, and there is somebody to hand the
processor to. -/
theorem proceeds_awaitEnd (h : p.Books c) (hmasked : p.signal.masked = true)
    (hroutine : c.routine = none) (hjoining : c.joining = target)
    (hknown : target ∈ p.scheduler.ids) (hne : target ≠ c.id) (guard : Guard) :
    p.Proceeds c (some (.join target)) (p.awaitEnd target guard) := by
  obtain ⟨t, ht, rfl⟩ := ((Scheduler.mem_ids_iff h.current).mp hknown).resolve_left hne
  cases List.mem_append.mp ht with
  | inl hready =>
      obtain ⟨n, rest, hr⟩ := List.exists_cons_of_ne_nil (List.ne_nil_of_mem hready)
      have hgoes := c.goesOn_pausedAt p.scheduler.ids (r := .joining t.id guard)
        (by simp) (by simp_all) (by simp)
      have hpaused : c.pausedAt (.joining t.id guard) = c := by
        rw [Thread.pausedAt, Resumption.target, ← hjoining, ← hroutine]
      rw [awaitEnd, if_pos (h.placed.isRunning_of_ready hready)]
      obtain ⟨s, hs⟩ := h.handsOver_of_ready hmasked hr
      exact .paused .joining (by simp) hgoes ((h.sameBooks_of_eq hpaused).handsOver hs)
  | inr hzombie =>
      obtain ⟨status, hstatus⟩ := (h.placed.ended t hzombie).exists_exitStatus
      have hdue := Due.joined (Scheduler.mem_ended_iff.mpr ⟨t, hzombie, rfl, hstatus⟩)
      rw [h.awaitEnd_of_zombie hroutine hzombie hstatus]
      exact h.proceeds_leave hdue ((SameBooks.refl _).note _) guard

/-- The initial thread waits while it is not alone. -/
theorem handsOver_awaitOthers (h : p.Books c) (hmasked : p.signal.masked = true)
    (hr : p.scheduler.ready = n :: rest) (value : Word) :
    ∃ s, p.HandsOver (.exiting value) n s (p.awaitOthers value) := by
  rw [awaitOthers, hr, List.isEmpty_cons, if_neg Bool.false_ne_true]
  exact h.handsOver_of_ready hmasked hr

theorem proceeds_awaitOthers {call : Call} (h : p.Books c) (hmasked : p.signal.masked = true)
    (hactive : c.active = c) (hinitial : c.id = .initial)
    (hexit : call.exitValue? .initial = some value) :
    p.Proceeds c (some call) (p.awaitOthers value) := by
  cases hr : p.scheduler.ready with
  | nil =>
      rw [awaitOthers_of_alone hr]
      exact .stopped rfl rfl
  | cons n rest =>
      have hgoes := c.goesOn_pausedAt p.scheduler.ids (r := .exiting value)
        (by simp) (by simp) (fun _ _ => hinitial)
      obtain ⟨s, hs⟩ := h.handsOver_awaitOthers hmasked hr value
      exact .paused (.exiting hexit) (by simp) hgoes ((h.sameBooks_of_eq hactive).handsOver hs)

/-! ## turns -/

/-- A thread that is switched to for the first time begins its routine. -/
theorem beginRoutine_eq (h : p.Books c) (hroutine : c.routine = some routine) :
    p.beginRoutine = (p.withCurrent { c with routine := none }).unblock (.begin routine c.arg) := by
  have htake : p.scheduler.current.map Thread.takeRoutine =
      some (some (routine, c.arg), { c with routine := none }) := by
    rw [h.current, Option.map_some, Thread.takeRoutine, hroutine]
    rfl
  rw [beginRoutine, htake]
  rfl

theorem proceeds_beginRoutine (h : p.Books c) (hroutine : c.routine.isSome)
    (hjoining : c.joining = .nobody) : p.Proceeds c none p.beginRoutine := by
  obtain ⟨routine, hr⟩ := Option.isSome_iff_exists.mp hroutine
  rw [h.beginRoutine_eq hr]
  refine h.proceeds_unblock .begun ⟨?_, rfl, rfl, rfl, rfl⟩
  simp only [withCurrent, Thread.active, ← hjoining]

theorem proceeds_resume (h : p.Books c) (hmasked : p.signal.masked = true)
    (hgoes : c.GoesOn p.scheduler.ids r) (hwaits : Waits p.scheduler.ended call r) :
    p.Proceeds c call (p.resume r) := by
  have hroutine : r ≠ .begin → c.routine = none := fun hr =>
    Option.not_isSome_iff_eq_none.mp (hr ∘ hgoes.routine.mp)
  have hjoining := hgoes.joining
  cases hwaits with
  | begun => exact h.proceeds_beginRoutine (hgoes.routine.mpr rfl) hjoining
  | yielding =>
      have hactive := c.active_eq (hroutine (by simp)) hjoining
      exact h.proceeds_leave (.done rfl) (h.sameBooks_of_eq hactive) _
  | joining =>
      obtain ⟨hknown, hne⟩ := hgoes.known _ _ rfl
      exact h.proceeds_awaitEnd hmasked (hroutine (by simp)) hjoining hknown hne _
  | exiting hexit =>
      have hactive := c.active_eq (hroutine (by simp)) hjoining
      exact h.proceeds_awaitOthers hmasked hactive (hgoes.initial _ rfl) hexit
  | preempted hdue =>
      have hactive := c.active_eq (hroutine (by simp)) hjoining
      have hsame := h.sameBooks_of_eq hactive
      exact h.proceeds_unblock hdue (hsame.trans (sameBooks_with ..))

/-- **What a turn does**: the thread that has arrived goes on, once the stacks
that were set aside have been given back. -/
theorem advances (h : p.Books c) (hcontrol : p.control = .arriving r)
    (hmasked : p.signal.masked = true) (hgoes : c.GoesOn p.scheduler.ids r)
    (hwaits : Waits p.scheduler.ended call r) : p.reap.Proceeds c call p.advance := by
  rw [advance, hcontrol]
  exact h.reap.proceeds_resume hmasked hgoes hwaits

end Books

/-- Whom the thread waits for does not matter to how it goes on. -/
theorem Proceeds.of_sameBooks {p p' q : Process} (hc : p.scheduler.current = some c)
    (hpaused : ∀ r, c'.pausedAt r = c.pausedAt r) (hsame : (p.withCurrent c').SameBooks p')
    (h : p'.Proceeds c' call q) : p.Proceeds c call q := by
  have hid : (c'.pausedAt .begin).id = (c.pausedAt .begin).id := by rw [hpaused]
  have hactive : c'.active = c.active := hpaused .begin
  have hended : p'.scheduler.ended = p.scheduler.ended := by rw [hsame.scheduler]; rfl
  have hids : p'.scheduler.ids = p.scheduler.ids := by
    rw [hsame.scheduler]
    exact ids_withCurrent hc hid
  cases h with
  | answered hdue hq =>
      rw [hended] at hdue
      rw [hactive] at hq
      exact .answered hdue ((hsame.withCurrent c.active).answers hq)
  | paused hwaits hr hgoes hq =>
      rw [hended] at hwaits
      rw [hpaused, hids] at hgoes
      rw [hpaused] at hq
      exact .paused hwaits hr hgoes ((hsame.withCurrent _).handsOver hq)
  | stopped h hpool => exact .stopped h (hpool.trans hsame.pool)

end GreenThreads.Process
