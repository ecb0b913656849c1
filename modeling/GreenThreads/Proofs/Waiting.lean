import GreenThreads.Proofs.Placement
import Mathlib.Data.List.Infix
import Mathlib.Data.List.Nodup

/-!
# GreenThreads.Proofs.Waiting

How long a thread waits in the ready queue.

A thread that waits behind a `front` of other threads gets the processor when
all of them are gone, and each goes in one of two ways: it is chosen, or it is
cancelled.  Nobody comes in between, since threads are queued last.

* `advance_of_spares` — what one operation does to the front;
* `front_after` — what a history does to it;
* `waits_in_order` — so the wait ends with one switch more than there are
  threads left in the front.
-/

namespace GreenThreads.Scheduler

/-! ## switches and the threads ahead -/

/-- The thread that has become current, if there was a switch. -/
def Answer.chosen? : Answer → Option ThreadId
  | .switch (some made) => some made.load.owner
  | .load (some next) => some next.owner
  | _ => none

/-- Whether an operation lets a thread wait: it neither cancels the thread nor
starts over. -/
def Operation.spares (o : Operation) (id : ThreadId) : Bool :=
  match o with
  | .start _ => false
  | .cancel other => other ≠ id
  | _ => true

/-- The threads that become current in the course of a history, in order: one
for each switch that is made. -/
def chosen (s : Scheduler) : List Operation → List ThreadId
  | [] => []
  | o :: history => (s.act o).answer.chosen?.toList ++ (s.act o).scheduler.chosen history

/-- The threads that wait ahead of a thread, the next one first. -/
def ahead (s : Scheduler) (id : ThreadId) : List ThreadId :=
  (s.ready.map Thread.id).takeWhile fun other => other ≠ id

/-- Whether an operation cancels a thread that waits ahead of another. -/
def cancelsAhead (s : Scheduler) (id : ThreadId) : Operation → Bool
  | .cancel other => other ∈ s.ahead id ∧ (s.act (.cancel other)).answer = .done
  | _ => false

/-- How many threads a history cancels while they wait ahead of a thread. -/
def cancelledAhead (s : Scheduler) (id : ThreadId) : List Operation → Nat
  | [] => 0
  | o :: history =>
    (s.cancelsAhead id o).toNat + (s.act o).scheduler.cancelledAhead id history

/-- The queue around a thread shows who is ahead of it. -/
theorem ahead_eq {s : Scheduler} (h : s.Placed) (hr : s.ready = front ++ t :: back) :
    s.ahead t.id = front.map Thread.id := by
  have hfront := h.ne_of_mem_front hr
  rw [ahead, hr, List.map_append, List.map_cons, List.takeWhile_append_of_pos]
  · simp
  · simpa using hfront

/-! ## one operation -/

/-- What an operation can do while a thread waits behind `front`. -/
inductive Advance (s : Scheduler) (front : List Thread) (t : Thread) (o : Operation) : Prop where
  /-- Nobody was ahead, and the thread itself is chosen. -/
  | arrived (hfront : front = []) (hchosen : (s.act o).answer.chosen? = some t.id)
      (hcurrent : (s.act o).scheduler.current = some t)
  /-- The first one ahead is chosen. -/
  | moved (n : Thread) (front' back' : List Thread) (hfront : front = n :: front')
      (hchosen : (s.act o).answer.chosen? = some n.id)
      (hcurrent : (s.act o).scheduler.current = some n)
      (hready : (s.act o).scheduler.ready = front' ++ t :: back')
      (hcancels : s.cancelsAhead t.id o = false)
  /-- Somebody ahead is cancelled. -/
  | thinned (a c' : Thread) (front₁ front₂ back' : List Thread)
      (hfront : front = front₁ ++ a :: front₂) (hchosen : (s.act o).answer.chosen? = none)
      (hcurrent : (s.act o).scheduler.current = some c') (hid : c'.id = s.currentId)
      (hready : (s.act o).scheduler.ready = front₁ ++ front₂ ++ t :: back')
      (hcancels : s.cancelsAhead t.id o = true)
  /-- Nothing changes ahead. -/
  | stayed (c' : Thread) (back' : List Thread) (hchosen : (s.act o).answer.chosen? = none)
      (hcurrent : (s.act o).scheduler.current = some c') (hid : c'.id = s.currentId)
      (hready : (s.act o).scheduler.ready = front ++ t :: back')
      (hcancels : s.cancelsAhead t.id o = false)

theorem currentId_eq {s : Scheduler} (hc : s.current = some c) : s.currentId = c.id := by
  simp [currentId, hc]

/-- The thread whose registers are loaded is the first one in the queue. -/
theorem chosen?_rotate {s : Scheduler} (h : s.Placed) (hc : s.current = some c)
    (hr : s.ready = n :: rest) : (s.act .rotate).answer.chosen? = some n.id := by
  have hn : n.isRunnable := h.ready (by simp [hr])
  obtain ⟨save, load, -, hload, hswitch⟩ := Switch.exists_of_between (h.current hc) hn
  simp [act, rotate_cons h hc hr, hswitch, Answer.chosen?, Thread.owner_of_registers? hload]

theorem chosen?_retire {s : Scheduler} (h : s.Placed) (hc : s.current = some c)
    (hr : s.ready = n :: rest) (v : Word) : (s.act (.retire v)).answer.chosen? = some n.id := by
  obtain ⟨load, hload⟩ := Thread.exists_registers (h.ready (t := n) (by simp [hr]))
  simp [act, retire_cons h hc hr, hload, Answer.chosen?, Thread.owner_of_registers? hload]

theorem advance_rotate {s : Scheduler} (h : s.Placed) (hc : s.current = some c)
    (hr : s.ready = front ++ t :: back) : Advance s front t .rotate := by
  cases front with
  | nil =>
      have heq := rotate_cons h hc (hr.trans (List.nil_append _))
      exact .arrived rfl (chosen?_rotate h hc hr) (by simp [act, heq])
  | cons n front' =>
      have heq := rotate_cons h hc (hr.trans (List.cons_append ..))
      exact .moved n front' (back ++ [c]) rfl (chosen?_rotate h hc hr) (by simp [act, heq])
        (by simp [act, heq]) rfl

theorem advance_retire {s : Scheduler} (h : s.Placed) (hc : s.current = some c)
    (hr : s.ready = front ++ t :: back) (v : Word) : Advance s front t (.retire v) := by
  cases front with
  | nil =>
      have heq := retire_cons (v := v) h hc (hr.trans (List.nil_append _))
      exact .arrived rfl (chosen?_retire h hc hr v) (by simp [act, heq])
  | cons n front' =>
      have heq := retire_cons (v := v) h hc (hr.trans (List.cons_append ..))
      exact .moved n front' back rfl (chosen?_retire h hc hr v) (by simp [act, heq])
        (by simp [act, heq]) rfl

theorem advance_cancel {s : Scheduler} {id : ThreadId} (h : s.Placed) (hc : s.current = some c)
    (hr : s.ready = front ++ t :: back) (hid : id ≠ t.id) : Advance s front t (.cancel id) := by
  have hahead := ahead_eq h hr
  by_cases hfront : id ∈ front.map Thread.id
  · obtain ⟨a, ha, rfl⟩ := List.mem_map.mp hfront
    obtain ⟨front₁, front₂, rfl⟩ := List.append_of_mem ha
    have heq := cancel_append h (hr.trans (List.append_assoc ..))
    apply Advance.thinned a c front₁ front₂ back rfl <;>
      simp [act, heq, hc, Answer.chosen?, currentId, cancelsAhead, hahead]
  · by_cases hback : id ∈ back.map Thread.id
    · obtain ⟨a, ha, rfl⟩ := List.mem_map.mp hback
      obtain ⟨back₁, back₂, rfl⟩ := List.append_of_mem ha
      have hr' : s.ready = (front ++ t :: back₁) ++ a :: back₂ := by simp [hr]
      have heq := cancel_append h hr'
      apply Advance.stayed c (back₁ ++ back₂) <;>
        simp [act, heq, hc, Answer.chosen?, currentId, cancelsAhead, hahead]
      simpa using hfront
    · have hnone : ∀ a ∈ s.ready, a.id ≠ id := by
        intro a ha heq
        simp only [hr, List.mem_append, List.mem_cons] at ha
        rcases ha with ha | rfl | ha
        · exact hfront (heq ▸ List.mem_map_of_mem ha)
        · exact hid heq.symm
        · exact hback (heq ▸ List.mem_map_of_mem ha)
      obtain ⟨e, he⟩ := cancel_eq_error hnone
      apply Advance.stayed c back <;>
        simp [act, he, hc, Answer.chosen?, currentId, cancelsAhead, hr]

/-- A thread that waits is reached by every operation that spares it in one of
four ways. -/
theorem advance_of_spares {s : Scheduler} {o : Operation} (h : s.Placed) (hc : s.current = some c)
    (hr : s.ready = front ++ t :: back) (ho : o.spares t.id) : Advance s front t o := by
  cases o with
  | start size => simp [Operation.spares] at ho
  | rotate => exact advance_rotate h hc hr
  | retire v => exact advance_retire h hc hr v
  | cancel id => exact advance_cancel h hc hr (by simpa [Operation.spares] using ho)
  | spawn routine arg stack =>
      exact .stayed c (back ++ [.create s.nextId routine arg stack]) rfl hc (currentId_eq hc).symm
        (by simp [act, allocateId, add, hr]) rfl
  | spawnHosted =>
      exact .stayed c (back ++ [.hosted s.nextId]) rfl hc (currentId_eq hc).symm
        (by simp [act, allocateId, add, hr]) rfl
  | allocateId | reap => exact .stayed c back rfl hc (currentId_eq hc).symm hr rfl
  | beginJoin id =>
      have hchosen : (s.act (.beginJoin id)).answer.chosen? = none := by
        simp only [act]
        split <;> rfl
      cases scheduler_act_beginJoin s id with
      | inl heq =>
          exact .stayed c back hchosen (by rw [heq, hc]) (currentId_eq hc).symm
            (by rw [heq, hr]) rfl
      | inr heq =>
          exact .stayed { c with joining := id } back hchosen (by simp [heq, setJoining, hc])
            (currentId_eq hc).symm (by simp [heq, setJoining, hr]) rfl
  | endJoin id =>
      have hchosen : (s.act (.endJoin id)).answer.chosen? = none := by
        simp only [act]
        split <;> rfl
      have heq := scheduler_act_endJoin s id
      exact .stayed { c with joining := .nobody } back hchosen (by simp [heq, setJoining, hc])
        (currentId_eq hc).symm (by simp [heq, setJoining, hr]) rfl

/-! ## a history -/

/-- A thread that does not become current still waits after a history, and
each thread that was ahead of it is still there, or was chosen, or was
cancelled. -/
theorem front_after {s : Scheduler} (h : s.Placed) (hc : s.current.isSome)
    (hr : s.ready = front ++ t :: back) (ops : List Operation) (hops : ∀ o ∈ ops, o.spares t.id)
    (hwaits : ∀ l, l <+: ops → (s.after l).currentId ≠ t.id) :
    ∃ front' back', (s.after ops).ready = front' ++ t :: back' ∧
      (s.after ops).current.isSome ∧
      (s.after ops).currentId = (s.chosen ops).getLast?.getD s.currentId ∧
      (s.chosen ops ++ front'.map Thread.id).Sublist (front.map Thread.id) ∧
      front'.length + (s.chosen ops).length + s.cancelledAhead t.id ops = front.length := by
  induction ops generalizing s front back with
  | nil => exact ⟨front, back, hr, hc, rfl, .refl _, rfl⟩
  | cons o ops ih =>
      obtain ⟨c, hcur⟩ := Option.isSome_iff_exists.mp hc
      have hops' : ∀ o ∈ ops, o.spares t.id := fun o' ho' => hops o' (List.mem_cons_of_mem _ ho')
      have hwaits' : ∀ l, l <+: ops → ((s.act o).scheduler.after l).currentId ≠ t.id :=
        fun l hl => hwaits (o :: l) (List.cons_prefix_cons.mpr ⟨rfl, hl⟩)
      cases advance_of_spares h hcur hr (hops o List.mem_cons_self) with
      | arrived _ _ hcurrent => exact absurd (currentId_eq hcurrent) (hwaits' [] List.nil_prefix)
      | moved n front' back' hfront hchosen hcurrent hready hcancels =>
          obtain ⟨front'', back'', hr', hc', hlast, hsub, hlen⟩ :=
            ih (h.act o) (by simp [hcurrent]) hready hops' hwaits'
          refine ⟨front'', back'', hr', hc', ?_, ?_, ?_⟩
          · rw [after_cons, hlast, chosen, hchosen, currentId_eq hcurrent]
            simp [List.getLast?_cons]
          · rw [chosen, hchosen, hfront]
            exact hsub.cons_cons _
          · simp only [chosen, hchosen, cancelledAhead, hcancels, hfront, Option.toList_some,
              List.length_cons, List.singleton_append, Bool.toNat_false]
            omega
      | thinned a c' front₁ front₂ back' hfront hchosen hcurrent hid hready hcancels =>
          obtain ⟨front'', back'', hr', hc', hlast, hsub, hlen⟩ :=
            ih (h.act o) (by simp [hcurrent]) hready hops' hwaits'
          refine ⟨front'', back'', hr', hc', ?_, ?_, ?_⟩
          · rw [after_cons, hlast, chosen, hchosen, currentId_eq hcurrent, hid]
            simp
          · rw [chosen, hchosen, hfront]
            exact hsub.trans (by simp)
          · simp only [chosen, hchosen, cancelledAhead, hcancels, hfront, Option.toList_none,
              List.length_append, List.length_cons, List.nil_append, Bool.toNat_true] at hlen ⊢
            omega
      | stayed c' back' hchosen hcurrent hid hready hcancels =>
          obtain ⟨front'', back'', hr', hc', hlast, hsub, hlen⟩ :=
            ih (h.act o) (by simp [hcurrent]) hready hops' hwaits'
          refine ⟨front'', back'', hr', hc', ?_, ?_, ?_⟩
          · rw [after_cons, hlast, chosen, hchosen, currentId_eq hcurrent, hid]
            simp
          · rw [chosen, hchosen]
            exact hsub
          · simp only [chosen, hchosen, cancelledAhead, hcancels, Option.toList_none,
              List.nil_append, Bool.toNat_false, Nat.zero_add]
            exact hlen

/-- The place of a thread in the queue is the number of threads ahead. -/
theorem index_eq {s : Scheduler} (h : s.Placed) (hr : s.ready = front ++ t :: back)
    (hi : s.ready[i]? = some t) : i = front.length := by
  have hnd : s.ready.Nodup := h.nodup_ready.of_map Thread.id
  obtain ⟨hlt, hget⟩ := List.getElem?_eq_some_iff.mp hi
  have hlt' : front.length < s.ready.length := by simp [hr]
  have hget' : s.ready[front.length] = t := by simp [hr]
  exact hnd.getElem_inj_iff.mp (hget.trans hget'.symm)

/-- Whether one more operation lets a waiting thread have the processor. -/
theorem currentId_act_iff {s : Scheduler} {o : Operation} (h : s.Placed) (hc : s.current = some c)
    (hr : s.ready = front ++ t :: back) (ho : o.spares t.id) :
    (s.act o).scheduler.currentId = t.id ↔ (s.act o).answer.chosen?.isSome ∧ front = [] := by
  have hne : s.currentId ≠ t.id := currentId_eq hc ▸ h.current_ne hc (by simp [hr])
  cases advance_of_spares h hc hr ho with
  | arrived hfront hchosen hcurrent => simp [currentId_eq hcurrent, hchosen, hfront]
  | moved n front' back' hfront hchosen hcurrent hready _ =>
      have hn : n.id ≠ t.id := (h.act o).current_ne hcurrent (by simp [hready])
      simp [currentId_eq hcurrent, hchosen, hfront, hn]
  | thinned a c' front₁ front₂ back' hfront hchosen hcurrent hid _ _ =>
      simp [currentId_eq hcurrent, hid, hchosen, hne]
  | stayed c' back' hchosen hcurrent hid _ _ => simp [currentId_eq hcurrent, hid, hchosen, hne]

/-- **Bounded waiting in the order of the queue.**  Take a scheduler that has
been started, and a thread with `k` others ahead of it.  As long as the thread
has not become current, its place only gets better, by one for each switch and
for each thread that is cancelled ahead of it; only threads that were ahead
have become current, in their order; and it becomes current with exactly the
switch that finds nobody ahead any more. -/
theorem waits_in_order (history ops : List Operation) (t : Thread) (k : Nat)
    (hstarted : (({} : Scheduler).after history).current.isSome)
    (hready : (({} : Scheduler).after history).ready[k]? = some t)
    (hspared : ∀ o ∈ ops, o.spares t.id)
    (hwaits : ∀ l, l <+: ops → ((({} : Scheduler).after history).after l).currentId ≠ t.id) :
    let s := ({} : Scheduler).after history
    let switches := (s.chosen ops).length
    let cancelled := s.cancelledAhead t.id ops
    switches + cancelled ≤ k ∧
      (s.after ops).ready[k - (switches + cancelled)]? = some t ∧
      (∀ l i, l <+: ops → (s.after l).ready[i]? = some t → k - (switches + cancelled) ≤ i) ∧
      (s.chosen ops).Sublist ((s.ready.take k).map Thread.id) ∧
      (s.after ops).currentId = (s.chosen ops).getLast?.getD s.currentId ∧
      ∀ o : Operation, o.spares t.id →
        ((s.after (ops ++ [o])).currentId = t.id ↔
          ((s.after ops).act o).answer.chosen?.isSome ∧ switches + 1 = k + 1 - cancelled) := by
  intro s switches cancelled
  have h : s.Placed := placed_empty.after history
  obtain ⟨hk, hget⟩ := List.getElem?_eq_some_iff.mp hready
  have hr : s.ready = s.ready.take k ++ t :: s.ready.drop (k + 1) := by
    rw [← hget, List.getElem_cons_drop, List.take_append_drop]
  have hlen : (s.ready.take k).length = k := List.length_take_of_le (Nat.le_of_lt hk)
  obtain ⟨front, back, hr', hc', hlast, hsub, hcount⟩ :=
    front_after h hstarted hr ops hspared hwaits
  have hfront : front.length = k - (switches + cancelled) := by omega
  refine ⟨by omega, ?_, ?_, ?_, hlast, ?_⟩
  · rw [hr', ← hfront]
    simp
  · intro l i hl hi
    obtain ⟨later, rfl⟩ := hl
    -- the place at the earlier moment is counted in the same way
    obtain ⟨frontₗ, backₗ, hrₗ, hcₗ, -, -, -⟩ := front_after h hstarted hr l
      (fun o ho => hspared o (List.mem_append_left _ ho))
      (fun l' hl' => hwaits l' (hl'.trans (List.prefix_append l later)))
    obtain ⟨front', back', hr'', -, -, -, hcount'⟩ := front_after (h.after l) hcₗ hrₗ later
      (fun o ho => hspared o (List.mem_append_right _ ho))
      (fun l' hl' => by
        rw [← after_append]
        exact hwaits (l ++ l') ((List.prefix_append_right_inj l).mpr hl'))
    have hi' := index_eq (h.after l) hrₗ hi
    rw [after_append] at hr'
    have hsame := index_eq (i := front'.length) ((h.after l).after later) hr' (by simp [hr''])
    omega
  · exact (List.sublist_append_left _ _).trans hsub
  · intro o ho
    obtain ⟨c, hc⟩ := Option.isSome_iff_exists.mp hc'
    have hone : s.after (ops ++ [o]) = ((s.after ops).act o).scheduler := by
      rw [after_append, after_cons, after_nil]
    rw [hone, currentId_act_iff (h.after ops) hc hr' ho, ← List.length_eq_zero_iff]
    have hnext : front.length = 0 ↔ switches + 1 = k + 1 - cancelled := by omega
    rw [hnext]

/-- Three threads wait.  When the second one has been cancelled and the first
one is current, the third one is at the front, and the next switch is its own. -/
theorem third_waits_in_order :
    let s := ({} : Scheduler).after
      [.start 4096, .spawn ⟨0, .native⟩ 1 ⟨0, 4096, 8192⟩, .spawn ⟨0, .native⟩ 2 ⟨1, 12288, 8192⟩,
        .spawn ⟨0, .foreign⟩ 3 ⟨2, 20480, 8192⟩]
    let third := Thread.create ⟨4⟩ ⟨0, .foreign⟩ 3 ⟨2, 20480, 8192⟩
    s.current.isSome ∧ s.ready[2]? = some third ∧
      (s.after [.cancel ⟨3⟩, .rotate]).ready[0]? = some third ∧
      (s.after [.cancel ⟨3⟩, .rotate, .retire 5]).currentId = third.id := by
  intro s third
  have hwaits : ∀ l, l <+: [.cancel ⟨3⟩, .rotate] → (s.after l).currentId ≠ third.id := by
    simp only [← List.mem_inits]
    decide
  have h := waits_in_order
    [.start 4096, .spawn ⟨0, .native⟩ 1 ⟨0, 4096, 8192⟩, .spawn ⟨0, .native⟩ 2 ⟨1, 12288, 8192⟩,
      .spawn ⟨0, .foreign⟩ 3 ⟨2, 20480, 8192⟩]
    [.cancel ⟨3⟩, .rotate] third 2 (by decide) (by decide) (by decide) hwaits
  exact ⟨by decide, by decide, h.2.1, (h.2.2.2.2.2 (.retire 5) (by decide)).mpr (by decide)⟩

end GreenThreads.Scheduler
