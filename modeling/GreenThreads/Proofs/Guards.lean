import GreenThreads.Proofs.Masks
import Mathlib.Data.List.Perm.Basic

/-!
# GreenThreads.Proofs.Guards

The guards that a thread holds, and what they are worth when they are dropped
in any order.

A guard only knows whether the signal was held off when it was made, so all that
tells guards apart is whether they are *outer*: made while the signal was let
through.  `Course drops p guards q` follows one thread from `p` to `q` while it
makes guards and drops them, with anything else in between that is not there to
change the mask, whatever other threads do meanwhile.

* There is an outer guard exactly while the signal is held off that was let
  through to begin with, and never more than one (`Course.count_outer`).
* A thread that drops its outer guard last of all, or always its latest guard
  first, has an outer guard for as long as it has any
  (`Course.outer_mem_of_outerLast`, `Course.outer_mem_of_latestFirst`).

The main statement is `held_off_while_outer_lives`.
-/

namespace GreenThreads

/-- The guard that was made while the signal was let through. -/
def Guard.outer : Guard := ⟨false⟩

theorem Guard.eq_outer_iff {g : Guard} : g = .outer ↔ g.wasMasked = false := by
  cases g
  simp [outer]

theorem Guard.count_outer_cons (g : Guard) (guards : List Guard) :
    (g :: guards).count .outer = guards.count .outer + (!g.wasMasked).toNat := by
  rw [List.count_cons]
  cases hwas : g.wasMasked <;> simp [eq_outer_iff, hwas]

theorem Guard.count_outer_eraseIdx {guards : List Guard} (hi : i < guards.length) :
    (guards.eraseIdx i).count .outer + (!guards[i].wasMasked).toNat = guards.count .outer := by
  rw [← count_outer_cons, (List.getElem_cons_eraseIdx_perm hi).count_eq]

/-- The calls of a thread that come back and are not there to change its mask. -/
def Call.sparesMask (thread : ThreadId) : Call → Bool
  | .mask | .release _ | .unmask | .init _ => false
  | call => (call.exitValue? thread).isNone

theorem Call.maskAfter_of_sparesMask {call : Call} (h : call.sparesMask thread = true)
    (masked : Bool) : call.maskAfter masked = masked ∧ call.exitValue? thread = none := by
  cases call <;> simp_all [sparesMask, maskAfter]

namespace Process

/-! ## the course of a thread -/

/-- The thread that runs in `p` has come to `q`, and holds the `guards` that it
has made and not dropped since, the latest first.  From `guards` it has dropped
the one at place `i` only where `drops guards i`. -/
inductive Course (drops : List Guard → Nat → Prop) (p : Process) :
    List Guard → Process → Prop where
  | start : Course drops p [] p
  | mask {g : Guard} (h : Course drops p guards q) (hr : q.Returns .mask (.guard g) r) :
      Course drops p (g :: guards) r
  | drop {i : Nat} (h : Course drops p guards q) (hi : i < guards.length)
      (hdrops : drops guards i) (hr : q.Returns (.release guards[i]) reply r) :
      Course drops p (guards.eraseIdx i) r
  | other {call : Call} (h : Course drops p guards q) (hcall : call.sparesMask q.self = true)
      (hr : q.Returns call reply r) : Course drops p guards r

/-- The outer guard is not dropped while others live. -/
def outerLast (guards : List Guard) (i : Nat) : Prop :=
  guards[i]? = some .outer → guards.length = 1

/-- The guard that was made last is dropped first. -/
def latestFirst (_ : List Guard) (i : Nat) : Prop := i = 0

variable {τ : Transcript} {p q : Process} {call : Call} {reply : Reply} {guards : List Guard}
  {g : Guard}

/-- A call that is answered at once has no other answer. -/
theorem Underway.eq_of_runs (h : p.Underway call q) (hruns : (p.perform call).Runs p.self) :
    q = p.perform call := by
  induction h with
  | called => rfl
  | step _ hnot _ ih => exact absurd (ih ▸ hruns) hnot

/-- A guard remembers whether the signal was held off. -/
theorem Returns.guard_eq (h : p.Returns .mask (.guard g) q) : g = p.signal.guard := by
  have hq := h.underway.eq_of_runs ⟨rfl, _, rfl⟩
  have hcontrol := h.control
  rw [hq] at hcontrol
  exact (Reply.guard.inj (Control.client.inj hcontrol)).symm

theorem Returns.masked_eq (h : p.Returns call reply q) (run : Run τ p)
    (hexit : call.exitValue? p.self = none) : q.signal.masked = call.maskAfter p.signal.masked :=
  h.underway.masked run hexit (maskOf?_client h.control h.self)

namespace Course

variable {drops : List Guard → Nat → Prop}

theorem run (h : p.Course drops guards q) (run : Run τ p) : ∃ τ', Run τ' q := by
  induction h with
  | start => exact ⟨τ, run⟩
  | mask _ hr ih | drop _ _ _ hr ih | other _ _ hr ih =>
      obtain ⟨τ', run'⟩ := ih
      exact hr.underway.run run'

/-- **The outer guards are what holds the signal off** that was let through to
begin with, so there is one at most.  There is none where it was held off
before. -/
theorem count_outer (h : p.Course drops guards q) (run : Run τ p) :
    guards.count .outer + p.signal.masked.toNat = q.signal.masked.toNat := by
  induction h with
  | start => exact Nat.zero_add _
  | @mask guards q r g h hr ih =>
      obtain ⟨τ', run'⟩ := h.run run
      have hwas : g.wasMasked = q.signal.masked := congrArg Guard.wasMasked hr.guard_eq
      rw [hr.masked_eq run' rfl, Guard.count_outer_cons, hwas, Nat.add_right_comm, ih]
      cases q.signal.masked <;> rfl
  | @drop guards q reply r i h hi _ hr ih =>
      obtain ⟨τ', run'⟩ := h.run run
      have hcount := Guard.count_outer_eraseIdx hi
      rw [hr.masked_eq run' rfl, Call.maskAfter]
      -- to drop the outer guard opens the mask, to drop another one does not
      cases hwas : guards[i].wasMasked with
      | true =>
          rw [hwas] at hcount
          rw [Bool.true_and, ← ih, ← hcount]
          rfl
      | false =>
          have hle := Bool.toNat_le q.signal.masked
          rw [hwas, Bool.not_false, Bool.toNat_true] at hcount
          rw [Bool.false_and, Bool.toNat_false]
          omega
  | @other guards q reply r call h hcall hr ih =>
      obtain ⟨τ', run'⟩ := h.run run
      obtain ⟨hmask, hexit⟩ := Call.maskAfter_of_sparesMask hcall q.signal.masked
      rw [hr.masked_eq run' hexit, hmask, ih]

theorem masked_iff (h : p.Course drops guards q) (run : Run τ p)
    (hopen : p.signal.masked = false) : q.signal.masked = true ↔ Guard.outer ∈ guards := by
  have hcount := h.count_outer run
  rw [← List.count_pos_iff]
  cases hq : q.signal.masked <;> simp_all

/-- The first guard that a thread makes is an outer one. -/
theorem outer_of_mask (h : p.Course drops [] q) (run : Run τ p) (hopen : p.signal.masked = false)
    (hr : q.Returns .mask (.guard g) r) : g = .outer := by
  rw [hr.guard_eq, Guard.eq_outer_iff, ← Bool.not_eq_true]
  intro hmasked
  exact List.not_mem_nil ((h.masked_iff run hopen).mp hmasked)

theorem outer_mem_of_outerLast (h : p.Course outerLast guards q) (run : Run τ p)
    (hopen : p.signal.masked = false) (hsome : guards ≠ []) : .outer ∈ guards := by
  induction h with
  | start => contradiction
  | @mask guards q r g h hr ih =>
      by_cases hnone : guards = []
      · subst hnone
        rw [h.outer_of_mask run hopen hr]
        exact List.mem_cons_self
      · exact List.mem_cons_of_mem g (ih hnone)
  | @drop guards q reply r i h hi hdrops hr ih =>
      have hmem : .outer ∈ guards := ih (by rintro rfl; contradiction)
      -- others live on, so that it is not the outer one that is dropped
      have hother : .outer ≠ guards[i] := by
        intro houter
        have halone := hdrops (by rw [List.getElem?_eq_getElem hi, houter])
        have hlength := List.length_eraseIdx_of_lt hi
        exact hsome (List.eq_nil_of_length_eq_zero (by omega))
      have hkept := (List.getElem_cons_eraseIdx_perm hi).mem_iff.mpr hmem
      exact (List.mem_cons.mp hkept).resolve_left hother
  | other _ _ _ ih => exact ih hsome

/-- The guard that was made first is the outer one. -/
theorem getLast?_of_latestFirst (h : p.Course latestFirst guards q) (run : Run τ p)
    (hopen : p.signal.masked = false) (hsome : guards ≠ []) : guards.getLast? = some .outer := by
  induction h with
  | start => contradiction
  | @mask guards q r g h hr ih =>
      cases guards with
      | nil => rw [h.outer_of_mask run hopen hr]; rfl
      | cons g' rest => rw [List.getLast?_cons_cons, ih (List.cons_ne_nil _ _)]
  | @drop guards q reply r i h hi hdrops hr ih =>
      obtain rfl : i = 0 := hdrops
      match guards with
      | [] => contradiction
      | [_] => contradiction
      | g :: g' :: rest =>
          have hlast := ih (List.cons_ne_nil _ _)
          rwa [List.getLast?_cons_cons] at hlast
  | other _ _ _ ih => exact ih hsome

theorem outer_mem_of_latestFirst (h : p.Course latestFirst guards q) (run : Run τ p)
    (hopen : p.signal.masked = false) (hsome : guards ≠ []) : .outer ∈ guards :=
  List.mem_of_getLast? (h.getLast?_of_latestFirst run hopen hsome)

end Course

/-- **What guards are worth** to a thread that begins with the signal let
through, in every run and whatever other threads do in between.

* Whatever the order in which it drops them, the signal is held off exactly
  while the guard lives that was made while the signal was let through.  There
  is never more than one.  So the signal is let through when no guard lives.
* Where that guard is not dropped while others live, the signal is held off for
  as long as any guard lives.
* In particular where the latest guard is always dropped first. -/
theorem held_off_while_outer_lives (run : Run τ p) (hopen : p.signal.masked = false) :
    (∀ drops guards q, p.Course drops guards q →
      (q.signal.masked = true ↔ .outer ∈ guards) ∧ guards.count .outer ≤ 1 ∧
      (q.signal.masked = true → guards ≠ [])) ∧
    (∀ guards q, p.Course outerLast guards q → (q.signal.masked = true ↔ guards ≠ [])) ∧
    ∀ guards q, p.Course latestFirst guards q → (q.signal.masked = true ↔ guards ≠ []) := by
  have hany : ∀ drops guards q, p.Course drops guards q →
      (q.signal.masked = true ↔ .outer ∈ guards) ∧ guards.count .outer ≤ 1 ∧
      (q.signal.masked = true → guards ≠ []) := by
    intro drops guards q h
    have hmasked := h.masked_iff run hopen
    have hcount : guards.count .outer ≤ q.signal.masked.toNat :=
      h.count_outer run ▸ Nat.le_add_right _ _
    refine ⟨hmasked, Nat.le_trans hcount (Bool.toNat_le _), fun hheld => ?_⟩
    exact List.ne_nil_of_mem (hmasked.mp hheld)
  refine ⟨hany, ?_, ?_⟩
  · intro guards q h
    obtain ⟨hmasked, -, hsome⟩ := hany _ _ _ h
    exact ⟨hsome, fun hg => hmasked.mpr (h.outer_mem_of_outerLast run hopen hg)⟩
  · intro guards q h
    obtain ⟨hmasked, -, hsome⟩ := hany _ _ _ h
    exact ⟨hsome, fun hg => hmasked.mpr (h.outer_mem_of_latestFirst run hopen hg)⟩

/-- The initial thread makes a guard, a thread and another guard, and waits for
the thread, which begins with the mask open.  Then it drops the guard that it
made last: the first one still holds the signal off. -/
theorem first_guard_holds_off :
    ∃ τ p q r, ({} : Process).follow [] [.call (.init (.ofMicros 1000))] = some (τ, p) ∧
      p.signal.masked = false ∧ p.Course latestFirst [⟨true⟩, .outer] q ∧
      (q.perform (.join ⟨2⟩)).advance.signal.masked = false ∧
      q.Returns (.join ⟨2⟩) (.status (.returned 7)) r ∧
      p.Course latestFirst [.outer] (r.perform (.release ⟨true⟩)) ∧
      (r.perform (.release ⟨true⟩)).signal.masked = true := by
  obtain ⟨τ, p, hfollow⟩ : ∃ τ p, ({} : Process).follow []
      [.call (.init (.ofMicros 1000))] = some (τ, p) := ⟨_, _, rfl⟩
  have run := Run.start.follow hfollow
  let made := (p.perform .mask).perform (.create ⟨0, .native⟩ 5)
  let q := made.perform .mask
  let r := ((q.perform (.join ⟨2⟩)).advance.perform (.exit 7)).advance
  have hq : p.Course latestFirst [⟨true⟩, .outer] q := by
    obtain ⟨-, rfl⟩ := Prod.mk.inj (Option.some.inj hfollow)
    have hcreate : Returns _ (.create ⟨0, .native⟩ 5) (.thread ⟨2⟩) made :=
      ⟨.called rfl, by decide, by decide⟩
    have houter : Course latestFirst _ [.outer] made :=
      .other (.mask .start ⟨.called rfl, by decide, by decide⟩) rfl hcreate
    exact .mask houter ⟨.called rfl, by decide, by decide⟩
  have hjoin : q.Returns (.join ⟨2⟩) (.status (.returned 7)) r := by
    obtain ⟨-, rfl⟩ := Prod.mk.inj (Option.some.inj hfollow)
    refine ⟨?_, by decide, by decide⟩
    refine .step (.step (.step (.called rfl) ?_ (.turn rfl)) ?_ (.call rfl _)) ?_ (.turn rfl) <;>
      decide
  have hopen : p.signal.masked = false ∧
      (q.perform (.join ⟨2⟩)).advance.signal.masked = false := by
    obtain ⟨-, rfl⟩ := Prod.mk.inj (Option.some.inj hfollow)
    exact ⟨rfl, rfl⟩
  have hrelease : r.Returns (.release ⟨true⟩) .done (r.perform (.release ⟨true⟩)) := by
    refine ⟨.called hjoin.control, ?_, ?_⟩ <;>
      · obtain ⟨-, rfl⟩ := Prod.mk.inj (Option.some.inj hfollow)
        decide
  have hdropped : p.Course latestFirst [.outer] (r.perform (.release ⟨true⟩)) :=
    .drop (i := 0) (.other hq rfl hjoin) (by decide) rfl hrelease
  have hheld := ((held_off_while_outer_lives run hopen.1).2.2 _ _ hdropped).mpr
    (List.cons_ne_nil _ _)
  exact ⟨τ, p, q, r, hfollow, hopen.1, hq, hopen.2, hjoin, hdropped, hheld⟩

/-- A guard that outlives the outer one is worth nothing: the initial thread
makes two guards and drops the first. -/
theorem orphaned_guard_holds_nothing_off :
    ¬ ∀ τ p guards q, Run τ p → p.signal.masked = false →
      p.Course (fun _ _ => True) guards q → (q.signal.masked = true ↔ guards ≠ []) := by
  intro hall
  let q : Process := ((({} : Process).perform .mask).perform .mask).perform (.release .outer)
  have hcourse : ({} : Process).Course (fun _ _ => True) [⟨true⟩] q :=
    .drop (i := 1) (.mask (.mask .start ⟨.called rfl, rfl, rfl⟩) ⟨.called rfl, rfl, rfl⟩)
      (by decide) trivial ⟨.called rfl, rfl, rfl⟩
  have hmasked := (hall [] {} [⟨true⟩] q .start rfl hcourse).mpr (List.cons_ne_nil _ _)
  exact absurd hmasked (by decide)

end Process

end GreenThreads
