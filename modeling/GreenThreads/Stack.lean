import GreenThreads.Page

/-!
# GreenThreads.Stack

The stacks that threads run on.  A stack is a stretch of whole pages with
one more page below it, the guard page, which may not be touched: a thread
that overflows its stack faults there instead of writing into a neighbour.

The host is asked twice for each stack: to map the memory, and to protect the
guard page.  What it answers is a parameter, a `Host`.  A `StackPool` keeps the
stacks in use, which `live` counts.  The host may hand an address out again
once its stack is gone, so stacks are told apart by their numbers.

A request fails when its size does not fit a machine word, when the host
refuses the mapping or does not protect the guard page, and when the mapping
lies at address zero.  Only the stacks are counted here: a mapping whose guard
page could not be protected is given back, and one at address zero is lost.
Giving memory back is taken to succeed.
-/

namespace GreenThreads

/-- A stack: how many there had been before it, the address of its mapping, and
the length of the mapping. -/
structure Stack where
  number : Nat
  mapping : Nat
  length : Nat
  deriving DecidableEq, Repr

namespace Stack

/-- The lowest address that may be used, past the guard page. -/
def start (s : Stack) : Nat := s.mapping + Page.size

/-- The address past the highest one that may be used. -/
def finish (s : Stack) : Nat := s.mapping + s.length

/-- The number of bytes that may be used. -/
def size (s : Stack) : Nat := s.length - Page.size

theorem finish_sub_start (s : Stack) : s.finish - s.start = s.size := Nat.add_sub_add_left ..

end Stack

/-! ## the host -/

/-- What the host answers when a stack is asked for and `made` have been mapped
before.  Asked again after it has failed, it gives the same answer; in a process
such a failure is the end. -/
structure Host where
  /-- The address of a mapping of `length` bytes. -/
  map (made length : Nat) : Except HostError Nat
  /-- Whether the page at `address` can no longer be touched. -/
  protect (made address : Nat) : Except HostError Unit

instance : Repr Host := ⟨fun _ _ => "host"⟩

namespace Host

/-- A bound on mappings, two to the forty-seventh. -/
def mappingBound : Nat := 0x800000000000

/-- A host that has room for all mappings below the bound, each at an address of
its own, and protects every page. -/
def roomy : Host where
  map made length :=
    if length < mappingBound then .ok ((made + 1) * mappingBound) else .error .outOfMemory
  protect _ _ := .ok ()

/-- The address of a mapping whose first page is protected. -/
def mapGuarded (h : Host) (made length : Nat) : Except HostError Nat :=
  match h.map made length with
  | .error e => .error e
  | .ok address =>
    match h.protect made address with
    | .error e => .error e
    | .ok () => if address = 0 then .error .nullMapping else .ok address

variable {h : Host}

theorem mapGuarded_of_refused (hmap : h.map made length = .error e) :
    h.mapGuarded made length = .error e := by
  rw [mapGuarded, hmap]

theorem mapGuarded_of_unprotected (hmap : h.map made length = .ok address)
    (hprotect : h.protect made address = .error e) : h.mapGuarded made length = .error e := by
  simp only [mapGuarded, hmap, hprotect]

theorem mapGuarded_of_null (hmap : h.map made length = .ok 0)
    (hprotect : h.protect made 0 = .ok ()) : h.mapGuarded made length = .error .nullMapping := by
  simp only [mapGuarded, hmap, hprotect, if_true]

theorem mapGuarded_of_protected (hmap : h.map made length = .ok address)
    (hprotect : h.protect made address = .ok ()) (hne : address ≠ 0) :
    h.mapGuarded made length = .ok address := by
  simp only [mapGuarded, hmap, hprotect, if_neg hne]

end Host

/-! ## stacks in use -/

/-- Why no stack was mapped. -/
inductive MapFailure where
  | overflow (cause : Overflow)
  | host (error : HostError)
  deriving DecidableEq, Repr

/-- The host, the stacks in use, and how many there have been. -/
structure StackPool where
  host : Host := .roomy
  mapped : List Stack := []
  made : Nat := 0
  deriving Repr

namespace StackPool

/-- The number of stacks in use. -/
def live (p : StackPool) : Nat := p.mapped.length

/-- The length of the mapping for a stack of `bytes` bytes: at least one
page, and the guard page. -/
def mappingLength (bytes : Nat) : Except Overflow Nat :=
  match Page.roundUp (max bytes 1) with
  | .error o => .error o
  | .ok size => checkedAdd size Page.size

/-- The pool with a stack more. -/
def push (stack : Stack) (p : StackPool) : StackPool :=
  { p with mapped := p.mapped ++ [stack], made := p.made + 1 }

/-- Map a stack of at least `bytes` bytes, and protect the page below it. -/
def map (bytes : Nat) (p : StackPool) : Except MapFailure Stack × StackPool :=
  match mappingLength bytes with
  | .error o => (.error (.overflow o), p)
  | .ok length =>
    match p.host.mapGuarded p.made length with
    | .error e => (.error (.host e), p)
    | .ok address =>
      let stack : Stack := ⟨p.made, address, length⟩
      (.ok stack, p.push stack)

/-- Give stacks back to the host. -/
def release (freed : List Stack) (p : StackPool) : StackPool :=
  { p with mapped := p.mapped.filter fun s => s ∉ freed }

@[simp] theorem release_nil (p : StackPool) : p.release [] = p := by
  cases p; simp [release]

/-- A request gives a new stack, or leaves the pool as it was. -/
theorem map_cases (bytes : Nat) (p : StackPool) :
    (∃ cause, p.map bytes = (.error cause, p)) ∨
      ∃ stack : Stack, stack.number = p.made ∧ p.map bytes = (.ok stack, p.push stack) := by
  unfold map
  split
  · exact .inl ⟨_, rfl⟩
  · split
    · exact .inl ⟨_, rfl⟩
    · exact .inr ⟨_, rfl, rfl⟩

/-- Only a stack that has been mapped changes the pool. -/
theorem map_of_error {p q : StackPool} (h : p.map bytes = (.error cause, q)) : q = p := by
  obtain ⟨_, hfailed⟩ | ⟨_, -, hmapped⟩ := map_cases bytes p
  · exact (Prod.mk.inj (h.symm.trans hfailed)).2
  · exact nomatch (Prod.mk.inj (h.symm.trans hmapped)).1

theorem map_of_ok {p q : StackPool} {s : Stack} (h : p.map bytes = (.ok s, q)) :
    s.number = p.made ∧ q = p.push s := by
  obtain ⟨_, hfailed⟩ | ⟨stack, hnumber, hmapped⟩ := map_cases bytes p
  · exact nomatch (Prod.mk.inj (h.symm.trans hfailed)).1
  · obtain ⟨hstack, hpool⟩ := Prod.mk.inj (h.symm.trans hmapped)
    obtain rfl := Except.ok.inj hstack
    exact ⟨hnumber, hpool⟩

/-- A stack that was mapped is one stack more. -/
theorem live_of_map {p q : StackPool} {s : Stack} (h : p.map bytes = (.ok s, q)) :
    q.live = p.live + 1 := by
  rw [(map_of_ok h).2, live, push, List.length_append]
  rfl

end StackPool

end GreenThreads
