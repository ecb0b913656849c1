import GreenThreads.Failure

/-!
# GreenThreads.Page

Memory comes from the host in whole pages.  `roundUp` gives the least number
of bytes that fills whole pages and holds a request; it refuses a request
whose rounded size does not fit a machine word.
-/

namespace GreenThreads.Page

/-- The number of bytes in a page. -/
def size : Nat := 4096

/-- The number of pages needed to hold `n` bytes. -/
def count (n : Nat) : Nat := (size - 1 + n) / size

/-- The size of the pages needed to hold `n` bytes. -/
def roundUp (n : Nat) : Except Overflow Nat := checkedMul (count n) size

/-- The pages counted hold the request. -/
theorem le_count_mul (n : Nat) : n ≤ count n * size := by
  simp only [count, size]; omega

/-- One page fewer would not hold it. -/
theorem count_mul_lt (n : Nat) : count n * size < n + size := by
  simp only [count, size]; omega

end GreenThreads.Page
