/-!
# Pipes

A pipe carries bytes in one direction. It holds a limited number of bytes, so a write
takes only what fits. Once a pipe is closed, from either end, nothing can be written
any more; what it holds can still be read, and then the end is reached.
-/

namespace Courier

/-- The bytes under way in one direction. -/
structure Pipe where
  held : ByteArray := .empty
  closed : Bool := false

/-- What reading finds. -/
inductive Reading where
  | bytes (bytes : ByteArray)
  | nothing
  | ended

namespace Pipe

/-- The number of bytes that a pipe holds at most. -/
def capacity : Nat := 64 * 1024

/-- The number of bytes that still fit. -/
def room (p : Pipe) : Nat := capacity - p.held.size

/-- Write as much as fits of some bytes from a position on, and tell how much that was.
A closed pipe takes nothing and is broken. -/
def write? (p : Pipe) (bytes : ByteArray) (start : Nat) : Option (Nat × Pipe) :=
  if p.closed then none
  else
    let count := min p.room (bytes.size - start)
    some (count, { p with held := p.held ++ bytes.extract start (start + count) })

/-- Read at most so many bytes. -/
def read (p : Pipe) (limit : Nat) : Reading × Pipe :=
  if 0 < p.held.size then
    let count := min limit p.held.size
    (.bytes (p.held.extract 0 count), { p with held := p.held.extract count p.held.size })
  else if p.closed then (.ended, p)
  else (.nothing, p)

/-- Close the pipe. -/
def close (p : Pipe) : Pipe := { p with closed := true }

/-- Writing never overfills a pipe. -/
theorem write_within (p after : Pipe) (bytes : ByteArray) (start count : Nat)
    (within : p.held.size ≤ capacity) (wrote : p.write? bytes start = some (count, after)) :
    after.held.size ≤ capacity := by
  unfold write? at wrote
  split at wrote
  · cases wrote
  · simp only [Option.some.injEq, Prod.mk.injEq] at wrote
    obtain ⟨_, rfl⟩ := wrote
    simp only [ByteArray.size_append, ByteArray.size_extract, room]
    omega

end Pipe

end Courier
