/-!
# Workers

How the work on a strip is spread over threads. Which thread does a piece of work shows in no
result, so a mode decides only how many threads there are, and that depends on the machine.
-/

namespace SurfaceWater

inductive ProcessingMode where
  | sequential
  /-- On all cores. -/
  | parallel
  | parallelWith (threads : Nat)
  deriving DecidableEq, Repr

/-- What a machine has to offer for the work. -/
structure Machine where
  /-- The threads that work where all cores are used. -/
  cores : Nat
  /-- The threads of a pool that is asked for with so many, if it can be built. -/
  pool? : (threads : Nat) → Option Nat

namespace Machine

/-- The largest pool of threads. -/
def poolLimit : Nat := 65535

/-- A machine that builds every pool up to the limit. A pool of no threads is one of all cores. -/
def ofCores (cores : Nat) : Machine where
  cores
  pool? threads := some (if threads = 0 then cores else min threads poolLimit)

/-- The machine that the program takes itself to run on. -/
def standard : Machine := .ofCores 3

end Machine

namespace ProcessingMode

/-- The mode of a requested number of threads, of which zero stands for all cores. -/
def ofThreads : Nat → ProcessingMode
  | 0 => parallel
  | 1 => sequential
  | n => parallelWith n

/-- The number of threads that a mode asks for. -/
def threads (machine : Machine) : ProcessingMode → Nat
  | sequential => 1
  | parallel => machine.cores
  | parallelWith n => n

/-- The number of threads that work in a mode. Where a pool cannot be built all cores work. -/
def workers (machine : Machine) : ProcessingMode → Nat
  | sequential => 1
  | parallel => machine.cores
  | parallelWith n => (machine.pool? n).getD machine.cores

end ProcessingMode

/-- Does a piece of work for every item. The answers are in the order of the items, and of several
failures that of the first item counts. -/
def mapWork {α β ε : Type} (work : α → Except ε β) (items : List α) : Except ε (List β) := items.mapM work

end SurfaceWater
