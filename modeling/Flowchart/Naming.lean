/-!
# Fresh names

New names are numbered, and the first number is taken whose name is still free. Among one more numbers than
there are names, one is always free.
-/

namespace Flowchart

/-- The first number from `start` on with a free name, among the next `count` numbers. -/
def firstFree (taken : List String) (name : Nat → String) : (start count : Nat) → Nat
  | start, 0 => start
  | start, count + 1 =>
    if taken.contains (name start) then firstFree taken name (start + 1) count else start

/-- The first number from `start` on whose name is not taken. -/
def freshNumber (taken : List String) (name : Nat → String) (start : Nat) : Nat :=
  firstFree taken name start taken.length

end Flowchart
