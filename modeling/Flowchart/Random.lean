import Flowchart.Numeric.Scalar
import Flowchart.Numeric.Power

/-!
# Seeded random numbers

The Mersenne Twister with 624 words of 32 bits. A seed of any size is cut into words of 32 bits, the lowest
first, and its sign is ignored. A number between 0 and 1 has 53 random bits, taken from two outputs.
-/

namespace Flowchart

/-- The words of the generator, and which of them is used next. -/
structure Twister where
  words : Array UInt32
  position : Nat
deriving Repr

namespace Twister

def size : Nat := 624

private def word (words : Array UInt32) (i : Nat) : UInt32 :=
  words.getD i 0

/-- The words that every seed starts from: each one follows from the word before it and from its place. -/
private def firstWords : Array UInt32 :=
  (List.range' 1 (size - 1)).foldl
    (fun words i =>
      let previous := word words (i - 1)
      words.push ((1812433253 : UInt32) * (previous ^^^ (previous >>> 30)) + UInt32.ofNat i))
    #[(19650218 : UInt32)]

/-- The words of a number, the lowest first; zero has one word. -/
private def keyWords (n : Nat) : List UInt32 :=
  if n < twoTo 32 then [UInt32.ofNat n] else UInt32.ofNat n :: keyWords (n / twoTo 32)
termination_by n
decreasing_by
  have hn : 4294967296 ≤ n := by simpa [twoTo] using ‹¬n < twoTo 32›
  exact Nat.div_lt_self (by omega) (by decide)

/-- The place after `i` when the words from 1 on are visited in a circle; word 0 follows the last one. -/
private def advance (words : Array UInt32) (i : Nat) : Array UInt32 × Nat :=
  if i + 1 < size then (words, i + 1) else (words.setIfInBounds 0 (word words (size - 1)), 1)

private def mixed (words : Array UInt32) (i : Nat) (factor : UInt32) : UInt32 :=
  let previous := word words (i - 1)
  word words i ^^^ ((previous ^^^ (previous >>> 30)) * factor)

private def mixKey (key : Array UInt32) (words : Array UInt32) : Array UInt32 × Nat :=
  (List.range (max size key.size)).foldl
    (fun (words, i) step =>
      let j := step % key.size
      advance (words.setIfInBounds i (mixed words i 1664525 + word key j + UInt32.ofNat j)) i)
    (words, 1)

private def mixPlaces (words : Array UInt32) (start : Nat) : Array UInt32 :=
  ((List.range (size - 1)).foldl
    (fun (words, i) _ =>
      advance (words.setIfInBounds i (mixed words i 1566083941 - UInt32.ofNat i)) i)
    (words, start)).1

def ofSeed (seed : Int) : Twister :=
  let (words, i) := mixKey (keyWords seed.natAbs).toArray firstWords
  ⟨(mixPlaces words i).setIfInBounds 0 0x80000000, size⟩

/-- Each word in turn is replaced, from its successor and the word 397 places on. -/
private def renew (words : Array UInt32) : Array UInt32 :=
  (List.range size).foldl
    (fun words i =>
      let y := (word words i &&& 0x80000000) ||| (word words ((i + 1) % size) &&& 0x7fffffff)
      let twist : UInt32 := if y &&& 1 = 1 then 0x9908b0df else 0
      words.setIfInBounds i (word words ((i + 397) % size) ^^^ (y >>> 1) ^^^ twist))
    words

private def temper (y : UInt32) : UInt32 :=
  let y := y ^^^ (y >>> 11)
  let y := y ^^^ ((y <<< 7) &&& 0x9d2c5680)
  let y := y ^^^ ((y <<< 15) &&& 0xefc60000)
  y ^^^ (y >>> 18)

def next (g : Twister) : UInt32 × Twister :=
  if g.position < size then (temper (word g.words g.position), ⟨g.words, g.position + 1⟩)
  else
    let words := renew g.words
    (temper (word words 0), ⟨words, 1⟩)

/-- A number of 53 random bits. -/
def bits53 (g : Twister) : Nat × Twister :=
  let (high, g) := g.next
  let (low, g) := g.next
  ((high >>> 5).toNat * twoTo 26 + (low >>> 6).toNat, g)

/-- A number from 0 up to 1, a multiple of `2 ^ -53`. -/
def unit {α : Type} [Scalar α] (g : Twister) : α × Twister :=
  let (n, g) := g.bits53
  (Scalar.ofNat n / 9007199254740992, g)

end Twister

end Flowchart
