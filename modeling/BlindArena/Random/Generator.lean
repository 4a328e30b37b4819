/-!
# The random generator

Four words of state, stepped by shifts, rotations and exclusive or, with a sum of the first and the
last word scrambled into each output. A seed is spread over the state by four rounds of a mixer.
-/

namespace BlindArena

structure Generator where
  a : UInt64
  b : UInt64
  c : UInt64
  d : UInt64
  deriving DecidableEq

namespace Generator

/-- The counter that seeds one word, and the word. -/
def mix (counter : UInt64) : UInt64 × UInt64 :=
  let counter := counter + 0x9e3779b97f4a7c15
  let z := (counter ^^^ (counter >>> 30)) * 0xbf58476d1ce4e5b9
  let z := (z ^^^ (z >>> 27)) * 0x94d049bb133111eb
  (counter, z ^^^ (z >>> 31))

def seeded (seed : UInt64) : Generator :=
  let (counter, a) := mix seed
  let (counter, b) := mix counter
  let (counter, c) := mix counter
  let (_, d) := mix counter
  ⟨a, b, c, d⟩

def rotate (word : UInt64) (count : UInt64) : UInt64 :=
  (word <<< count) ||| (word >>> (64 - count))

def output (g : Generator) : UInt64 := rotate (g.a + g.d) 23 + g.a

def advance (g : Generator) : Generator :=
  let c := g.c ^^^ g.a
  let d := g.d ^^^ g.b
  { a := g.a ^^^ d
    b := g.b ^^^ c
    c := c ^^^ (g.b <<< 17)
    d := rotate d 45 }

def word64 (g : Generator) : Nat × Generator := (g.output.toNat, g.advance)

/-- The upper half of a word. -/
def word32 (g : Generator) : Nat × Generator := (g.output.toNat / UInt32.size, g.advance)

theorem word64_lt (g : Generator) : g.word64.1 < UInt64.size := g.output.toNat_lt_size

theorem word32_lt (g : Generator) : g.word32.1 < UInt32.size := by
  have := g.output.toNat_lt_size
  simp only [word32, UInt32.size, UInt64.size] at *
  omega

end Generator

end BlindArena
