import BlindArena.Terminal.Console

/-!
# Guards of silence

Output is silenced while any guard is alive. Guards are numbered in the order they are acquired and
may be dropped in any order; dropping one that is not alive does nothing.
-/

namespace BlindArena

structure Silence where
  console : Console := {}
  live : List Nat := []
  next : Nat := 0

namespace Silence

def engaged (s : Silence) : Bool := 0 < s.console.depth

def acquire (s : Silence) : Silence where
  console := s.console.acquire
  live := s.next :: s.live
  next := s.next + 1

def drop (s : Silence) (guard : Nat) : Silence :=
  if guard ∈ s.live then
    { s with console := s.console.release, live := s.live.erase guard }
  else s

def write (s : Silence) (channel : Channel) (text : String) : Silence :=
  { s with console := s.console.write channel text }

def flush (s : Silence) : Silence := { s with console := s.console.flush }

/-- Work under a guard of its own that writes and then fails; the guard goes with it. -/
def interrupted (s : Silence) (text : String) : Silence :=
  { s with console := (s.console.acquire.write .out text).release }

end Silence

end BlindArena
