/-!
# Descriptors

A process writes to two channels and knows their devices by descriptors, the places of a table. A
new descriptor takes the lowest free place. Every opening and closing is on record.
-/

namespace BlindArena

/-- The two standard output channels. -/
inductive Channel where
  | out | err
  deriving DecidableEq

/-- The descriptor a channel writes to. -/
def Channel.descriptor : Channel → Nat
  | out => 1
  | err => 2

structure Output where
  channel : Channel
  text : String
  deriving DecidableEq

def Output.line (text : String) : Output := ⟨.out, text ++ "\n"⟩

/-- What a descriptor stands for; what is written to the sink is lost. -/
inductive Device where
  | input
  | terminal (channel : Channel)
  | sink
  deriving DecidableEq

inductive Traffic where
  | opened (descriptor : Nat)
  | closed (descriptor : Nat)
  deriving DecidableEq

structure Descriptors where
  slots : List (Option Device)
  /-- Openings and closings, latest first. -/
  traffic : List Traffic
  deriving DecidableEq

namespace Descriptors

/-- The table a process starts with. -/
def standard : Descriptors where
  slots := [some .input, some (.terminal .out), some (.terminal .err)]
  traffic := []

def device? (table : Descriptors) (descriptor : Nat) : Option Device :=
  table.slots[descriptor]?.join

def lowestFree (table : Descriptors) : Nat := table.slots.findIdx (·.isNone)

/-- A place holds a device from now on; the place behind the last is added to the table. -/
def assign (slots : List (Option Device)) (descriptor : Nat) (device : Option Device) :
    List (Option Device) :=
  if descriptor < slots.length then slots.set descriptor device else slots ++ [device]

def openDevice (table : Descriptors) (device : Option Device) : Descriptors × Nat :=
  (⟨assign table.slots table.lowestFree device, .opened table.lowestFree :: table.traffic⟩,
    table.lowestFree)

/-- A second descriptor for the same device. -/
def duplicate (table : Descriptors) (descriptor : Nat) : Descriptors × Nat :=
  table.openDevice (table.device? descriptor)

/-- A descriptor stands for the device of another from now on. -/
def redirect (table : Descriptors) (source descriptor : Nat) : Descriptors where
  slots := assign table.slots descriptor (table.device? source)
  traffic := table.traffic

def close (table : Descriptors) (descriptor : Nat) : Descriptors where
  slots := assign table.slots descriptor none
  traffic := .closed descriptor :: table.traffic

end Descriptors

end BlindArena
