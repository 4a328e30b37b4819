import BlindArena.CommandLine.Run

/-!
# The command

Makes the directory of the journal, reads the arguments and the settings file, draws a random word,
and prints what the rollout wrote.
-/

namespace BlindArena.CommandLine

def madeDirectory (path : String) : IO Bool := do
  try
    IO.FS.createDirAll path
    return true
  catch _ => return false

def readContents (path : String) : IO (Option ByteArray) := do
  try
    let contents ← IO.FS.readBinFile path
    return some contents
  catch _ => return none

def command (words : List String) : IO Command := do
  if ← madeDirectory journalDirectory then
    match Arguments.parse words with
    | none => return badArguments
    | some args =>
      let contents ← match args.config with
        | some path => readContents path
        | none => pure none
      let word ← IO.rand 0 (UInt64.size - 1)
      let command := run args contents (UInt64.ofNat word)
      IO.FS.writeFile (journalDirectory ++ "/rollout.log") command.journal
      return command
  else return withoutJournal

end BlindArena.CommandLine

def main (words : List String) : IO UInt32 := do
  let command ← BlindArena.CommandLine.command words
  IO.print command.out
  IO.eprint command.err
  return UInt32.ofNat command.code
