import Winnow.Cli.Run

/-!
# The program

Reads what a command line needs from the disk, runs it, and prints its outcome. Only the file that
defines the collections and the directories of the collections are read; a link is followed as far
as it leads into these.
-/

namespace Winnow

open Files

/-- What a directory has under a name; there is nothing to read from devices. -/
partial def readEntry (e : IO.FS.DirEntry) : IO (Option Entry) := do
  match (← e.path.symlinkMetadata).type with
  | .file => return some (.file (← IO.FS.readBinFile e.path).toList)
  | .symlink =>
    let target ← try some <$> IO.FS.realPath e.path catch _ => pure none
    return target.map fun t => .link t.toString
  | .other => return none
  | .dir =>
    let mut entries := []
    for inner in ← e.path.readDir do
      if let some entry ← readEntry inner then entries := (inner.fileName, entry) :: entries
    return some (.dir entries.reverse)

/-- Adds an entry where nothing is known yet. -/
def Files.Disk.learn (disk : Disk) (e : Entry) (names : List String) : Disk :=
  if ((Entry.dir disk.root).at? names).isSome then disk
  else { disk with root := put e names disk.root }

/-- Adds the directories and links that a path leads through, and all that it leads to. A path that
leads nowhere adds nothing. -/
def Files.Disk.look (disk : Disk) (path : String) : IO Disk := do
  try
    let mut known := disk
    let mut here : Path := ⟨true, []⟩
    for name in (Path.ofText (disk.absolute path)).names do
      if name = ".." then here := here.parent
      else
        let step := here.join ⟨false, [name]⟩
        here := Path.ofText (← IO.FS.realPath step.text).toString
        known := known.learn (if here = step then .dir [] else .link here.text) step.names
    let some entry ← readEntry ⟨here.parent.text, here.names.getLastD "."⟩ | return disk
    return { known with root := put entry here.names known.root }
  catch _ => return disk

/-- What a command line needs from the disk. -/
def survey (line : List String) : IO Disk := do
  let current := (← IO.currentDir).toString
  let disk := Disk.learn ⟨[], current⟩ (.dir []) (Path.ofText current).names
  let .ok invocation := Cli.Invocation.read line | return disk
  let some path := invocation.command.catalog? | return disk
  let disk ← disk.look path
  match Catalog.load disk path with
  | .error _ => return disk
  | .ok catalog => catalog.collections.foldlM (fun disk c => disk.look c.root) disk

/-- What is said about a line that is not run. -/
def usage : String := "usage: winnow (match PATTERN ID | build PATTERN [KEY=VALUE ...] | " ++
  "list | query NAME) [OPTION ...]"

/-- Runs a command line and shows its outcome: messages and what stopped it go to the error
stream. -/
def runLine (line : List String) : IO UInt32 := do
  let outcome := Cli.run (← survey line) line
  for m in outcome.log do
    IO.eprintln (m.level.name ++ ": " ++ m.text)
  IO.print outcome.output
  match outcome.ending with
  | .exit _ => pure ()
  | .refused .help => IO.println usage
  | .refused .usage => IO.eprintln usage
  | .escaped e => IO.eprintln e.text
  return UInt32.ofNat outcome.ending.code

end Winnow

def main (line : List String) : IO UInt32 := Winnow.runLine line
