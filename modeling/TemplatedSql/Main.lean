import TemplatedSql.CommandLine.Run

/-!
# The program

Reads the working directory, the variables of the process and the arguments, and prints what the run
says.
-/

namespace TemplatedSql

/-- The files below a directory. Links are not followed. -/
partial def readTree (directory : IO.FS.DirEntry) : IO (Option FileTree) := do
  match (← directory.path.symlinkMetadata).type with
  | .dir => return some (.directory (← readEntries (← directory.path.readDir)))
  | .file => return some (.file (String.fromUTF8? (← IO.FS.readBinFile directory.path)))
  | _ => return none
where
  readEntries (entries : Array IO.FS.DirEntry) : IO (List (String × FileTree)) := do
    let read ← entries.mapM fun e => return (← readTree e).map (e.fileName, ·)
    return read.toList.filterMap id

/-- The variables of the process, as the system lists them: each ended by a null character. -/
def readVariables : IO (Table String) := do
  let listed ←
    try IO.FS.readBinFile "/proc/self/environ"
    catch _ => return []
  let lines := Text.split ['\x00'] ((String.fromUTF8? listed).getD "").toList
  return lines.filterMap fun cs =>
    let name := cs.takeWhile (· != '=')
    if name.isEmpty then none else some (.ofList name, .ofList (cs.drop (name.length + 1)))

end TemplatedSql

/-- Runs the command in the working directory. -/
def main (arguments : List String) : IO UInt32 := do
  let directory ← IO.currentDir
  let entries ← TemplatedSql.readTree.readEntries (← directory.readDir)
  let report :=
    TemplatedSql.CommandLine.run
      { here := ⟨⟨directory.toString⟩, .directory entries⟩
        processVariables := ← TemplatedSql.readVariables
        machineThreads := 1 }
      arguments
  IO.print report.stdout
  IO.eprint report.stderr
  return UInt32.ofNat report.exit
