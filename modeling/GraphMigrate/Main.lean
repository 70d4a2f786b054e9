/-
The program.

It copies the part of the file system that a run looks at into a tree,
lets the run work on it, and writes back the files that have changed.
-/
import GraphMigrate.CommandLine.Session

namespace GraphMigrate.CommandLine

/-- Copies a file. -/
def copyFile (path : String) : IO Entry := do
  let bytes ← IO.FS.readBinFile path
  let writable ←
    try
      let _ ← IO.FS.Handle.mk path .readWrite
      pure true
    catch _ => pure false
  return .file { text := String.fromUTF8? bytes, writable }

/-- Copies what stands at a path, if it is there.  Of a directory, the
files are read that are wanted. -/
partial def copyEntry (wanted : String → Bool) (path : String) : IO (Option Entry) := do
  let place := (← IO.currentDir) / path
  if ← place.isDir then
    let mut entries := #[]
    for found in ← place.readDir do
      let below := Path.join path found.fileName
      if ← found.path.isDir then
        if Entry.isSkippedName found.fileName then
          entries := entries.push (found.fileName, Entry.directory [])
        else if let some entry ← copyEntry wanted below then
          entries := entries.push (found.fileName, entry)
      else if wanted below then
        try entries := entries.push (found.fileName, ← copyFile below)
        catch _ => entries := entries.push (found.fileName, .file { text := none })
    return some (.directory entries.toList)
  else if ← place.pathExists then
    try return some (← copyFile path)
    catch _ => return some (.file { text := none })
  else return none

/-- Puts a directory into a tree at a place where nothing stands. -/
def putDirectory (disk : Disk) (place : List String) : Disk :=
  if (disk.at? place).isSome then disk
  else { disk with root := Entry.put (.directory []) place disk.root }

/-- Copies what a path leads to into a tree, together with the
directories that it passes through. -/
def copyPath (wanted : String → Bool) (disk : Disk) (path : String) : IO Disk := do
  if path == "" then return disk
  let mut place := if Path.isAbsolute path then [] else disk.cwd
  let mut copy := disk
  for part in (Path.parts path.toList).map String.ofList do
    if ← ((← IO.currentDir) / Disk.absolute place).isDir then copy := putDirectory copy place
    if part == ".." then place := place.dropLast
    else if part != "" && part != "." then place := place ++ [part]
  match ← copyEntry wanted path with
  | some entry => return { copy with root := Entry.put entry place copy.root }
  | none => return copy

/-- Copies those of some paths that are no directories. -/
def copyFiles (disk : Disk) (paths : List String) : IO Disk :=
  paths.foldlM (fun (disk : Disk) (path : String) => do
    if ← ((← IO.currentDir) / path).isDir then return disk
    else copyPath (fun _ => true) disk path) disk

/-- Copies what a request looks at.  Files that it names come last, since
of directories not everything is copied. -/
def copyDisk (surroundings : Surroundings) (cwd : List String) (request : Request) : IO Disk := do
  let given := request.given
  let settings := (settingsPlaces cwd).map Disk.absolute ++ given.config.toList
  let disk ← copyFiles (putDirectory { cwd } cwd) settings
  match request.command, Workspace.ofGiven disk given with
  | .migrate _, .ok workspace =>
    let paths := Workspace.startingPaths given.paths
    let schema := workspace.schemaPath surroundings.schemaPath given.schema
    let disk ← paths.foldlM (copyPath workspace.settings.isSupported) disk
    copyFiles disk (paths ++ settings ++ [schema])
  | _, _ => return disk

/-- What the program sees besides its arguments and files. -/
def surroundings : IO Surroundings := do
  return {
    schemaPath := ← IO.getEnv "SCHEMA_PATH"
    noColor := ← IO.getEnv "NO_COLOR"
    forceColor := ← IO.getEnv "CLICOLOR_FORCE"
    terminal := ← (← IO.getStdout).isTty }

/-- Runs the program. -/
def execute (arguments : List String) : IO UInt32 := do
  let seen ← surroundings
  let here := (← IO.currentDir).toString
  let cwd := ((Path.parts here.toList).filter Path.isNamed).map String.ofList
  let disk ←
    match Invocation.parse arguments with
    | .run request => copyDisk seen cwd request
    | _ => pure { cwd }
  let ending := run seen disk arguments
  for path in ending.written do
    if let some text := ending.disk.read? path then IO.FS.writeFile path text
  for line in ending.output do IO.println line
  for line in ending.errors do IO.eprintln line
  return ending.status.code.toUInt32

end GraphMigrate.CommandLine

/-- The entry point of the program. -/
def main (arguments : List String) : IO UInt32 := GraphMigrate.CommandLine.execute arguments
