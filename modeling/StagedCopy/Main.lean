import StagedCopy.CommandLine
import StagedCopy.Disk.Change
import StagedCopy.Json.Reader

/-!
# The program

The shell around `CommandLine.run`. It takes a picture of the part of the real disk that a run can
touch, runs on the picture, waits as long as the run waited, makes the changes of the run on the
real disk, and prints the log. A run that breaks down changes nothing.
-/

namespace StagedCopy

namespace Shell

/-! ## The platform -/

/-- The name by which a type is known in an object file: the parts of its name, each after its
length. -/
def mangled (parts : List Bytes) : Bytes :=
  utf8 "N" ++ parts.flatMap (fun part => decimal part.length ++ part) ++ utf8 "E"

/-- The type of the events of a channel. -/
def eventType : Channel → Bytes
  | .status => utf8 "CopyStatusEvent"
  | .counter => utf8 "CounterIncrementedEvent"

/-- The platform of the program, on which memory is not counted. -/
def platform : Platform where
  json := Json.library
  eventName channel := mangled [utf8 "dcp", utf8 "events", eventType channel]
  allocator _ _ := true

/-! ## Names -/

/-- Bytes as a string. -/
def string (bytes : Bytes) : String := (String.fromUTF8? ⟨bytes.toArray⟩).getD "?"

/-- The spelling of a key on the real disk. -/
def spelling (k : Key) : String := string k.text

/-! ## The picture of the disk -/

/-- What stands at a key of the real disk comes into the picture. -/
def look (disk : Disk) (k : Key) : IO Disk := do
  if (disk.get? k).isSome then return disk
  let place := (← IO.currentDir) / spelling k
  if ← place.isDir then
    return { disk with tree := disk.tree.insert k .directory }
  try
    let content ← IO.FS.readBinFile place
    return { disk with
      tree := disk.tree.insert k (.file (.regular disk.contents.size))
      contents := disk.contents.push content.data.toList }
  catch _ => return disk

/-- What a path leads through comes into the picture. -/
def lookAlong (disk : Disk) (path : Path) : IO Disk := path.waypoints.foldlM look disk

/-- When a directory stands at a key, its entries come into the picture, so that it is not taken
for an empty one; what they are does not matter. -/
def lookInside (disk : Disk) (k : Key) : IO Disk := do
  if disk.get? k != some .directory then return disk
  try
    let entries ← ((← IO.currentDir) / spelling k).readDir
    let places := entries.toList.map fun entry => k ++ [utf8 entry.fileName]
    return { disk with tree := disk.tree.addDirectories places }
  catch _ => return disk

/-- The picture of all that a run with the given arguments can touch. -/
def picture (arguments : List Bytes) : IO Disk := do
  let current : Key := Path.key (utf8 (← IO.currentDir).toString)
  let start ← lookAlong { current := current } current.text
  let withConfig ← (arguments.drop 2).head?.toList.foldlM
    (fun disk path => lookAlong disk (CommandLine.absolute disk path)) start
  let touched := CommandLine.touched platform.json withConfig arguments
  let disk ← touched.foldlM lookAlong withConfig
  (touched.drop 1).head?.toList.foldlM (fun disk target => lookInside disk (Path.key target)) disk

/-! ## The changes -/

/-- A change is made on the real disk. -/
def make : Disk.Change → IO Unit
  | .removeFile k => IO.FS.removeFile (spelling k)
  | .removeDirectory k => IO.FS.removeDir (spelling k)
  | .makeDirectory k => IO.FS.createDir (spelling k)
  | .writeFile k content => IO.FS.writeBinFile (spelling k) ⟨content.toArray⟩

/-! ## The run -/

/-- The name of the program in its messages. -/
def programName : Bytes := utf8 "staged-copy"

/-- The number of this process, as far as the system tells. -/
def processNumber : IO Nat := do
  try
    let line ← IO.FS.readFile "/proc/self/stat"
    return ((line.takeWhile Char.isDigit).toString.toNat?).getD 0
  catch _ => return 0

/-- A log line as it is printed. -/
def printed (line : Log.Line) : ByteArray :=
  ⟨(utf8 "[" ++ line.level.name ++ utf8 "] " ++ line.text ++ [10]).toArray⟩

/-- The end of a run is made real; its exit code. -/
def conclude (before : Disk) (ending : CommandLine.Ending) : IO Nat := do
  IO.sleep (UInt32.ofNat (ending.waited / 1000000))
  for change in Disk.changes before ending.disk do
    make change
  let output ← IO.getStdout
  for line in ending.shown do
    output.write (printed line)
  return ending.code

/-- The exit code of a run that broke down. -/
def brokenCode : Nat := 134

/-- A whole run on the real disk; its exit code. -/
def run (arguments : List Bytes) : IO Nat := do
  let before ← picture arguments
  let attempt := CommandLine.attemptId (← processNumber) (← IO.monoNanosNow)
  match CommandLine.run platform programName arguments attempt before with
  | .ok ending => conclude before ending
  | .error trouble =>
    IO.eprintln (string trouble.message)
    return brokenCode

end Shell

end StagedCopy

/-- Copies one file as the arguments say. -/
def main (arguments : List String) : IO UInt32 := do
  let code ← StagedCopy.Shell.run (arguments.map StagedCopy.utf8)
  return UInt32.ofNat code
