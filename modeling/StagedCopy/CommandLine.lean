import StagedCopy.Breakdown
import StagedCopy.Config.File
import StagedCopy.Copy.Outcome
import StagedCopy.Event.Hub
import StagedCopy.Local
import StagedCopy.VirtualClock

/-!
# The command line

`<source> <target> [config.json]` copies one file on a disk, with the settings of the
configuration. Relative paths are read from the current directory. The exit code is 2 when the
request itself is at fault: too few paths, a configuration that cannot be read, or a source that is
a directory; it is 1 when the source cannot be looked at or the copy fails, and 0 otherwise, also
when the file was skipped as the configuration allows. A run with an empty source or target, with a
directory for a configuration, or with a buffer that cannot be had, breaks down and has no exit
code; what a breakdown leaves on the disk is not told.

* `Platform` — what a run relies on that is not its own.
* `CommandLine.Surroundings`, `CommandLine.handler` — the answers to the requests of the copy.
* `CommandLine.run` — the whole run, from a disk to the exit code, the log and the disk after it.
-/

namespace StagedCopy

/-- What a run relies on that is not its own: a library for JSON, the names by which the log knows
the events of each channel, and the memory that there is for buffers. -/
structure Platform where
  json : JsonLibrary
  eventName : Channel → Bytes
  allocator : Allocator

namespace CommandLine

/-! ## What the copy talks to -/

/-- The disk with its streams, the clock, the hub with a log and statistics attached, and the log
lines at or above the threshold of their time. -/
structure Surroundings where
  system : LocalSystem
  clock : VirtualClock := {}
  hub : Hub
  threshold : Log.Level := .info
  shown : Array Log.Line := #[]

namespace Surroundings

/-- More log lines. -/
def addLines (lines : List Log.Line) (s : Surroundings) : Surroundings :=
  { s with shown := s.shown ++ (Log.shown s.threshold lines).toArray }

/-- What a task heard of the hub, whose log lines are among the others. -/
def afterHearing (heard : Hub.Hearing × Hub) (s : Surroundings) :
    Except Bytes Unit × Surroundings :=
  (heard.1.result, { s with hub := heard.2 }.addLines heard.1.lines)

end Surroundings

/-- The settings of the only store. -/
def settings : LocalSettings := {}

/-- The answers to the requests of a copy whose source and target are on one disk. -/
def handler (attempt : Bytes) : Program.Handler Surroundings
  | .storage _ call, s =>
    let (answer, system) := settings.perform call s.system
    (answer, { s with system := system }.addLines (LocalSettings.announce call))
  | .setStatus text, s => s.afterHearing (s.hub.tellStatus attempt text)
  | .increment counter value, s => s.afterHearing (s.hub.tellIncrement attempt counter value)
  | .now, s => (s.clock.now, s)
  | .sleep nanoseconds, s => ((), { s with clock := s.clock.sleep nanoseconds })
  | .log line, s => ((), s.addLines [line])

/-! ## A run -/

/-- The attempt id of the process with the given number, started at the given time. -/
def attemptId (process time : Nat) : Bytes :=
  utf8 "attempt_" ++ decimal process ++ utf8 "_" ++ decimal time

/-- A path read from the current directory of a disk. -/
def absolute (disk : Disk) (path : Path) : Path := Path.resolveIn disk.current.text path

/-- The absolute spelling of an argument; an empty one has none. -/
def absolute? (disk : Disk) (path : Path) : Except Breakdown Path :=
  if path.isEmpty then .error .emptyPath else .ok (absolute disk path)

/-- How a run ended: the exit code, the log lines that were shown, the nanoseconds it waited, and
the disk. -/
structure Ending where
  code : Nat
  shown : List Log.Line
  waited : Nat
  disk : Disk

/-- The end of a run. -/
def finish (code : Nat) (s : Surroundings) : Ending :=
  ⟨code, s.shown.toList, s.clock.now, s.system.disk⟩

/-- The end of a run with a last word. -/
def finishWith (code : Nat) (level : Log.Level) (text : Bytes) (s : Surroundings) : Ending :=
  finish code (s.addLines [⟨level, text⟩])

/-- The configuration of a run: the defaults when none is given. -/
def configuration (library : JsonLibrary) (disk : Disk) :
    Option Path → Except Breakdown (Except ConfigError Config)
  | none => .ok (.ok {})
  | some path => Config.load library disk path

/-- The job of a run. -/
def job (allocator : Allocator) (attempt : Bytes) (source : FileStatus) (target : Path)
    (config : Config) : CopyJob where
  source := source
  target := target
  attributes := config.preserve
  options := config.options
  attemptId := attempt
  defaults := settings.layout
  allocator := allocator

/-- More reads than the file at a path takes. -/
def readBound (system : LocalSystem) (path : Path) : Nat :=
  ((system.get path).toOption.getD []).length + 1

/-- The copy of a source that was looked at, and the end of the run. -/
def copyFile (attempt : Bytes) (source : FileStatus) (target : Path) (config : Config)
    (s : Surroundings) : Except Breakdown Ending :=
  let (outcome, s) :=
    (copyWithRetries (readBound s.system source.path)
      (job s.system.allocator attempt source target config) config.retry
      config.skipReadFailures).run (handler attempt) s
  let s := s.addLines ((s.hub.statistics.map Statistics.report).getD [])
  match outcome with
  | .broken trouble => .error trouble
  | .unfinished => .ok (finish 1 s)
  | .done (.error e) => .ok (finishWith 1 .error (utf8 "Copy failed: " ++ e.describe) s)
  | .done (.ok ⟨.skipped, _, attempts⟩) =>
    .ok (finishWith 0 .warn (utf8 "Skipped " ++ source.path ++ utf8 " after " ++ decimal attempts
      ++ utf8 " attempt(s)") s)
  | .done (.ok ⟨.copied, bytes, attempts⟩) =>
    .ok (finishWith 0 .info (utf8 "Copied " ++ decimal bytes ++ utf8 " bytes to " ++ target
      ++ utf8 " in " ++ decimal attempts ++ utf8 " attempt(s)") s)

/-- A run with a source and a target, when the configuration is known. -/
def runConfigured (attempt : Bytes) (source target : Path) (config : Config)
    (s : Surroundings) : Except Breakdown Ending :=
  match s.system.status settings source with
  | .error e => .ok (finishWith 1 .error (utf8 "Cannot stat source: " ++ e.message) s)
  | .ok found =>
    if found.isDirectory then
      .ok (finishWith 2 .error (utf8 "Source " ++ source
        ++ utf8 " is a directory; only single files are copied") s)
    else copyFile attempt found target config s

/-- The paths whose surroundings a run can touch, read from the current directory: source, target
and staging directory. -/
def touched (library : JsonLibrary) (disk : Disk) (arguments : List Bytes) : List Path :=
  match arguments with
  | source :: target :: more =>
    let workPath :=
      match configuration library disk more.head? with
      | .ok (.ok config) => config.options.workPath
      | _ => []
    [source, target, workPath].map (absolute disk)
  | _ => []

/-- The surroundings in which a run begins. -/
def surroundings (platform : Platform) (disk : Disk) : Surroundings where
  system := { disk := disk, allocator := platform.allocator }
  hub := Hub.observed platform.eventName

/-- A whole run: the name of the program, its arguments, the attempt id, and the disk. -/
def run (platform : Platform) (program : Bytes) (arguments : List Bytes) (attempt : Bytes)
    (disk : Disk) : Except Breakdown Ending :=
  let start := surroundings platform disk
  match arguments with
  | source :: target :: more => do
    let source ← absolute? disk source
    let target ← absolute? disk target
    let introduced := start.addLines (more.head?.toList.map Config.loadLine)
    match ← configuration platform.json disk more.head? with
    | .error e => .ok (finishWith 2 .error (e.message platform.json) introduced)
    | .ok config =>
      runConfigured attempt source target config { introduced with threshold := config.logLevel }
  | _ =>
    .ok (finishWith 2 .error
      (utf8 "Usage: " ++ program ++ utf8 " <source> <target> [config.json]") start)

end CommandLine

end StagedCopy
