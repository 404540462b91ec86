import StagedCopy.Attributes
import StagedCopy.CopyOptions
import StagedCopy.Json
import StagedCopy.Log
import StagedCopy.Retry.Policy
import StagedCopy.Size

/-!
# Configuration

A configuration is a JSON object whose members are all optional:

* `bandwidth`, `buffer_size` — an integer, or a size such as `10MB`;
* `work_path`, `checksum` (`verify` or `skip`), `preserve` (letters), `skip_read_failures`,
  `log_level`;
* `retry` — an object with `max_attempts`, `initial_delay_ms`, `backoff_multiplier` and
  `max_delay_ms`.

Members are read in this order, whatever their order in the document, and the first that is
refused decides the error. Other members are ignored.

* `Config.ofJson` — the configuration that a document gives.
* `Config.ofText` — the same from the text of a file.
* `ConfigError.message` — the wording of every refusal.
-/

namespace StagedCopy

/-- Everything that a copy needs besides its stores and its task. -/
structure Config where
  options : CopyOptions := {}
  retry : RetryPolicy := {}
  preserve : Attributes := {}
  skipReadFailures : Bool := false
  logLevel : Log.Level := .info

/-- Why a configuration is refused. -/
inductive ConfigError where
  | notAnObject
  | wrongType (wanted : Json.Kind) (found : Json)
  | sizeTooLarge (key : Bytes)
  | sizeTextTooLarge (key text : Bytes)
  | badSize (key text : Bytes)
  | notASize (key : Bytes)
  | bufferSizeNotPositive
  | unknownChecksumMode (mode : Bytes)
  | unknownAttribute (letter : UInt8)
  | unknownLogLevel (name : Bytes)
  | retryNotAnObject
  | tooFewAttempts
  | badBackoff
  | cannotOpen (path : Path)
  | malformed (path : Path)

/-- The wording of a refusal; for a value of the wrong kind it is left to a library. -/
def ConfigError.message (library : JsonLibrary) : ConfigError → Bytes
  | notAnObject => utf8 "Configuration must be a JSON object"
  | wrongType wanted found => utf8 "Invalid configuration: " ++ library.mismatch wanted found
  | sizeTooLarge key => utf8 "Size out of range for '" ++ key ++ utf8 "'"
  | sizeTextTooLarge key text => utf8 "Size out of range for '" ++ key ++ utf8 "': " ++ text
  | badSize key text => utf8 "Invalid size for '" ++ key ++ utf8 "': " ++ text
  | notASize key => utf8 "Expected a number or size string for '" ++ key ++ utf8 "'"
  | bufferSizeNotPositive => utf8 "buffer_size must be positive"
  | unknownChecksumMode mode => utf8 "Unknown checksum mode: " ++ mode
  | unknownAttribute letter => Attributes.unknownLetter letter
  | unknownLogLevel name => utf8 "Unknown log level: " ++ name
  | retryNotAnObject => utf8 "'retry' must be an object"
  | tooFewAttempts => utf8 "retry.max_attempts must be at least 1"
  | badBackoff => utf8 "retry delays must be >= 0 and backoff_multiplier >= 1"
  | cannotOpen path => utf8 "Failed to open config file: " ++ path
  | malformed path => utf8 "Malformed JSON in config file: " ++ path

namespace Config

/-! ## Single members -/

/-- The members of a JSON object, as they are looked up here. -/
abbrev Members := List (Bytes × Json)

/-- What a member gives: the default when it is absent, what its reading says otherwise. -/
def readMember {α : Type} (members : Members) (key : String) (default : α)
    (reading : Json → Except ConfigError α) : Except ConfigError α :=
  match Json.member? members (utf8 key) with
  | none => .ok default
  | some value => reading value

/-- A reading that refuses the wrong kind of value. -/
def typed {α : Type} (wanted : Json.Kind) (reading : Json → Option α) (value : Json) :
    Except ConfigError α :=
  match reading value with
  | some a => .ok a
  | none => .error (.wrongType wanted value)

/-- The largest signed 64-bit integer. -/
def maxInt64 : Nat := 0x7fffffffffffffff

/-- A number of bytes: an integer of 64 bits, or a size written as text. -/
def readSize (key : Bytes) : Json → Except ConfigError Int
  | .unsigned n => if maxInt64 < n then .error (.sizeTooLarge key) else .ok n
  | .signed n => .ok n
  | .string text =>
    match Size.parse text with
    | some n => if maxInt64 < n then .error (.sizeTextTooLarge key text) else .ok n
    | none => .error (.badSize key text)
  | _ => .error (.notASize key)

/-- A number of bytes that is at least one. -/
def readBufferSize (value : Json) : Except ConfigError Nat := do
  let n ← readSize (utf8 "buffer_size") value
  if n ≤ 0 then .error .bufferSizeNotPositive else .ok n.toNat

/-- Whether to compare checksums, by a name in any letter case. -/
def readVerification (value : Json) : Except ConfigError Verification := do
  let text ← typed .string Json.toBytes? value
  let mode := lower text
  if mode = utf8 "verify" then .ok .verify
  else if mode = utf8 "skip" then .ok .skip
  else .error (.unknownChecksumMode mode)

/-- The attributes to preserve, by their letters. -/
def readPreserve (value : Json) : Except ConfigError Attributes := do
  let letters ← typed .string Json.toBytes? value
  match Attributes.parse letters with
  | .ok set => .ok set
  | .error letter => .error (.unknownAttribute letter)

/-- The log threshold, by its name. -/
def readLogLevel (value : Json) : Except ConfigError Log.Level := do
  let name ← typed .string Json.toBytes? value
  match Log.Level.ofName? name with
  | some level => .ok level
  | none => .error (.unknownLogLevel name)

/-- The attempt budget, which is at least one; only its low 32 bits are kept. -/
def readAttempts (value : Json) : Except ConfigError Nat := do
  let n ← typed .number Json.toInt64? value
  if n < 1 then .error .tooFewAttempts else .ok (n.toNat % 0x100000000)

/-- The retry policy, whose delays are not negative and whose multiplier is at least one. -/
def readRetry (value : Json) : Except ConfigError RetryPolicy := do
  match value.members? with
  | none => .error .retryNotAnObject
  | some members =>
    let start : RetryPolicy := {}
    let maxAttempts ← readMember members "max_attempts" start.maxAttempts readAttempts
    let initialDelay ← readMember members "initial_delay_ms" start.initialDelay
      (typed .number Json.toInt64?)
    let multiplier ← readMember members "backoff_multiplier" start.multiplier
      (typed .number Json.toDouble?)
    let maxDelay ← readMember members "max_delay_ms" start.maxDelay (typed .number Json.toInt64?)
    if initialDelay < 0 ∨ maxDelay < 0 ∨ multiplier < 1 then .error .badBackoff
    else .ok ⟨maxAttempts, initialDelay, multiplier, maxDelay⟩

/-! ## Documents -/

/-- The configuration that a document gives. -/
def ofJson (document : Json) : Except ConfigError Config := do
  match document.members? with
  | none => .error .notAnObject
  | some members =>
    let start : Config := {}
    let bandwidth ← readMember members "bandwidth" start.options.maxBytesPerSecond
      (readSize (utf8 "bandwidth"))
    let workPath ← readMember members "work_path" start.options.workPath
      (typed .string Json.toBytes?)
    let bufferSize ← readMember members "buffer_size" start.options.bufferSize readBufferSize
    let verification ← readMember members "checksum" start.options.verification readVerification
    let preserve ← readMember members "preserve" start.preserve readPreserve
    let skipReadFailures ← readMember members "skip_read_failures" start.skipReadFailures
      (typed .boolean Json.toBool?)
    let logLevel ← readMember members "log_level" start.logLevel readLogLevel
    let retry ← readMember members "retry" start.retry readRetry
    .ok {
      options := ⟨bandwidth, workPath, bufferSize, verification⟩
      retry, preserve, skipReadFailures, logLevel }

/-- The configuration in a file of the given path and text. -/
def ofText (library : JsonLibrary) (path : Path) (text : Bytes) : Except ConfigError Config :=
  match library.parse text with
  | none => .error (.malformed path)
  | some document => ofJson document

end Config

end StagedCopy
