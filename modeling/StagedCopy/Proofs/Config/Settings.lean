import StagedCopy.Config
import StagedCopy.Proofs.Json.Members

/-!
# The settings of a document

A document has eleven settings: seven members of its own and four under `retry`. Each is read by
itself, so what a setting becomes and whether it is refused depends on the value under its key and
on nothing else in the document. The document is refused when a check fails, and the first check
that fails decides why: those of the settings come in a fixed order, with the one that `retry` is an
object before its settings, and the one of the delays and the multiplier together at the end.

* `Setting`, `Setting.value?`, `Setting.given` — the settings, the value under the key of each, and
  what it becomes.
* `Check`, `Check.refusal?` — the checks in their order, and what each refuses.
* `Config.ofJson_eq` — a document is read by making the checks and taking over the settings.
* `Config.settings_independent` — the theorem.
-/

namespace StagedCopy

open Config (Members)

/-! ## Single members -/

namespace Config

/-- The members of the object under `retry`; none when there is no such object. -/
def retryMembers (document : Json) : Members :=
  ((document.members?.bind fun members => Json.member? members (utf8 "retry")).bind
    Json.members?).getD []

theorem bind_eq_ok_iff {ε α β : Type} {first : Except ε α} {next : α → Except ε β} {b : β} :
    (first >>= next) = .ok b ↔ ∃ a, first = .ok a ∧ next a = .ok b := by
  cases first with
  | error e => simp [bind, Except.bind]
  | ok a => simp [bind, Except.bind]

/-- A member gives the default when it is absent, and what its reading gives otherwise. -/
theorem readMember_eq_ok_iff {α : Type} {members : Members} {key : String} {default a : α}
    {reading : Json → Except ConfigError α} :
    readMember members key default reading = .ok a ↔
      (Json.member? members (utf8 key) = none ∧ default = a) ∨
        ∃ value, Json.member? members (utf8 key) = some value ∧ reading value = .ok a := by
  unfold readMember
  cases Json.member? members (utf8 key) <;> simp

theorem typed_eq_ok_iff {α : Type} {wanted : Json.Kind} {reading : Json → Option α} {value : Json}
    {a : α} : typed wanted reading value = .ok a ↔ reading value = some a := by
  unfold typed
  cases reading value <;> simp

end Config

/-! ## Settings -/

/-- What a document can set. -/
inductive Setting where
  | bandwidth | workPath | bufferSize | checksum | preserve | skipReadFailures | logLevel
  | maxAttempts | initialDelay | multiplier | maxDelay

namespace Setting

/-- The type of a setting. -/
@[reducible]
def Value : Setting → Type
  | bandwidth => Int
  | workPath => Path
  | bufferSize => Nat
  | checksum => Verification
  | preserve => Attributes
  | skipReadFailures => Bool
  | logLevel => Log.Level
  | maxAttempts => Nat
  | initialDelay => Int
  | multiplier => Rat
  | maxDelay => Int

/-- The key that a setting stands under. -/
def key : Setting → String
  | bandwidth => "bandwidth"
  | workPath => "work_path"
  | bufferSize => "buffer_size"
  | checksum => "checksum"
  | preserve => "preserve"
  | skipReadFailures => "skip_read_failures"
  | logLevel => "log_level"
  | maxAttempts => "max_attempts"
  | initialDelay => "initial_delay_ms"
  | multiplier => "backoff_multiplier"
  | maxDelay => "max_delay_ms"

/-- The setting stands under `retry`. -/
def isRetry : Setting → Bool
  | maxAttempts | initialDelay | multiplier | maxDelay => true
  | _ => false

/-- The setting of a configuration. -/
def of (config : Config) : (setting : Setting) → setting.Value
  | bandwidth => config.options.maxBytesPerSecond
  | workPath => config.options.workPath
  | bufferSize => config.options.bufferSize
  | checksum => config.options.verification
  | preserve => config.preserve
  | skipReadFailures => config.skipReadFailures
  | logLevel => config.logLevel
  | maxAttempts => config.retry.maxAttempts
  | initialDelay => config.retry.initialDelay
  | multiplier => config.retry.multiplier
  | maxDelay => config.retry.maxDelay

/-- How the value under the key is read. -/
def reading : (setting : Setting) → Json → Except ConfigError setting.Value
  | bandwidth => Config.readSize (utf8 "bandwidth")
  | workPath => Config.typed .string Json.toBytes?
  | bufferSize => Config.readBufferSize
  | checksum => Config.readVerification
  | preserve => Config.readPreserve
  | skipReadFailures => Config.typed .boolean Json.toBool?
  | logLevel => Config.readLogLevel
  | maxAttempts => Config.readAttempts
  | initialDelay => Config.typed .number Json.toInt64?
  | multiplier => Config.typed .number Json.toDouble?
  | maxDelay => Config.typed .number Json.toInt64?

/-- The members among which the key is looked up. -/
def home (members : Members) (setting : Setting) : Members :=
  if setting.isRetry then Config.retryMembers (.object members) else members

/-- The value under the key. -/
def value? (members : Members) (setting : Setting) : Option Json :=
  Json.member? (setting.home members) (utf8 setting.key)

/-- The setting as it is read: the default when the key is absent. -/
def read (members : Members) (setting : Setting) : Except ConfigError setting.Value :=
  Config.readMember (setting.home members) setting.key (setting.of {}) setting.reading

/-- What the setting becomes, unless it is refused. -/
def given (members : Members) (setting : Setting) : setting.Value :=
  match setting.read members with
  | .ok a => a
  | .error _ => setting.of {}

end Setting

/-! ## Checks -/

/-- Something other than an object stands under `retry`. -/
def retryMisplaced (members : Members) : Bool :=
  (Json.member? members (utf8 "retry")).any fun value => value.members?.isNone

/-- What is checked of a document. -/
inductive Check where
  | setting (setting : Setting)
  | retryIsObject
  | backoffInRange

namespace Check

/-- The checks of the settings under `retry`. -/
def ofRetry : List Check :=
  [retryIsObject, setting .maxAttempts, setting .initialDelay, setting .multiplier,
    setting .maxDelay, backoffInRange]

/-- All checks in the order in which they are made. -/
def all : List Check :=
  [setting .bandwidth, setting .workPath, setting .bufferSize, setting .checksum, setting .preserve,
    setting .skipReadFailures, setting .logLevel] ++ ofRetry

/-- Every setting is checked. -/
theorem setting_mem_all (s : Setting) : setting s ∈ all := by
  cases s <;> simp [all, ofRetry]

/-- Why the check refuses a document, when it does. -/
def refusal? (members : Members) : Check → Option ConfigError
  | setting s =>
    match s.read members with
    | .ok _ => none
    | .error e => some e
  | retryIsObject => if retryMisplaced members then some .retryNotAnObject else none
  | backoffInRange =>
    if Setting.initialDelay.given members < 0 ∨ Setting.maxDelay.given members < 0 ∨
        Setting.multiplier.given members < 1 then
      some .badBackoff
    else none

/-- The refusal of the first of some checks that refuses. -/
def firstRefusal? (members : Members) (checks : List Check) : Option ConfigError :=
  checks.findSome? (refusal? members)

end Check

/-- A refusal, or a value when there is none. -/
def judge {α : Type} (refusal : Option ConfigError) (a : α) : Except ConfigError α :=
  match refusal with
  | some e => .error e
  | none => .ok a

/-- Readings one after another make their checks one after another. -/
theorem judge_bind {α β : Type} {members : Members} {first : Except ConfigError α}
    {next : α → Except ConfigError β} {a : α} {b : β} {checks more : List Check}
    (hfirst : first = judge (Check.firstRefusal? members checks) a)
    (hnext : next a = judge (Check.firstRefusal? members more) b) :
    (first >>= next) = judge (Check.firstRefusal? members (checks ++ more)) b := by
  unfold Check.firstRefusal? at hfirst hnext ⊢
  rw [List.findSome?_append, hfirst]
  cases checks.findSome? (Check.refusal? members) with
  | none => exact hnext
  | some e => rfl

/-- A setting is read by its own check. -/
theorem Setting.read_eq (members : Members) (setting : Setting) :
    setting.read members
      = judge (Check.firstRefusal? members [.setting setting]) (setting.given members) := by
  simp only [Check.firstRefusal?, List.findSome?_cons, List.findSome?_nil, Check.refusal?,
    Setting.given]
  cases setting.read members <;> rfl

theorem judge_setting {β : Type} {members : Members} (setting : Setting)
    {next : setting.Value → Except ConfigError β} {b : β} {more : List Check}
    (hnext : next (setting.given members) = judge (Check.firstRefusal? members more) b) :
    (setting.read members >>= next)
      = judge (Check.firstRefusal? members (.setting setting :: more)) b :=
  judge_bind (setting.read_eq members) hnext

namespace Config

/-- The retry policy that the settings make up. -/
def retryOf (members : Members) : RetryPolicy where
  maxAttempts := Setting.maxAttempts.given members
  initialDelay := Setting.initialDelay.given members
  multiplier := Setting.multiplier.given members
  maxDelay := Setting.maxDelay.given members

/-- The configuration that the settings make up. -/
def configOf (members : Members) : Config where
  options := {
    maxBytesPerSecond := Setting.bandwidth.given members
    workPath := Setting.workPath.given members
    bufferSize := Setting.bufferSize.given members
    verification := Setting.checksum.given members }
  retry := retryOf members
  preserve := Setting.preserve.given members
  skipReadFailures := Setting.skipReadFailures.given members
  logLevel := Setting.logLevel.given members

/-- The combined check of the delays and the multiplier. -/
theorem backoff_eq (members : Members) :
    (if Setting.initialDelay.given members < 0 ∨ Setting.maxDelay.given members < 0 ∨
        Setting.multiplier.given members < 1 then .error .badBackoff
      else .ok (retryOf members))
      = judge (Check.firstRefusal? members [.backoffInRange]) (retryOf members) := by
  simp only [Check.firstRefusal?, List.findSome?_cons, List.findSome?_nil, Check.refusal?]
  split <;> rfl

/-- The object under `retry` is read by the checks of its settings. -/
theorem readRetry_object (members : Members) :
    readRetry (.object (retryMembers (.object members)))
      = judge (Check.firstRefusal? members Check.ofRetry.tail) (retryOf members) :=
  judge_setting .maxAttempts <| judge_setting .initialDelay <| judge_setting .multiplier <|
    judge_setting .maxDelay <| backoff_eq members

/-- The check that an object stands under `retry` comes first, if something stands there at all. -/
theorem firstRefusal?_ofRetry (members : Members) :
    Check.firstRefusal? members Check.ofRetry
      = if retryMisplaced members then some .retryNotAnObject
        else Check.firstRefusal? members Check.ofRetry.tail := by
  simp only [Check.firstRefusal?, Check.ofRetry, List.findSome?_cons, Check.refusal?,
    List.tail_cons]
  split <;> simp_all

/-- What stands under `retry` is read by its own checks. -/
theorem readRetry_eq (members : Members) :
    readMember members "retry" (Config.retry {}) readRetry
      = judge (Check.firstRefusal? members Check.ofRetry) (retryOf members) := by
  rw [firstRefusal?_ofRetry, readMember, retryMisplaced]
  have hobject := readRetry_object members
  rw [retryMembers, Json.members?, Option.bind_some] at hobject
  cases hretry : Json.member? members (utf8 "retry") with
  | none =>
    rw [hretry] at hobject
    exact hobject
  | some value =>
    rw [hretry] at hobject
    cases value with
    | object inner => exact hobject
    | _ => rfl

/-- A document is read by making all checks; when none refuses, its settings are taken over. -/
theorem ofJson_eq (members : Members) :
    ofJson (.object members)
      = judge (Check.firstRefusal? members Check.all) (configOf members) := by
  refine judge_setting .bandwidth <| judge_setting .workPath <| judge_setting .bufferSize <|
    judge_setting .checksum <| judge_setting .preserve <| judge_setting .skipReadFailures <|
    judge_setting .logLevel ?_
  have hend : (Check.firstRefusal? members Check.ofRetry)
      = Check.firstRefusal? members (Check.ofRetry ++ []) := by rw [List.append_nil]
  exact hend ▸ judge_bind (readRetry_eq members) rfl

/-! ## Accepted and refused documents -/

variable {members other : Members} {config : Config} {e : ConfigError}

/-- A document is accepted just when no check refuses it. -/
theorem ofJson_eq_ok_iff : ofJson (.object members) = .ok config ↔
    (∀ check ∈ Check.all, check.refusal? members = none) ∧ configOf members = config := by
  rw [ofJson_eq, ← List.findSome?_eq_none_iff, Check.firstRefusal?]
  cases Check.all.findSome? (Check.refusal? members) <;> simp [judge]

/-- A document is refused for the first check that refuses it. -/
theorem ofJson_eq_error_iff : ofJson (.object members) = .error e ↔
    ∃ before check after, Check.all = before ++ check :: after ∧
      check.refusal? members = some e ∧ ∀ earlier ∈ before, earlier.refusal? members = none := by
  rw [ofJson_eq, ← List.findSome?_eq_some_iff, Check.firstRefusal?]
  cases Check.all.findSome? (Check.refusal? members) <;> simp [judge]

/-- A document is refused just when some check refuses it. -/
theorem exists_error_iff : (∃ e, ofJson (.object members) = .error e) ↔
    ∃ check ∈ Check.all, ∃ e, check.refusal? members = some e := by
  constructor
  · rintro ⟨e, he⟩
    obtain ⟨before, check, after, hall, hrefusal, -⟩ := ofJson_eq_error_iff.1 he
    exact ⟨check, by simp [hall], e, hrefusal⟩
  · rintro ⟨check, hmem, e, hrefusal⟩
    cases hread : ofJson (.object members) with
    | error e => exact ⟨e, rfl⟩
    | ok config =>
      have hnone := (ofJson_eq_ok_iff.1 hread).1 check hmem
      rw [hrefusal] at hnone
      cases hnone

/-- A setting without a value has its default. -/
theorem read_of_absent {setting : Setting} (h : setting.value? members = none) :
    setting.read members = .ok (setting.of {}) := by
  unfold Setting.value? at h
  unfold Setting.read readMember
  rw [h]

/-- A setting with a value is read from it. -/
theorem read_of_value {setting : Setting} {value : Json}
    (h : setting.value? members = some value) : setting.read members = setting.reading value := by
  unfold Setting.value? at h
  unfold Setting.read readMember
  rw [h]

/-- The configuration has the settings that make it up. -/
theorem of_configOf (setting : Setting) (members : Members) :
    setting.of (configOf members) = setting.given members := by
  cases setting <;> rfl

/-- The settings of an accepted document are read from its members. -/
theorem read_of_accepted (h : ofJson (.object members) = .ok config) (setting : Setting) :
    setting.read members = .ok (setting.of config) := by
  obtain ⟨hchecks, rfl⟩ := ofJson_eq_ok_iff.1 h
  have hnone := hchecks _ (Check.setting_mem_all setting)
  rw [of_configOf, setting.read_eq]
  simp [Check.firstRefusal?, hnone, judge]

/-- Only objects are accepted. -/
theorem exists_members_of_accepted {document : Json} (h : ofJson document = .ok config) :
    ∃ members, document = .object members := by
  cases document with
  | object members => exact ⟨members, rfl⟩
  | _ => cases h

/-- An accepted document gives the policy that the members under `retry` give, absent or not. -/
theorem retry_of_accepted {document : Json} (h : ofJson document = .ok config) :
    readMember (retryMembers document) "max_attempts" (RetryPolicy.maxAttempts {}) readAttempts
        = .ok config.retry.maxAttempts ∧
      readMember (retryMembers document) "initial_delay_ms" (RetryPolicy.initialDelay {})
        (typed .number Json.toInt64?) = .ok config.retry.initialDelay ∧
      readMember (retryMembers document) "max_delay_ms" (RetryPolicy.maxDelay {})
        (typed .number Json.toInt64?) = .ok config.retry.maxDelay ∧
      0 ≤ config.retry.initialDelay ∧ 0 ≤ config.retry.maxDelay ∧ 1 ≤ config.retry.multiplier := by
  obtain ⟨members, rfl⟩ := exists_members_of_accepted h
  refine ⟨read_of_accepted h .maxAttempts, read_of_accepted h .initialDelay,
    read_of_accepted h .maxDelay, ?_⟩
  obtain ⟨hchecks, rfl⟩ := ofJson_eq_ok_iff.1 h
  have hrange := hchecks .backoffInRange (by simp [Check.all, Check.ofRetry])
  simpa [Check.refusal?, configOf, retryOf, Rat.not_lt] using hrange

/-! ## Documents with the same settings -/

/-- The documents have the same values under the keys of the settings, and agree on whether there is
something other than an object under `retry`. -/
structure SameSettings (members other : Members) : Prop where
  value : ∀ setting : Setting, setting.value? other = setting.value? members
  retry : retryMisplaced other = retryMisplaced members

/-- A setting is read from the value under its key. -/
theorem read_congr {setting : Setting} (h : setting.value? other = setting.value? members) :
    setting.read other = setting.read members := by
  unfold Setting.value? at h
  unfold Setting.read readMember
  rw [h]

theorem SameSettings.given (h : SameSettings members other) (setting : Setting) :
    setting.given other = setting.given members := by
  unfold Setting.given
  rw [read_congr (h.value setting)]

theorem SameSettings.refusal? (h : SameSettings members other) (check : Check) :
    check.refusal? other = check.refusal? members := by
  cases check with
  | setting setting => simp only [Check.refusal?, read_congr (h.value setting)]
  | retryIsObject => simp only [Check.refusal?, h.retry]
  | backoffInRange => simp only [Check.refusal?, h.given]

/-- Documents with the same settings are read alike. -/
theorem SameSettings.ofJson (h : SameSettings members other) :
    ofJson (.object other) = ofJson (.object members) := by
  have hconfig : configOf other = configOf members := by
    simp only [configOf, retryOf, h.given]
  have hchecks : Check.refusal? other = Check.refusal? members := funext h.refusal?
  rw [ofJson_eq, ofJson_eq, hconfig, Check.firstRefusal?, Check.firstRefusal?, hchecks]

/-- No setting stands under `retry` itself. -/
theorem key_ne_retry (setting : Setting) : utf8 setting.key ≠ utf8 "retry" := by
  cases setting <;> decide

/-- Documents have the same settings when look-ups in them give the same, in the documents and in
the objects under `retry`. -/
theorem sameSettings_of_lookups
    (htop : ∀ setting : Setting,
      Json.member? other (utf8 setting.key) = Json.member? members (utf8 setting.key))
    (hretry : ∀ name, Json.member? (retryMembers (.object other)) name
      = Json.member? (retryMembers (.object members)) name)
    (hplace : retryMisplaced other = retryMisplaced members) : SameSettings members other := by
  refine ⟨fun setting => ?_, hplace⟩
  unfold Setting.value? Setting.home
  split
  · exact hretry _
  · exact htop setting

theorem sameSettings_of_members
    (h : ∀ name, Json.member? other name = Json.member? members name) :
    SameSettings members other := by
  refine sameSettings_of_lookups (fun setting => h _) (fun name => ?_) ?_
  · simp [retryMembers, Json.members?, h]
  · simp [retryMisplaced, h]

/-- Where no name occurs twice, the order of the members does not matter. -/
theorem sameSettings_of_perm (h : members.Perm other) (hnames : (members.map Prod.fst).Nodup) :
    SameSettings members other :=
  sameSettings_of_members (Json.member?_perm h hnames)

/-- The same holds of the object under `retry`. -/
theorem sameSettings_of_retry_perm {inner moved : Members}
    (hrest : ∀ name ≠ utf8 "retry", Json.member? other name = Json.member? members name)
    (hinner : Json.member? members (utf8 "retry") = some (.object inner))
    (hmoved : Json.member? other (utf8 "retry") = some (.object moved))
    (hperm : inner.Perm moved) (hnames : (inner.map Prod.fst).Nodup) :
    SameSettings members other := by
  refine sameSettings_of_lookups (fun setting => hrest _ (key_ne_retry setting)) (fun name => ?_) ?_
  · simp only [retryMembers, Json.members?, Option.bind_some, hinner, hmoved, Option.getD_some]
    exact Json.member?_perm hperm hnames name
  · simp [retryMisplaced, Json.members?, hinner, hmoved]

/-! ## Documents with one setting -/

end Config

namespace Setting

/-- The members of a document with this setting only. -/
def alone (setting : Setting) (value : Json) : Members :=
  if setting.isRetry then [(utf8 "retry", .object [(utf8 setting.key, value)])]
  else [(utf8 setting.key, value)]

theorem value?_alone (setting : Setting) (value : Json) :
    setting.value? (setting.alone value) = some value := by
  cases setting <;> rfl

theorem value?_alone_of_ne {setting other : Setting} (h : other ≠ setting) (value : Json) :
    other.value? (setting.alone value) = none := by
  cases setting <;> cases other <;> first | rfl | exact absurd rfl h

theorem retryMisplaced_alone (setting : Setting) (value : Json) :
    retryMisplaced (setting.alone value) = false := by
  cases setting <;> rfl

end Setting

namespace Config

theorem refusal?_eq_some_iff {setting : Setting} :
    (Check.setting setting).refusal? members = some e ↔
      ∃ value, setting.value? members = some value ∧ setting.reading value = .error e := by
  cases hvalue : setting.value? members with
  | none => simp [Check.refusal?, read_of_absent hvalue]
  | some value =>
    cases hread : setting.reading value <;> simp [Check.refusal?, read_of_value hvalue, hread]

/-- A document with one setting that cannot be read has only defaults to offer. -/
theorem given_alone {setting : Setting} {value : Json} (h : setting.reading value = .error e)
    (other : Setting) : other.given (setting.alone value) = other.of {} := by
  by_cases hother : other = setting
  · subst hother
    rw [Setting.given, read_of_value (Setting.value?_alone other value), h]
  · rw [Setting.given, read_of_absent (Setting.value?_alone_of_ne hother value)]

/-- A setting that cannot be read is refused in the same way when it stands alone. -/
theorem ofJson_alone {setting : Setting} {value : Json} (h : setting.reading value = .error e) :
    ofJson (.object (setting.alone value)) = .error e := by
  have hmem : Check.setting setting ∈ Check.all := Check.setting_mem_all setting
  obtain ⟨before, after, hall, hbefore⟩ := List.eq_append_cons_of_mem hmem
  refine ofJson_eq_error_iff.2 ⟨before, _, after, hall, ?_, fun earlier hearlier => ?_⟩
  · exact refusal?_eq_some_iff.2 ⟨value, Setting.value?_alone setting value, h⟩
  · cases earlier with
    | setting other =>
      have hne : other ≠ setting := fun heq => hbefore (heq ▸ hearlier)
      simp only [Check.refusal?, read_of_absent (Setting.value?_alone_of_ne hne value)]
    | retryIsObject => simp [Check.refusal?, Setting.retryMisplaced_alone]
    | backoffInRange => simp only [Check.refusal?, given_alone h]; decide

/-! ## Independence -/

/-- What becomes of a document depends on its settings only, so neither on other members nor on the
order of members, under `retry` or outside. In an accepted document every setting without a value
has its default, and any other is what every accepted document with this value makes of it. A
document is refused just when a check refuses it, for the first check that does, whatever the later
checks say; and a setting is refused for its value alone, as it is where nothing else is set. -/
theorem settings_independent (members : Members) :
    (∀ other, SameSettings members other → ofJson (.object other) = ofJson (.object members)) ∧
      (∀ other, members.Perm other → (members.map Prod.fst).Nodup → SameSettings members other) ∧
      (∀ other inner moved, (∀ name ≠ utf8 "retry",
          Json.member? other name = Json.member? members name) →
        Json.member? members (utf8 "retry") = some (.object inner) →
        Json.member? other (utf8 "retry") = some (.object moved) →
        inner.Perm moved → (inner.map Prod.fst).Nodup → SameSettings members other) ∧
      (∀ config, ofJson (.object members) = .ok config → ∀ setting : Setting,
        (setting.value? members = none → setting.of config = setting.of {}) ∧
          ∀ other config', ofJson (.object other) = .ok config' →
            setting.value? other = setting.value? members →
            setting.of config' = setting.of config) ∧
      (∀ e, ofJson (.object members) = .error e ↔
        ∃ before check after, Check.all = before ++ check :: after ∧
          check.refusal? members = some e ∧ ∀ earlier ∈ before, earlier.refusal? members = none) ∧
      ((∃ e, ofJson (.object members) = .error e) ↔
        ∃ check ∈ Check.all, ∃ e, check.refusal? members = some e) ∧
      ∀ setting e, (Check.setting setting).refusal? members = some e →
        ∃ value, setting.value? members = some value ∧
          ofJson (.object (setting.alone value)) = .error e := by
  refine ⟨fun other h => h.ofJson, fun other => sameSettings_of_perm,
    fun other inner moved => sameSettings_of_retry_perm, fun config h setting => ⟨?_, ?_⟩,
    fun e => ofJson_eq_error_iff, exists_error_iff, fun setting e h => ?_⟩
  · intro habsent
    have hread := (read_of_accepted h setting).symm.trans (read_of_absent habsent)
    exact Except.ok.inj hread
  · intro other config' hother hsame
    have hread := (read_of_accepted hother setting).symm.trans (read_congr hsame)
    exact Except.ok.inj (hread.trans (read_of_accepted h setting))
  · obtain ⟨value, hvalue, hread⟩ := refusal?_eq_some_iff.1 h
    exact ⟨value, hvalue, ofJson_alone hread⟩

end Config

end StagedCopy
