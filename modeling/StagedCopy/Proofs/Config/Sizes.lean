import StagedCopy.Proofs.Config.Settings
import StagedCopy.Proofs.Json.Numbers
import StagedCopy.Proofs.Size

/-!
# The sizes of a document

Two settings are numbers of bytes, and each can be written as an integer or as a text such as
`10MB`. The two ways are checked apart: an integer by its kind, a text by the reader of sizes and
once more by the largest signed integer. They come to the same all the same: whatever is accepted is
the number that is written, and a number is accepted in both ways or in none.

* `SizeKey`, `SizeKey.InRange` — the two settings and what is accepted under them.
* `Config.readSize_eq_ok_iff_of_holds`, `Config.readSize_string_eq_ok_iff` — the two ways.
* `Config.ofJson_eq_ok_iff_without` — a document with such a setting is accepted when the setting is
  and the document is without it.
* `Config.sizes_exact` — the theorem.
-/

namespace StagedCopy

open Config (Members)

/-- The settings that are numbers of bytes. -/
inductive SizeKey where
  | bandwidth | bufferSize

namespace SizeKey

/-- The setting. -/
def setting : SizeKey → Setting
  | bandwidth => .bandwidth
  | bufferSize => .bufferSize

/-- Its name in a document. -/
def name (key : SizeKey) : Bytes := utf8 key.setting.key

/-- A buffer has at least one byte; a bandwidth may be zero, for no limit, or less. -/
def Permits : SizeKey → Int → Prop
  | bandwidth, _ => True
  | bufferSize, n => 1 ≤ n

/-- The numbers that are accepted. -/
def InRange (key : SizeKey) (n : Int) : Prop := -2 ^ 63 ≤ n ∧ n ≤ 2 ^ 63 - 1 ∧ key.Permits n

/-- The number as a value of the setting. -/
def value : (key : SizeKey) → Int → key.setting.Value
  | bandwidth, n => n
  | bufferSize, n => n.toNat

/-- The number of a configuration. -/
def of (config : Config) : SizeKey → Int
  | bandwidth => config.options.maxBytesPerSecond
  | bufferSize => config.options.bufferSize

/-- The configuration with this number. -/
def set (config : Config) (n : Int) : SizeKey → Config
  | bandwidth => { config with options := { config.options with maxBytesPerSecond := n } }
  | bufferSize => { config with options := { config.options with bufferSize := n.toNat } }

theorem of_set {key : SizeKey} {n : Int} (h : key.Permits n) (config : Config) :
    key.of (key.set config n) = n := by
  cases key with
  | bandwidth => rfl
  | bufferSize =>
    unfold Permits at h
    simp only [of, set]
    omega

theorem not_isRetry (key : SizeKey) : key.setting.isRetry = false := by
  cases key <;> rfl

theorem value?_eq (key : SizeKey) (members : Members) :
    key.setting.value? members = Json.member? members key.name := by
  simp [Setting.value?, Setting.home, key.not_isRetry, name]

/-- The document gives the configuration with the number that it gives otherwise without the
setting, and the number is one that is accepted. -/
def Sets (key : SizeKey) (members : Members) (n : Int) (config : Config) : Prop :=
  key.InRange n ∧ key.of config = n ∧
    ∃ base, Config.ofJson (.object (Json.without members key.name)) = .ok base ∧
      key.set base n = config

end SizeKey

namespace Config

variable {members other : Members} {config : Config} {key : SizeKey} {value : Json} {n : Int}

/-! ## The two ways -/

/-- An integer is accepted when it fits in 64 bits with a sign. -/
theorem readSize_eq_ok_iff_of_holds {name : Bytes} {m : Int} (h : value.Holds n) :
    readSize name value = .ok m ↔ (-2 ^ 63 ≤ n ∧ n ≤ 2 ^ 63 - 1) ∧ m = n := by
  cases h with
  | @unsigned n hbound =>
    unfold readSize maxInt64
    dsimp only
    split
    · simp only [reduceCtorEq, false_iff]
      omega
    · simp only [Except.ok.injEq]
      omega
  | signed hlow hhigh =>
    simp only [readSize, Except.ok.injEq]
    omega
  | float hbound =>
    simp only [readSize, reduceCtorEq, false_iff]
    omega

/-- A text is accepted when it can be read as a size that fits in 63 bits. -/
theorem readSize_string_eq_ok_iff {name text : Bytes} {m : Int} :
    readSize name (.string text) = .ok m ↔
      ∃ v, Size.parse text = some v ∧ (v : Int) ≤ 2 ^ 63 - 1 ∧ m = v := by
  unfold readSize maxInt64
  dsimp only
  split
  · next v hparse =>
    simp only [hparse, Option.some.injEq, exists_eq_left']
    split
    · simp only [reduceCtorEq, false_iff]
      omega
    · simp only [Except.ok.injEq]
      omega
  · next hparse => simp [hparse]

/-- Nothing else is accepted. -/
theorem readSize_ne_ok {name : Bytes} {m : Int} (hunsigned : ∀ n, value ≠ .unsigned n)
    (hsigned : ∀ n, value ≠ .signed n) (hstring : ∀ text, value ≠ .string text) :
    readSize name value ≠ .ok m := by
  cases value with
  | unsigned n => exact absurd rfl (hunsigned n)
  | signed n => exact absurd rfl (hsigned n)
  | string text => exact absurd rfl (hstring text)
  | _ => intro h; cases h

/-- A buffer is read like any size, but has at least one byte. -/
theorem readBufferSize_eq_ok_iff {size : Nat} :
    readBufferSize value = .ok size ↔
      ∃ n, readSize (utf8 "buffer_size") value = .ok n ∧ 1 ≤ n ∧ n.toNat = size := by
  unfold readBufferSize
  rw [bind_eq_ok_iff]
  refine exists_congr fun n => and_congr_right fun _ => ?_
  split
  · simp only [reduceCtorEq, false_iff]
    omega
  · simp only [Except.ok.injEq]
    omega

/-- A setting takes over the number that is read, when it permits the number. -/
theorem reading_eq_ok_iff {a : key.setting.Value} :
    key.setting.reading value = .ok a ↔
      ∃ n, readSize key.name value = .ok n ∧ key.Permits n ∧ key.value n = a := by
  cases key with
  | bandwidth => exact ⟨fun h => ⟨a, h, trivial, rfl⟩, fun ⟨n, h, _, ha⟩ => ha ▸ h⟩
  | bufferSize => exact readBufferSize_eq_ok_iff

/-! ## The document without the setting -/

theorem key_injective {setting other : Setting} (h : utf8 setting.key = utf8 other.key) :
    setting = other := by
  cases setting <;> cases other <;> first | rfl | exact absurd h (by decide)

/-- The retry policy stays without the setting. -/
theorem retryMembers_without (setting : Setting) (members : Members) :
    retryMembers (.object (Json.without members (utf8 setting.key)))
      = retryMembers (.object members) := by
  simp [retryMembers, Json.members?, Json.member?_without (key_ne_retry setting).symm]

theorem retryMisplaced_without (setting : Setting) (members : Members) :
    retryMisplaced (Json.without members (utf8 setting.key)) = retryMisplaced members := by
  unfold retryMisplaced
  rw [Json.member?_without (key_ne_retry setting).symm]

/-- So do the values of all other settings. -/
theorem value?_without {setting removed : Setting} (h : setting ≠ removed) :
    setting.value? (Json.without members (utf8 removed.key)) = setting.value? members := by
  unfold Setting.value? Setting.home
  split
  · rw [retryMembers_without]
  · exact Json.member?_without fun heq => h (key_injective heq)

theorem given_without {setting removed : Setting} (h : setting ≠ removed) :
    setting.given (Json.without members (utf8 removed.key)) = setting.given members := by
  unfold Setting.given
  rw [read_congr (value?_without h)]

/-- Every other check says the same without the setting. -/
theorem refusal?_without {check : Check} (hcheck : check ≠ .setting key.setting) :
    check.refusal? (Json.without members key.name) = check.refusal? members := by
  cases check with
  | setting setting =>
    have hne : setting ≠ key.setting := fun heq => hcheck (congrArg Check.setting heq)
    simp only [Check.refusal?, SizeKey.name, read_congr (value?_without hne)]
  | retryIsObject => simp only [Check.refusal?, SizeKey.name, retryMisplaced_without]
  | backoffInRange =>
    have hgiven : ∀ setting : Setting, setting.isRetry = true →
        setting.given (Json.without members key.name) = setting.given members := by
      refine fun setting hretry => given_without ?_
      rintro rfl
      simp [key.not_isRetry] at hretry
    simp only [Check.refusal?, hgiven .initialDelay rfl, hgiven .maxDelay rfl,
      hgiven .multiplier rfl]

/-- The setting itself is not refused when it is absent. -/
theorem refusal?_without_self :
    (Check.setting key.setting).refusal? (Json.without members key.name) = none := by
  have habsent : key.setting.value? (Json.without members key.name) = none := by
    rw [key.value?_eq, Json.member?_without_self]
  simp only [Check.refusal?, read_of_absent habsent]

/-- The configuration takes over the number of the setting, and is what it is without the setting in
all else. -/
theorem configOf_eq_set (h : key.setting.given members = key.value n) :
    configOf members = key.set (configOf (Json.without members key.name)) n := by
  cases key with
  | bandwidth =>
    have hn : Setting.bandwidth.given members = n := h
    simp [configOf, retryOf, SizeKey.set, SizeKey.name, SizeKey.setting, given_without, hn]
  | bufferSize =>
    have hn : Setting.bufferSize.given members = n.toNat := h
    simp [configOf, retryOf, SizeKey.set, SizeKey.name, SizeKey.setting, given_without, hn]

/-- A document with the setting is accepted when the setting is and the document is without it. -/
theorem ofJson_eq_ok_iff_without (h : Json.member? members key.name = some value) :
    ofJson (.object members) = .ok config ↔
      ∃ n, readSize key.name value = .ok n ∧ key.Permits n ∧
        ∃ base, ofJson (.object (Json.without members key.name)) = .ok base ∧
          key.set base n = config := by
  have hread : key.setting.read members = key.setting.reading value :=
    read_of_value ((key.value?_eq members).trans h)
  constructor
  · intro hok
    have hreading := hread.symm.trans (read_of_accepted hok key.setting)
    obtain ⟨n, hn, hpermits, hvalue⟩ := reading_eq_ok_iff.1 hreading
    obtain ⟨hchecks, rfl⟩ := ofJson_eq_ok_iff.1 hok
    refine ⟨n, hn, hpermits, _, ofJson_eq_ok_iff.2 ⟨fun check hcheck => ?_, rfl⟩, ?_⟩
    · by_cases hself : check = .setting key.setting
      · rw [hself, refusal?_without_self]
      · rw [refusal?_without hself, hchecks check hcheck]
    · rw [of_configOf] at hvalue
      exact (configOf_eq_set hvalue.symm).symm
  · rintro ⟨n, hn, hpermits, base, hbase, rfl⟩
    have hgiven : key.setting.read members = .ok (key.value n) :=
      hread.trans (reading_eq_ok_iff.2 ⟨n, hn, hpermits, rfl⟩)
    obtain ⟨hchecks, rfl⟩ := ofJson_eq_ok_iff.1 hbase
    refine ofJson_eq_ok_iff.2 ⟨fun check hcheck => ?_, configOf_eq_set ?_⟩
    · by_cases hself : check = .setting key.setting
      · simp only [hself, Check.refusal?, hgiven]
      · rw [← refusal?_without hself, hchecks check hcheck]
    · rw [Setting.given, hgiven]

/-! ## Exactness -/

/-- A document whose setting is an integer gives a configuration with this integer. -/
theorem ofJson_eq_ok_iff_of_holds (h : Json.member? members key.name = some value)
    (hvalue : value.Holds n) :
    ofJson (.object members) = .ok config ↔ key.Sets members n config := by
  rw [ofJson_eq_ok_iff_without h]
  constructor
  · rintro ⟨m, hread, hpermits, base, hbase, rfl⟩
    obtain ⟨⟨hlow, hhigh⟩, rfl⟩ := (readSize_eq_ok_iff_of_holds hvalue).1 hread
    exact ⟨⟨hlow, hhigh, hpermits⟩, SizeKey.of_set hpermits base, base, hbase, rfl⟩
  · rintro ⟨⟨hlow, hhigh, hpermits⟩, -, base, hbase, rfl⟩
    have hread : readSize key.name value = .ok n :=
      (readSize_eq_ok_iff_of_holds hvalue).2 ⟨⟨hlow, hhigh⟩, rfl⟩
    exact ⟨n, hread, hpermits, base, hbase, rfl⟩

/-- A document whose setting is a text gives a configuration with the size that the text is read
as. -/
theorem ofJson_eq_ok_iff_of_string {text : Bytes}
    (h : Json.member? members key.name = some (.string text)) :
    ofJson (.object members) = .ok config ↔
      ∃ v, Size.parse text = some v ∧ key.Sets members v config := by
  rw [ofJson_eq_ok_iff_without h]
  constructor
  · rintro ⟨m, hread, hpermits, base, hbase, rfl⟩
    obtain ⟨v, hparse, hhigh, rfl⟩ := readSize_string_eq_ok_iff.1 hread
    exact ⟨v, hparse, ⟨by omega, hhigh, hpermits⟩, SizeKey.of_set hpermits base, base, hbase, rfl⟩
  · rintro ⟨v, hparse, ⟨-, hhigh, hpermits⟩, -, base, hbase, rfl⟩
    have hread : readSize key.name (.string text) = .ok v :=
      readSize_string_eq_ok_iff.2 ⟨v, hparse, hhigh, rfl⟩
    exact ⟨v, hread, hpermits, base, hbase, rfl⟩

/-- What a document is without a setting does not depend on the setting. -/
theorem ofJson_without_congr
    (h : ∀ name ≠ key.name, Json.member? other name = Json.member? members name) :
    ofJson (.object (Json.without other key.name))
      = ofJson (.object (Json.without members key.name)) := by
  have hlookup : ∀ name, Json.member? (Json.without other key.name) name
      = Json.member? (Json.without members key.name) name := by
    intro name
    by_cases hname : name = key.name
    · rw [hname, Json.member?_without_self, Json.member?_without_self]
    · rw [Json.member?_without hname, Json.member?_without hname, h name hname]
  exact (sameSettings_of_members hlookup).ofJson

/-- An integer that is not negative and a text that denotes it come to the same. -/
theorem ofJson_eq_ok_iff_of_denotes {n : Nat} {text : Bytes}
    (h : Json.member? members key.name = some value) (hvalue : value.Holds n)
    (hdenotes : Size.Denotes text n)
    (hrest : ∀ name ≠ key.name, Json.member? other name = Json.member? members name)
    (htext : Json.member? other key.name = some (.string text)) :
    ofJson (.object other) = .ok config ↔ ofJson (.object members) = .ok config := by
  have hsets : key.Sets other n config ↔ key.Sets members n config := by
    unfold SizeKey.Sets
    rw [ofJson_without_congr hrest]
  rw [ofJson_eq_ok_iff_of_string htext, ofJson_eq_ok_iff_of_holds h hvalue, ← hsets]
  constructor
  · rintro ⟨v, hparse, hv⟩
    obtain ⟨rfl, -⟩ := hdenotes.parse_iff.1 hparse
    exact hv
  · intro hn
    have hfits : n < Size.bound := by
      obtain ⟨⟨-, hhigh, -⟩, -⟩ := hn
      unfold Size.bound
      omega
    exact ⟨n, hdenotes.parse_iff.2 ⟨rfl, hfits⟩, hn⟩

/-- A size is taken over exactly. Integers are read to values that hold them. Where such a value
stands under one of the two settings, the document is accepted just when the integer is in the range
of the setting and the document is accepted without the setting, and then the configuration has this
integer and is the same in all else. A text is treated like the number it is read as, and anything
else is refused. So a number may be written in either way. -/
theorem sizes_exact (h : Json.member? members key.name = some value) :
    (∀ negative digits, Json.number? negative digits none none = some value →
        value.Holds (if negative then -(Json.ofDigits digits) else Json.ofDigits digits)) ∧
      (∀ n config, value.Holds n →
        (ofJson (.object members) = .ok config ↔ key.Sets members n config)) ∧
      (∀ text config, value = .string text →
        (ofJson (.object members) = .ok config ↔
          ∃ v, Size.parse text = some v ∧ key.Sets members v config)) ∧
      ((∀ n, value ≠ .unsigned n) → (∀ n, value ≠ .signed n) → (∀ text, value ≠ .string text) →
        ∀ config, ofJson (.object members) ≠ .ok config) ∧
      ∀ (n : Nat) text other, value.Holds n → Size.Denotes text n →
        (∀ name ≠ key.name, Json.member? other name = Json.member? members name) →
        Json.member? other key.name = some (.string text) →
        ∀ config, ofJson (.object other) = .ok config ↔ ofJson (.object members) = .ok config := by
  refine ⟨fun negative digits => Json.number?_holds, fun n config => ofJson_eq_ok_iff_of_holds h,
    ?_, ?_, fun n text other hvalue hdenotes hrest htext config =>
      ofJson_eq_ok_iff_of_denotes h hvalue hdenotes hrest htext⟩
  · rintro text config rfl
    exact ofJson_eq_ok_iff_of_string h
  · intro hunsigned hsigned hstring config hok
    obtain ⟨n, hread, -⟩ := (ofJson_eq_ok_iff_without h).1 hok
    exact readSize_ne_ok hunsigned hsigned hstring hread

/-- A bandwidth just below the largest signed integer, written in terabytes. -/
theorem sizes_exact_terabytes :
    Json.member? [(utf8 "bandwidth", .unsigned 9223370937343148032)] SizeKey.bandwidth.name
        = some (.unsigned 9223370937343148032) ∧
      ∃ config, ofJson (.object [(utf8 "bandwidth", .string (utf8 "8388607 TiB"))]) = .ok config ∧
        config.options.maxBytesPerSecond = 9223370937343148032 := by
  have hmember : Json.member? [(utf8 "bandwidth", .unsigned 9223370937343148032)]
      SizeKey.bandwidth.name = some (.unsigned 9223370937343148032) := rfl
  have hdenotes : Size.Denotes (utf8 "8388607 TiB") 9223370937343148032 :=
    ⟨[], utf8 "8388607", utf8 " ", utf8 "TiB", 4, by decide, by simp, by decide,
      List.all_eq_true.1 (by decide), List.all_eq_true.1 (by decide), ⟨_, rfl, by decide⟩,
      by decide⟩
  obtain ⟨-, -, -, -, hsame⟩ := sizes_exact hmember
  refine ⟨hmember, _, (hsame _ _ _ (.unsigned (by decide)) hdenotes ?_ rfl _).2 rfl, rfl⟩
  intro name hname
  have hother : utf8 "bandwidth" ≠ name := hname.symm
  simp [Json.member?, hother]

end Config

end StagedCopy
