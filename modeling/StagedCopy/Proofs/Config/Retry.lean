import StagedCopy.Proofs.Config.Settings
import StagedCopy.Proofs.Json.Numbers

/-!
# The retry policy of an accepted document

Numbers pass through 64 bits before they are judged. One that wraps around on the way turns
negative, and so does one that does not fit, and then the document is refused: the delays of an
accepted document are not negative and are just the numbers that it asks for. The attempt budget is
narrowed to 32 bits after it was judged, so it is what the document asks for only below `2 ^ 32`.

* `Config.AsksFor` — the numbers that a document has under `retry`.
* `Config.delay_eq`, `Config.attempts_eq` — what becomes of a delay and of the attempt budget.
* `Config.accepted_retry_valid` — the theorem, with the exact extent for the attempt budget.
* `Config.accepted_retry_wraps` — an attempt budget of `2 ^ 32` is taken for zero.
-/

namespace StagedCopy

namespace Config

/-- The document has a number with the given whole part under the key inside `retry`. -/
def AsksFor (document : Json) (key : String) (n : Int) : Prop :=
  ∃ value, Json.member? (retryMembers document) (utf8 key) = some value ∧
    value.wholePart? = some n

variable {document : Json} {key : String} {n : Int}

theorem AsksFor.unique {m : Int} (h : AsksFor document key n) (h' : AsksFor document key m) :
    n = m := by
  obtain ⟨value, hvalue, hn⟩ := h
  obtain ⟨_, hother, hm⟩ := h'
  rw [hvalue] at hother
  cases hother
  rw [hn] at hm
  exact Option.some.inj hm

/-- The members under `retry` fit when the document does. -/
theorem fits_of_retryMembers {value : Json} (hfits : document.Fits)
    (h : Json.member? (retryMembers document) (utf8 key) = some value) : value.Fits := by
  cases hinner : (document.members?.bind fun members =>
      Json.member? members (utf8 "retry")).bind Json.members? with
  | none =>
    rw [retryMembers, hinner] at h
    cases h
  | some inner =>
    rw [retryMembers, hinner] at h
    obtain ⟨retry, hretry, hinner⟩ := Option.bind_eq_some_iff.1 hinner
    obtain ⟨members, hmembers, hretry⟩ := Option.bind_eq_some_iff.1 hretry
    have hfitsRetry := hfits.members? hmembers _ (Json.mem_of_member? hretry)
    exact hfitsRetry.members? hinner _ (Json.mem_of_member? h)

/-- A number that was converted and is not negative is what the document asks for. -/
theorem asksFor_of_toInt64? {value : Json} (hfits : document.Fits)
    (hvalue : Json.member? (retryMembers document) (utf8 key) = some value)
    (h : value.toInt64? = some n) (hn : 0 ≤ n) : AsksFor document key n :=
  ⟨value, hvalue, (fits_of_retryMembers hfits hvalue).wholePart?_eq h hn⟩

/-- A delay that is not negative is the number that the document asks for. -/
theorem delay_eq {default delay : Int} (hfits : document.Fits)
    (h : readMember (retryMembers document) key default (typed .number Json.toInt64?) = .ok delay)
    (hdelay : 0 ≤ delay) (hasks : AsksFor document key n) : delay = n := by
  obtain ⟨value, hvalue, hn⟩ := hasks
  rcases readMember_eq_ok_iff.1 h with ⟨habsent, -⟩ | ⟨other, hother, hread⟩
  · rw [hvalue] at habsent
    cases habsent
  · have hasks := asksFor_of_toInt64? hfits hother (typed_eq_ok_iff.1 hread) hdelay
    exact hasks.unique ⟨value, hvalue, hn⟩

/-- The attempt budget is the default, when the document asks for none, or the low 32 bits of the
number it asks for, which is at least one. -/
theorem attempts_eq {attempts : Nat} (hfits : document.Fits)
    (h : readMember (retryMembers document) "max_attempts" (RetryPolicy.maxAttempts {})
      readAttempts = .ok attempts) :
    ((∀ n, ¬ AsksFor document "max_attempts" n) ∧ attempts = RetryPolicy.maxAttempts {}) ∨
      ∃ n, AsksFor document "max_attempts" n ∧ 1 ≤ n ∧ (attempts : Int) = n % 2 ^ 32 := by
  rcases readMember_eq_ok_iff.1 h with ⟨habsent, hdefault⟩ | ⟨value, hvalue, hread⟩
  · refine .inl ⟨fun n ⟨value, hvalue, _⟩ => ?_, hdefault.symm⟩
    rw [hvalue] at habsent
    cases habsent
  · unfold readAttempts at hread
    obtain ⟨n, hn, hread⟩ := bind_eq_ok_iff.1 hread
    split at hread
    · cases hread
    · next hpos =>
      cases hread
      refine .inr ⟨n, asksFor_of_toInt64? hfits hvalue (typed_eq_ok_iff.1 hn) (by omega), by omega,
        by omega⟩

/-- The delays and the multiplier of an accepted document make sense, and the delays are the numbers
that it asks for. The attempt budget makes sense just when the number that the document asks for is
no multiple of `2 ^ 32`, and is this number just when it is below `2 ^ 32`. -/
theorem accepted_retry_valid {config : Config} (hfits : document.Fits)
    (h : ofJson document = .ok config) :
    0 ≤ config.retry.initialDelay ∧ 0 ≤ config.retry.maxDelay ∧ 1 ≤ config.retry.multiplier ∧
      (∀ n, AsksFor document "initial_delay_ms" n → config.retry.initialDelay = n) ∧
      (∀ n, AsksFor document "max_delay_ms" n → config.retry.maxDelay = n) ∧
      (config.retry.attemptBudget = config.retry.maxAttempts ∧ 1 ≤ config.retry.maxAttempts ↔
        ∀ n, AsksFor document "max_attempts" n → n % 2 ^ 32 ≠ 0) ∧
      ∀ n, AsksFor document "max_attempts" n → (config.retry.maxAttempts = n ↔ n < 2 ^ 32) := by
  obtain ⟨hattempts, hinitial, hmost, hinitialPos, hmostPos, hmultiplier⟩ := retry_of_accepted h
  refine ⟨hinitialPos, hmostPos, hmultiplier, fun n => delay_eq hfits hinitial hinitialPos,
    fun n => delay_eq hfits hmost hmostPos, ?_, fun n hn => ?_⟩
  · rw [RetryPolicy.attemptBudget_eq_iff, and_self]
    rcases attempts_eq hfits hattempts with ⟨hnone, hdefault⟩ | ⟨n, hasks, -, hlow⟩
    · rw [hdefault]
      exact ⟨fun _ n hn => absurd hn (hnone n), fun _ => by decide⟩
    · constructor
      · rintro hpos m hm
        obtain rfl := hasks.unique hm
        omega
      · intro hall
        have hne := hall n hasks
        omega
  · rcases attempts_eq hfits hattempts with ⟨hnone, -⟩ | ⟨m, hasks, hpos, hlow⟩
    · exact absurd hn (hnone n)
    · obtain rfl := hasks.unique hn
      omega

/-- A document that asks for a number of attempts and for the largest cap. -/
def attemptsDocument (n : Nat) : Json :=
  .object [(utf8 "retry", .object [(utf8 "max_attempts", .unsigned n),
    (utf8 "max_delay_ms", .unsigned 9223372036854775807)])]

/-- The text of such a document, around the number of attempts. -/
def attemptsText (number : String) : Bytes :=
  utf8 "\x7b\"retry\":\x7b\"max_attempts\":" ++ utf8 number
    ++ utf8 ",\"max_delay_ms\":9223372036854775807\x7d\x7d"

/-- The largest budget that is kept as it is, and the largest cap. -/
theorem accepted_retry_valid_largest :
    Json.read (attemptsText "4294967295") = some (attemptsDocument 4294967295) ∧
      (attemptsDocument 4294967295).Fits ∧
      ∃ config, ofJson (attemptsDocument 4294967295) = .ok config ∧
        config.retry.attemptBudget = config.retry.maxAttempts ∧
        config.retry.maxAttempts = 4294967295 ∧ config.retry.maxDelay = 9223372036854775807 := by
  have hread : Json.read (attemptsText "4294967295") = some (attemptsDocument 4294967295) := rfl
  have hfits := Json.read_fits hread
  have hattempts : AsksFor (attemptsDocument 4294967295) "max_attempts" 4294967295 :=
    ⟨_, rfl, rfl⟩
  have hmost : AsksFor (attemptsDocument 4294967295) "max_delay_ms" 9223372036854775807 :=
    ⟨_, rfl, rfl⟩
  obtain ⟨config, hok⟩ : ∃ config, ofJson (attemptsDocument 4294967295) = .ok config := ⟨_, rfl⟩
  obtain ⟨-, -, -, -, hdelay, hbudget, hexact⟩ := accepted_retry_valid hfits hok
  have hkept : (config.retry.maxAttempts : Int) = 4294967295 := (hexact _ hattempts).2 (by decide)
  refine ⟨hread, hfits, config, hok, (hbudget.2 fun n hn => ?_).1, by omega, hdelay _ hmost⟩
  rw [hn.unique hattempts]
  decide

/-- A document that asks for `2 ^ 32` attempts is accepted with a budget of zero attempts, and one
is made. -/
theorem accepted_retry_wraps :
    Json.read (attemptsText "4294967296") = some (attemptsDocument 4294967296) ∧
      (attemptsDocument 4294967296).Fits ∧
      AsksFor (attemptsDocument 4294967296) "max_attempts" 4294967296 ∧
      ∃ config, ofJson (attemptsDocument 4294967296) = .ok config ∧
        config.retry.maxAttempts = 0 ∧ config.retry.attemptBudget = 1 := by
  have hread : Json.read (attemptsText "4294967296") = some (attemptsDocument 4294967296) := rfl
  exact ⟨hread, Json.read_fits hread, ⟨_, rfl, rfl⟩,
    { retry := { maxAttempts := 0, maxDelay := 9223372036854775807 } }, rfl, rfl, rfl⟩

end Config

end StagedCopy
