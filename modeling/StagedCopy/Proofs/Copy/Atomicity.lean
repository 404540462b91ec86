import StagedCopy.Proofs.Copy.Stores

/-!
# The target is old, absent or whole

Between two stores in memory whose calls may fail in any way, nobody who looks at the target ever
sees a part of a copy: at every moment the place of the target is as it was before, empty, or a
file with all that the source held. It becomes the latter by the rename of the attempt, and it is
so at the end exactly when the attempt reports success.

* `CopyPhase.IsPublished` — the phases after the rename, which are those of a success.
* `target_atomic` — the theorem, over all executions.
-/

namespace StagedCopy

open Program (Begins Exchange Yields)

/-! ## The rename -/

/-- The temporary file becomes the target. -/
def CopyJob.publication (job : CopyJob) : Exchange :=
  ⟨.storage .target (.rename job.temp job.target), .ok ()⟩

namespace CopyPhase

/-- The result is decided, and it is a success. -/
def IsPublished : CopyPhase → Prop
  | findingTemp (.ok _) | clearingTemp (.ok _) | finished (.ok _) => True
  | _ => False

/-- A success is decided by the rename and by nothing else. -/
theorem isPublished_step {job : CopyJob} {phase after : CopyPhase} {x : Exchange}
    (h : Step job phase x after) :
    after.IsPublished ↔ phase.IsPublished ∨ x = job.publication := by
  -- an exchange other than the rename decides nothing
  have hother : x ≠ job.publication → (after.IsPublished ↔ phase.IsPublished) →
      (after.IsPublished ↔ phase.IsPublished ∨ x = job.publication) := by
    intro hne hiff
    rw [hiff, or_iff_left hne]
  cases h with
  | silent hx =>
    refine hother ?_ Iff.rfl
    rintro rfl
    cases hx
  | renamed => simp [IsPublished, CopyJob.publication]
  | tempSized =>
    refine hother (fun h => by cases h) (iff_of_false ?_ id)
    exact afterLengths_cases (fun _ => id) fun _ => id
  | targetAbsent | targetCleared =>
    refine hother (fun h => by cases h) (iff_of_false ?_ id)
    exact afterClearing_cases (fun _ => id) fun _ => id
  | @tempFound result | @tempAbsent result | @tempUnknown result | @tempCleared result =>
    refine hother (fun h => by cases h) ?_
    cases result <;> exact Iff.rfl
  | _ => exact hother (fun h => by cases h) (iff_of_false id id)

theorem isPublished_trail {job : CopyJob} {phase : CopyPhase} {exchanges : List Exchange}
    (h : Trail (Step job) .creating exchanges phase) :
    phase.IsPublished ↔ job.publication ∈ exchanges := by
  refine Trail.history (I := fun before phase =>
    phase.IsPublished ↔ job.publication ∈ before) ?_ h ?_
  · intro before phase x after hI hstep
    rw [isPublished_step hstep, hI, List.mem_append, List.mem_singleton]
    exact or_congr_right eq_comm
  · simp [IsPublished]

theorem target_of_settled {job : CopyJob} {init pair : StorePair} {content : Bytes}
    {result : AttemptEnd} (h : Settled job init content pair result) :
    (¬ (finished result).IsPublished ∧ Unwritten job init pair) ∨
      ((finished result).IsPublished ∧ ∃ layout,
        pair.target.get? job.target.key = some (.file ⟨content, layout⟩)) := by
  cases result with
  | error | broken => exact .inl ⟨id, h⟩
  | ok copied => exact .inr ⟨trivial, _, (h.1 job.target.key).trans CopyJob.published_target⟩

/-- At every phase the place of the target is as it was, empty, or a file with the content. -/
theorem target_of_stands {job : CopyJob} {init pair : StorePair} {file : MemoryFile}
    {phase : CopyPhase} (hfits : job.Fits init file)
    (h : Stands job init file.content pair phase) :
    (¬ phase.IsPublished ∧ Unwritten job init pair) ∨
      (phase.IsPublished ∧ ∃ layout,
        pair.target.get? job.target.key = some (.file ⟨file.content, layout⟩)) := by
  cases phase with
  | creating =>
    obtain rfl : pair = init := h
    exact .inl ⟨id, .inl rfl⟩
  | opening output => exact .inl ⟨id, unwritten_of_staged hfits h.2.1⟩
  | reading | writing | sizingSource | sizingTemp | summingSource | summingTemp | findingTarget
  | clearingTarget => exact .inl ⟨id, unwritten_of_staged hfits h.1⟩
  | closing output moved failed =>
    cases failed with
    | none => exact .inl ⟨id, unwritten_of_staged hfits h.1⟩
    | some failure => exact .inl ⟨id, unwritten_of_staged hfits h.1⟩
  | findingParent | makingParent => exact .inl ⟨id, unwritten_of_cleared h.1⟩
  | publishing => exact .inl ⟨id, unwritten_of_housed h.1⟩
  | findingTemp result | clearingTemp result =>
    have hsettled : Settled job init file.content pair result := h
    -- once there is a result, all phases say the same
    have htarget := target_of_settled hsettled
    cases result with
    | ok | error | broken => exact htarget
  | finished result => exact target_of_settled h

end CopyPhase

/-! ## The theorem -/

/-- The place of the target holds a file with a content. -/
def CopyJob.TargetHolds (job : CopyJob) (pair : StorePair) (content : Bytes) : Prop :=
  ∃ layout, pair.target.get? job.target.key = some (.file ⟨content, layout⟩)

/-- Between stores in memory whose calls may fail in any way: at every moment of an attempt the
place of the target is as it was at the beginning, empty, or a file with all that the source held;
and at the end of the attempt it is such a file by the rename of this attempt if and only if the
attempt is a success. -/
theorem target_atomic {bound : Nat} {job : CopyJob} {init : StorePair} {file : MemoryFile}
    (hfits : job.Fits init file) :
    (∀ exchanges pair, Begins (copyOnce bound job) exchanges →
      Trail StorePair.Step init exchanges pair →
      pair.target.get? job.target.key = init.target.get? job.target.key ∨
        pair.target.get? job.target.key = none ∨ job.TargetHolds pair file.content) ∧
    (∀ exchanges pair outcome, Yields (copyOnce bound job) exchanges outcome →
      outcome ≠ .unfinished → Trail StorePair.Step init exchanges pair →
      ((job.publication ∈ exchanges ∧ job.TargetHolds pair file.content) ↔
        ∃ copied, outcome = .done (.ok copied))) := by
  constructor
  · intro exchanges pair hbegins hpair
    obtain ⟨phase, hphase⟩ := copyOnce_trail hbegins
    obtain ⟨-, hstands⟩ := CopyPhase.stands_trail hfits hphase hpair
    rcases CopyPhase.target_of_stands hfits hstands with ⟨-, hsame | hnone⟩ | ⟨-, hholds⟩
    · exact .inl hsame
    · exact .inr (.inl hnone)
    · exact .inr (.inr hholds)
  · intro exchanges pair outcome hyields hends hpair
    by_cases hid : isAttemptId job.attemptId
    · obtain ⟨decided, hphase, rfl⟩ := copyOnce_ended hid hyields hends
      obtain ⟨-, hstands⟩ := CopyPhase.stands_trail hfits hphase hpair
      have htarget := CopyPhase.target_of_stands hfits hstands
      rw [← CopyPhase.isPublished_trail hphase]
      cases decided with
      | ok copied =>
        have hholds : job.TargetHolds pair file.content := by
          rcases htarget with ⟨hunpublished, -⟩ | ⟨-, hholds⟩
          · exact absurd trivial hunpublished
          · exact hholds
        exact ⟨fun _ => ⟨copied, rfl⟩, fun _ => ⟨trivial, hholds⟩⟩
      | error | broken =>
        constructor
        · rintro ⟨hpublished, -⟩
          exact hpublished.elim
        · rintro ⟨copied, hcopied⟩
          cases hcopied
    · rw [copyOnce_invalid hid] at hyields
      cases hyields
      constructor
      · rintro ⟨hmem, -⟩
        cases hmem
      · rintro ⟨copied, hcopied⟩
        cases hcopied

theorem target_atomic_small :
    smallJob.Fits smallStores ⟨utf8 "abc", ⟨1, 64⟩⟩ ∧
    smallJob.TargetHolds
      (Program.run (StorePair.serving (obliging 0)) (copyOnce 3 smallJob) (smallStores, [])).2.1
      (utf8 "abc") := by
  have hfits : smallJob.Fits smallStores ⟨utf8 "abc", ⟨1, 64⟩⟩ := by
    refine ⟨by decide +kernel, .new _ _, ?_, ?_, ?_, ?_⟩ <;> decide +kernel
  have hresult : (Program.run (StorePair.serving (obliging 0)) (copyOnce 3 smallJob)
      (smallStores, [])).1 = .done (.ok 3) := by decide +kernel
  have hrun := Program.run_exchanges hresult
  have htrail := StorePair.trail_serving (obliging 0) (copyOnce 3 smallJob) smallStores []
  have hatomic := ((target_atomic hfits).2 _ _ _ hrun.yields nofun htrail).2 ⟨3, rfl⟩
  exact ⟨hfits, hatomic.2⟩

end StagedCopy
