import StagedCopy.Proofs.Copy.Evidence

/-!
# Independent copies commute

Two copies from one store to another, each of which succeeds alone, whose targets and temporary
files stand at four places that have nothing to do with one another. Each of them makes directories
above its two places, removes what stands at its target and renames its temporary file, and none of
this hinders the other, even where they share the directories that one of them makes. So both
succeed in either order, and the same store is left.

* `Key.Unrelated`, `CopyJob.Independent` — places, and jobs, that have nothing to do with one
  another.
* `CopyJob.Unhindered.after` — what one copy leaves does not hinder the other.
* `CopyJob.copied_commute` — what stands where after both does not depend on the order.
* `copyBoth`, `copies_commute` — the theorem.
-/

namespace StagedCopy

open Program (Handler)

/-! ## Places that have nothing to do with one another -/

/-- Two different places, neither above the other. -/
def Key.Unrelated (a b : Key) : Prop := a ≠ b ∧ a.isAbove b = false ∧ b.isAbove a = false

instance (a b : Key) : Decidable (a.Unrelated b) := inferInstanceAs (Decidable (_ ∧ _ ∧ _))

namespace Key.Unrelated

variable {a b c : Key}

theorem symm (h : a.Unrelated b) : b.Unrelated a := ⟨h.1.symm, h.2.2, h.2.1⟩

theorem not_mem (h : a.Unrelated b) : a ∉ b.properAncestors := by
  intro hmem
  have habove := (mem_properAncestors.1 hmem).2
  rw [h.2.1] at habove
  cases habove

/-- Whatever is below one of two such places is not the other. -/
theorem ne_of_below (h : a.Unrelated b) (hbelow : a.isAbove c = true) : c ≠ b := by
  rintro rfl
  rw [h.2.1] at hbelow
  cases hbelow

/-- Whatever is below one of two such places is not above the other. -/
theorem not_mem_of_below (h : a.Unrelated b) (hbelow : a.isAbove c = true) :
    c ∉ b.properAncestors := by
  intro hmem
  have habove := isAbove_trans hbelow (mem_properAncestors.1 hmem).2
  rw [h.2.1] at habove
  cases habove

end Key.Unrelated

namespace CopyJob

/-- The targets and the temporary files of two jobs have nothing to do with one another. -/
def Independent (first second : CopyJob) : Prop :=
  [first.target.key, first.temp.key, second.target.key, second.temp.key].Pairwise Key.Unrelated

instance (first second : CopyJob) : Decidable (first.Independent second) :=
  inferInstanceAs (Decidable (List.Pairwise _ _))

/-- A place has nothing to do with the target and the temporary file of a job. -/
structure Spares (job : CopyJob) (k : Key) : Prop where
  target : k.Unrelated job.target.key
  temp : k.Unrelated job.temp.key

section independent

variable {first second : CopyJob}

theorem Independent.symm (h : first.Independent second) : second.Independent first := by
  unfold Independent at h ⊢
  simp only [List.pairwise_cons, List.mem_cons, List.not_mem_nil, or_false, forall_eq_or_imp,
    forall_eq, false_imp_iff, implies_true, List.Pairwise.nil, and_true] at h ⊢
  obtain ⟨⟨hself, htt, htm⟩, ⟨hmt, hmm⟩, hself'⟩ := h
  exact ⟨⟨hself', htt.symm, hmt.symm⟩, ⟨htm.symm, hmm.symm⟩, hself⟩

theorem Independent.own (h : first.Independent second) :
    first.target.key.Unrelated first.temp.key := by
  unfold Independent at h
  exact (List.pairwise_cons.1 h).1 _ (by simp)

theorem Independent.spares_target (h : first.Independent second) :
    first.Spares second.target.key := by
  unfold Independent at h
  obtain ⟨htarget, htemp⟩ := List.pairwise_cons.1 h
  exact ⟨(htarget _ (by simp)).symm, ((List.pairwise_cons.1 htemp).1 _ (by simp)).symm⟩

theorem Independent.spares_temp (h : first.Independent second) : first.Spares second.temp.key := by
  unfold Independent at h
  obtain ⟨htarget, htemp⟩ := List.pairwise_cons.1 h
  exact ⟨(htarget _ (by simp)).symm, ((List.pairwise_cons.1 htemp).1 _ (by simp)).symm⟩

/-- The target of an independent job is not the root, which is above all other places. -/
theorem Independent.target_ne_root (h : first.Independent second) : first.target.key ≠ [] := by
  intro hroot
  have hown := h.own
  have habove : first.target.key.isAbove first.temp.key = true := by
    refine Key.isAbove_iff.2 ⟨?_, hown.1⟩
    rw [hroot]
    exact List.nil_prefix
  rw [hown.2.1] at habove
  cases habove

end independent

/-! ## What one copy leaves to the other -/

section copied

variable {job : CopyJob} {store : MemoryStore} {content : Bytes} {k other : Key}

theorem copied_target : job.copied store content job.target.key
    = some (.file ⟨content, job.copiedLayout store.defaults⟩) := if_pos rfl

theorem copied_temp (h : job.target.key ≠ job.temp.key) :
    job.copied store content job.temp.key = none := by
  rw [copied, if_neg h.symm, if_pos rfl]

/-- A copy leaves a place alone that is not one of its own and not above them. -/
theorem copied_elsewhere (htarget : k ≠ job.target.key) (htemp : k ≠ job.temp.key)
    (habove : k ∉ job.target.key.properAncestors) (habove' : k ∉ job.temp.key.properAncestors) :
    job.copied store content k = store.get? k := by
  rw [copied, if_neg htarget, if_neg htemp, if_neg]
  rintro ⟨hmem | hmem, -⟩
  · exact habove hmem
  · exact habove' hmem

theorem Spares.copied (h : job.Spares k) : job.copied store content k = store.get? k :=
  copied_elsewhere h.target.1 h.temp.1 h.target.not_mem h.temp.not_mem

theorem Spares.copied_below (h : job.Spares k) (hbelow : k.isAbove other = true) :
    job.copied store content other = store.get? other :=
  copied_elsewhere (h.target.ne_of_below hbelow) (h.temp.ne_of_below hbelow)
    (h.target.not_mem_of_below hbelow) (h.temp.not_mem_of_below hbelow)

/-- The only file that a copy makes is the target. -/
theorem copied_free (htarget : k ≠ job.target.key) (hfree : ∀ f, store.get? k ≠ some (.file f))
    (f : MemoryFile) : job.copied store content k ≠ some (.file f) := by
  rw [CopyJob.copied, if_neg htarget]
  split
  · simp
  split
  · simp
  · exact hfree f

end copied

/-- What a copy leaves does not hinder a job that is independent of it. -/
theorem Unhindered.after {first second : CopyJob} {init after : StorePair}
    {file : MemoryFile} {content : Bytes} (h : second.Unhindered init file)
    (hframe : StorePair.Frame init after)
    (hholds : Holds after.target (first.copied init.target content))
    (hindependent : first.Independent second) : second.Unhindered after file := by
  have htarget := hindependent.spares_target
  have htemp := hindependent.spares_temp
  refine { h with
    source := CopyPhase.source_of_frame h.toFits hframe
    reachable := hframe.reachable
    defaults := h.defaults.trans hframe.targetDefaults.symm
    targetEmpty := fun hdirectory => ?_
    tempNoDirectory := ?_
    targetFree := fun a ha f => ?_
    tempFree := fun a ha f => ?_
    comparable := ?_ }
  · rw [hholds, htarget.copied] at hdirectory
    refine Bool.eq_false_iff.2 fun hbelow => ?_
    obtain ⟨k, hbelow, hthere⟩ := Tree.hasBelow_iff.1 hbelow
    have hsame : after.target.get? k = init.target.get? k := by
      rw [hholds, htarget.copied_below hbelow]
    exact hthere (hsame.trans (Tree.get?_of_hasBelow (h.targetEmpty hdirectory) hbelow))
  · rw [hholds, htemp.copied]
    exact h.tempNoDirectory
  · rw [hholds]
    refine copied_free ?_ (h.targetFree a ha) f
    rintro rfl
    exact htarget.target.symm.not_mem ha
  · rw [hholds]
    refine copied_free ?_ (h.tempFree a ha) f
    rintro rfl
    exact htemp.target.symm.not_mem ha
  · rw [hframe.sourceKind, hframe.targetKind, hframe.targetDefaults]
    exact h.comparable

/-- What stands where after two independent copies does not depend on their order. -/
theorem copied_commute {first second : CopyJob} {store middle middle' : MemoryStore}
    {content content' : Bytes} (hindependent : first.Independent second)
    (hfirst : Holds middle (first.copied store content))
    (hsecond : Holds middle' (second.copied store content'))
    (hdefaults : middle.defaults = store.defaults) (hdefaults' : middle'.defaults = store.defaults)
    (k : Key) : second.copied middle content' k = first.copied middle' content k := by
  have hsymm := hindependent.symm
  by_cases htarget : k = first.target.key
  · rw [htarget, hsymm.spares_target.copied, hfirst, copied_target, copied_target, hdefaults']
  by_cases htarget' : k = second.target.key
  · rw [htarget', hindependent.spares_target.copied, hsecond, copied_target, copied_target,
      hdefaults]
  by_cases htemp : k = first.temp.key
  · rw [htemp, hsymm.spares_temp.copied, hfirst, copied_temp hindependent.own.1,
      copied_temp hindependent.own.1]
  by_cases htemp' : k = second.temp.key
  · rw [htemp', hindependent.spares_temp.copied, hsecond, copied_temp hsymm.own.1,
      copied_temp hsymm.own.1]
  -- everywhere else both orders make a directory where one is missing above one of the four places
  unfold copied
  rw [if_neg htarget, if_neg htarget', if_neg htemp, if_neg htemp', hfirst, hsecond]
  unfold copied
  rw [if_neg htarget, if_neg htarget', if_neg htemp, if_neg htemp']
  by_cases hthere : store.get? k = none
  · simp only [hthere, and_true]
    split <;> split <;> simp_all
  · simp [hthere]

end CopyJob

/-! ## The theorem -/

/-- One attempt after another. -/
def copyBoth (bound : Nat) (first second : CopyJob) :
    Program (Except CopyError Nat × Except CopyError Nat) := do
  let one ← copyOnce bound first
  let other ← copyOnce bound second
  pure (one, other)

/-- The job is for a file of the source store and for the target store, whose defaults it knows,
and its target is spelled in normal form. -/
structure CopyJob.Suits (job : CopyJob) (init : StorePair) (file : MemoryFile) : Prop where
  source : init.source.get? job.source.path.key = some (.file file)
  normal : job.target.lexicallyNormal = job.target
  defaults : job.defaults = init.target.defaults

/-- A job that succeeds alone and is independent of another has its buffer and is hindered by
nothing. -/
theorem CopyJob.Suits.unhindered {ε : Type} {surroundings : Handler ε} {e : ε} {bound n : Nat}
    {job other : CopyJob} {init : StorePair} {file : MemoryFile} (h : job.Suits init file)
    (hreachable : init.target.Reachable) (hindependent : job.Independent other)
    (hrun : (Program.run (StorePair.serving surroundings) (copyOnce bound job) (init, e)).1
      = .done (.ok n)) :
    job.plan.bufferTrouble? = none ∧ job.Unhindered init file ∧
      n = wrap64 file.content.length := by
  have hown := hindependent.own
  have hfits : job.Fits init file :=
    { source := h.source
      reachable := hreachable
      normal := h.normal
      unended := unended_of_ok hindependent.target_ne_root hrun
      apart := hown.1
      notAbove := hown.2.1 }
  exact unhindered_of_ok hfits h.defaults hown.2.2 hrun

/-- When nothing hinders either of two independent jobs, both succeed one after the other. -/
theorem run_copyBoth {ε : Type} (surroundings : Handler ε) (e : ε) {bound : Nat}
    {first second : CopyJob} {init : StorePair} {file other : MemoryFile}
    (hfirst : first.Unhindered init file) (hsecond : second.Unhindered init other)
    (hbuffer : first.plan.bufferTrouble? = none) (hbuffer' : second.plan.bufferTrouble? = none)
    (hindependent : first.Independent second) (hbound : file.content.length < bound)
    (hbound' : other.content.length < bound) :
    ∃ (middle : StorePair) (final : StorePair × ε),
      Program.run (StorePair.serving surroundings) (copyBoth bound first second) (init, e)
        = (.done (.ok (wrap64 file.content.length), .ok (wrap64 other.content.length)), final) ∧
      StorePair.Frame init middle ∧ StorePair.Frame middle final.1 ∧
      Holds middle.target (first.copied init.target file.content) ∧
      Holds final.1.target (second.copied middle.target other.content) := by
  obtain ⟨middle, hrun, hframe, hholds⟩ := smooth_run surroundings e hfirst hbuffer hbound
  have hafter := hsecond.after hframe hholds hindependent
  obtain ⟨final, hrun', hframe', hholds'⟩ :=
    smooth_run surroundings middle.2 hafter hbuffer' hbound'
  refine ⟨middle.1, final, ?_, hframe, hframe', hholds, hholds'⟩
  show Program.run _ ((copyOnce bound first).bind _) _ = _
  rw [Program.run_bind, hrun]
  show Program.run _ ((copyOnce bound second).bind _) _ = _
  rw [Program.run_bind, hrun']
  rfl

/-- Two copies of files of one store to another, each of which succeeds alone, whose targets and
temporary files stand at four places that have nothing to do with one another, succeed in either
order as they do alone, whatever the clock shows and the task answers, and the same target store is
left, with both files in it. -/
theorem copies_commute {ε δ : Type} (surroundings : Handler ε) (e : ε) (alone : Handler δ) (d : δ)
    {bound n m : Nat} {first second : CopyJob} {init : StorePair} {file other : MemoryFile}
    (hreachable : init.target.Reachable) (hfirst : first.Suits init file)
    (hsecond : second.Suits init other) (hindependent : first.Independent second)
    (hbound : file.content.length < bound) (hbound' : other.content.length < bound)
    (halone : (Program.run (StorePair.serving alone) (copyOnce bound first) (init, d)).1
      = .done (.ok n))
    (halone' : (Program.run (StorePair.serving alone) (copyOnce bound second) (init, d)).1
      = .done (.ok m)) :
    ∃ forth back : StorePair × ε,
      Program.run (StorePair.serving surroundings) (copyBoth bound first second) (init, e)
        = (.done (.ok n, .ok m), forth) ∧
      Program.run (StorePair.serving surroundings) (copyBoth bound second first) (init, e)
        = (.done (.ok m, .ok n), back) ∧
      forth.1.target.checksumKind = back.1.target.checksumKind ∧
      forth.1.target.defaults = back.1.target.defaults ∧
      (∀ k, forth.1.target.get? k = back.1.target.get? k) ∧
      forth.1.target.get? first.target.key
        = some (.file ⟨file.content, first.copiedLayout init.target.defaults⟩) ∧
      forth.1.target.get? second.target.key
        = some (.file ⟨other.content, second.copiedLayout init.target.defaults⟩) := by
  have hsymm := hindependent.symm
  obtain ⟨hbuffer, hfree, rfl⟩ := hfirst.unhindered hreachable hindependent halone
  obtain ⟨hbuffer', hfree', rfl⟩ := hsecond.unhindered hreachable hsymm halone'
  obtain ⟨middle, forth, hforth, hbegin, hend, hmiddle, hlast⟩ :=
    run_copyBoth surroundings e hfree hfree' hbuffer hbuffer' hindependent hbound hbound'
  obtain ⟨middle', back, hback, hbegin', hend', hmiddle', hlast'⟩ :=
    run_copyBoth surroundings e hfree' hfree hbuffer' hbuffer hsymm hbound' hbound
  refine ⟨forth, back, hforth, hback, ?_, ?_, fun k => ?_, ?_, ?_⟩
  · rw [hend.targetKind, hbegin.targetKind, hend'.targetKind, hbegin'.targetKind]
  · rw [hend.targetDefaults, hbegin.targetDefaults, hend'.targetDefaults, hbegin'.targetDefaults]
  · rw [hlast, hlast']
    exact CopyJob.copied_commute hindependent hmiddle hmiddle' hbegin.targetDefaults
      hbegin'.targetDefaults k
  · rw [hlast, hsymm.spares_target.copied, hmiddle, CopyJob.copied_target]
  · rw [hlast, CopyJob.copied_target, hbegin.targetDefaults]

/-- A job beside the small one, in the same directory. -/
def siblingJob : CopyJob := { smallJob with target := utf8 "d/u", attemptId := utf8 "8" }

theorem copies_commute_small :
    smallJob.Independent siblingJob ∧
    (Program.run (StorePair.serving (obliging 0)) (copyOnce 4 smallJob) (smallStores, [])).1
      = .done (.ok 3) ∧
    (Program.run (StorePair.serving (obliging 0)) (copyOnce 4 siblingJob) (smallStores, [])).1
      = .done (.ok 3) ∧
    ∃ forth back : StorePair × List Bytes,
      Program.run (StorePair.serving (obliging 0)) (copyBoth 4 smallJob siblingJob)
        (smallStores, []) = (.done (.ok 3, .ok 3), forth) ∧
      Program.run (StorePair.serving (obliging 0)) (copyBoth 4 siblingJob smallJob)
        (smallStores, []) = (.done (.ok 3, .ok 3), back) ∧
      ∀ k, forth.1.target.get? k = back.1.target.get? k := by
  have hindependent : smallJob.Independent siblingJob := by decide +kernel
  have halone : (Program.run (StorePair.serving (obliging 0)) (copyOnce 4 smallJob)
      (smallStores, [])).1 = .done (.ok 3) := by decide +kernel
  have halone' : (Program.run (StorePair.serving (obliging 0)) (copyOnce 4 siblingJob)
      (smallStores, [])).1 = .done (.ok 3) := by decide +kernel
  have hfirst : smallJob.Suits smallStores ⟨utf8 "abc", ⟨1, 64⟩⟩ :=
    ⟨by decide +kernel, by decide +kernel, rfl⟩
  have hsecond : siblingJob.Suits smallStores ⟨utf8 "abc", ⟨1, 64⟩⟩ :=
    ⟨by decide +kernel, by decide +kernel, rfl⟩
  have hbound : (utf8 "abc").length < 4 := by decide +kernel
  obtain ⟨forth, back, hforth, hback, -, -, hsame, -⟩ := copies_commute (obliging 0) [] (obliging 0)
    [] (.new _ _) hfirst hsecond hindependent hbound hbound halone halone'
  exact ⟨hindependent, halone, halone', forth, back, hforth, hback, hsame⟩

end StagedCopy
