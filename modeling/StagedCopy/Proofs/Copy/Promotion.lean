import StagedCopy.Proofs.Copy.Shared

/-!
# Publishing is all or nothing

Publishing removes what stands at the target before it knows that the directories above it can be
made and that the rename will succeed. In a store in memory that answers every call this does no
harm: what could be removed had directories above it already, so nothing that comes after the
removal can fail. What can fail fails before anything is changed.

* `MemoryStore.Receives` — a file can be brought to a place.
* `MemoryStore.moved` — what stands where once a file was brought to another place.
* `promoteVacant` — what is left of publishing when nothing stands at the target; `run_promote`,
  `run_promoteVacant` — publishing in terms of what the store answers.
* `run_promote_receives`, `run_promote_refuses` — when publishing succeeds and when it does not.
* `promotion_all_or_nothing` — the theorem.
-/

namespace StagedCopy

open Program (Handler)

/-! ## Places that can receive a file -/

namespace MemoryStore

/-- A file can be brought to a place: it is not the root, no directory with something in it stands
there, and no file is above it. -/
structure Receives (store : MemoryStore) (k : Key) : Prop where
  ne_root : k ≠ []
  empty : store.get? k = some .directory → store.tree.hasBelow k = false
  free : ∀ a ∈ k.properAncestors, ∀ f, store.get? a ≠ some (.file f)

/-- What stands where once a file was brought from one place to another: the file at the new place,
whatever stood there, nothing at the old one, and directories where they were missing above the
new one. -/
def moved (store : MemoryStore) (source target : Key) (file : MemoryFile) (k : Key) :
    Option (Node MemoryFile) :=
  if k = target then some (.file file)
  else if k = source then none
  else if k.isAbove target ∧ store.get? k = none then some .directory
  else store.get? k

/-- The store with another tree. -/
def withTree (store : MemoryStore) (tree : Tree MemoryFile) : MemoryStore :=
  { store with tree := tree }

@[simp] theorem get?_withTree (store : MemoryStore) (tree : Tree MemoryFile) (k : Key) :
    (store.withTree tree).get? k = tree.get? k :=
  rfl

variable {store : MemoryStore} {k : Key} {path source target : Path} {file : MemoryFile}

/-- With no file above a place, its parent is a directory or is missing. -/
theorem parent_of_free
    (hfree : ∀ a ∈ k.properAncestors, ∀ f, store.get? a ≠ some (.file f)) :
    store.get? k.parent = none ∨ store.get? k.parent = some .directory := by
  cases hparent : store.get? k.parent with
  | none => exact .inl rfl
  | some node =>
    cases node with
    | directory => exact .inr rfl
    | file f =>
      have habove := Key.mem_properAncestors_iff_parent.2 ⟨ne_root_of_file hparent, .inl rfl⟩
      exact absurd hparent (hfree _ habove f)

/-- A file or an empty directory can be removed, and nothing else goes. -/
theorem remove_served {node : Node MemoryFile} (hroot : path.key ≠ [])
    (hnode : store.get? path.key = some node)
    (hempty : node = .directory → store.tree.hasBelow path.key = false) :
    ∃ tree, store.perform (.remove path false) = (.ok (), store.withTree tree) ∧
      ∀ k, tree.get? k = if k = path.key then none else store.get? k := by
  refine ⟨_, conclude_eq_ok.2 (remove_eq_ok.2 ⟨hroot, ⟨node, hnode, hempty⟩, rfl⟩), ?_⟩
  intro k
  exact get?_erase hroot

/-- What stands at a place that can receive a file can be removed, and then nothing stands there; no
file is above it still. -/
theorem Receives.cleared {node : Node MemoryFile} (hreceives : store.Receives path.key)
    (hreachable : store.Reachable) (hnode : store.get? path.key = some node) :
    ∃ tree, store.perform (.remove path false) = (.ok (), store.withTree tree) ∧
      tree.WellFormed ∧
      (∀ a ∈ path.key.properAncestors, ∀ f, tree.get? a ≠ some (.file f)) ∧
      ∀ k, tree.get? k = if k = path.key then none else store.get? k := by
  have hempty : node = .directory → store.tree.hasBelow path.key = false := by
    rintro rfl
    exact hreceives.empty hnode
  obtain ⟨tree, hremove, hview⟩ := remove_served hreceives.ne_root hnode hempty
  have hwell := (Reachable.call (.remove path false) hreachable).wellFormed
  rw [hremove] at hwell
  refine ⟨tree, hremove, hwell, fun a ha f => ?_, hview⟩
  rw [hview]
  split
  · exact nofun
  · exact hreceives.free a ha f

/-- With no file on the way, a directory is made with all that is missing above it. -/
theorem makeDirs_served
    (hfree : ∀ a, (a = path.key ∨ a ∈ path.key.properAncestors) →
      ∀ f, store.get? a ≠ some (.file f)) :
    ∃ tree, store.perform (.makeDirs path) = (.ok (), store.withTree tree) ∧
      ∀ k, tree.get? k =
        if (k = path.key ∨ k ∈ path.key.properAncestors) ∧ store.get? k = none then
          some .directory
        else store.get? k := by
  refine ⟨_, conclude_eq_ok.2 (makeDirs_eq_ok.2 ⟨hfree, rfl⟩), ?_⟩
  intro k
  exact get?_makeDirs

/-- A file goes to where nothing stands in a directory. -/
theorem rename_served (hfile : store.get? source.key = some (.file file))
    (hvacant : store.get? target.key = none)
    (hparent : store.get? target.key.parent = some .directory) :
    ∃ tree, store.perform (.rename source target) = (.ok (), store.withTree tree) ∧
      ∀ k, tree.get? k =
        if k = target.key then some (.file file)
        else if k = source.key then none
        else store.get? k := by
  refine ⟨_, conclude_eq_ok.2 (rename_eq_ok.2 ⟨file, hfile, hvacant, hparent, rfl⟩), ?_⟩
  intro k
  exact get?_rename (ne_root_of_file hfile) (ne_root_of_none hvacant)

end MemoryStore

/-! ## Publishing in a store that answers -/

section runs

variable {ε α : Type} (surroundings : Handler ε) (e : ε) (store : MemoryStore)

/-- After a call a program goes on with the value, from the store that the call leaves, unless the
call failed. -/
theorem run_call_bind (call : StorageCall) (failure : Bytes → CopyFailure)
    (next : call.Value → Fallible α) :
    Program.run (MemoryStore.sharing surroundings)
        (Fallible.call .target call failure >>= next).run (store, e)
      = match store.perform call with
        | (.ok value, after) =>
          Program.run (MemoryStore.sharing surroundings) (next value).run (after, e)
        | (.error message, after) => (.done (.error (failure message)), after, e) := by
  show Program.run _ (Program.ask (.storage .target call) _) (store, e) = _
  rw [Program.run]
  simp only [MemoryStore.sharing]
  rcases store.perform call with ⟨answer, after⟩
  cases answer with
  | ok value => rfl
  | error message => rfl

/-- A program that is one call ends with what the store answers. -/
theorem run_call (call : StorageCall) (failure : Bytes → CopyFailure) :
    Program.run (MemoryStore.sharing surroundings) (Fallible.call .target call failure).run
        (store, e)
      = (.done ((store.perform call).1.mapError failure), (store.perform call).2, e) := by
  have hlast := run_call_bind surroundings e store call failure pure
  rw [bind_pure] at hlast
  rw [hlast]
  rcases store.perform call with ⟨answer, after⟩
  cases answer with
  | ok value => rfl
  | error message => rfl

/-- What is left of publishing once nothing stands at the target. -/
def promoteVacant (temp target : Path) : Fallible Unit := do
  let failure (step : PromotionStep) (message : Bytes) : CopyFailure :=
    .promotion step temp target message
  let parent := target.parent
  unless parent.isEmpty do
    let housed : Bool ← Fallible.call .target (.pathExists parent) (failure .createParent)
    unless housed do
      Fallible.call .target (.makeDirs parent) (failure .createParent)
  Fallible.call .target (.rename temp target) (failure .rename)

/-- Publishing clears the place of the target, if something stands there, and goes on from what
that leaves. -/
theorem run_promote (temp target : Path) :
    Program.run (MemoryStore.sharing surroundings) (promote temp target).run (store, e)
      = if store.pathExists target then
          match store.perform (.remove target false) with
          | (.ok _, after) =>
            Program.run (MemoryStore.sharing surroundings) (promoteVacant temp target).run
              (after, e)
          | (.error message, after) =>
            (.done (.error (.promotion .deleteExisting temp target message)), after, e)
        else
          Program.run (MemoryStore.sharing surroundings) (promoteVacant temp target).run
            (store, e) := by
  refine (run_call_bind surroundings e store (.pathExists target) _ _).trans ?_
  show Program.run _ (ite (store.pathExists target = true) _ _) _ = _
  split
  · refine (run_call_bind surroundings e store (.remove target false) _ _).trans ?_
    rcases store.perform (.remove target false) with ⟨answer, after⟩
    cases answer with
    | ok => rfl
    | error message => rfl
  · rfl

/-- Where nothing stands, publishing makes the directory of the target when it is missing, and goes
on to the rename. -/
theorem run_promoteVacant (temp target : Path) :
    Program.run (MemoryStore.sharing surroundings) (promoteVacant temp target).run (store, e)
      = if target.parent.isEmpty || store.pathExists target.parent then
          (.done ((store.perform (.rename temp target)).1.mapError
            (.promotion .rename temp target)), (store.perform (.rename temp target)).2, e)
        else
          match store.perform (.makeDirs target.parent) with
          | (.ok _, after) =>
            (.done ((after.perform (.rename temp target)).1.mapError
              (.promotion .rename temp target)), (after.perform (.rename temp target)).2, e)
          | (.error message, after) =>
            (.done (.error (.promotion .createParent temp target message)), after, e) := by
  show Program.run _ (ite (target.parent.isEmpty = true) _ _) _ = _
  cases target.parent.isEmpty with
  | true => exact run_call surroundings e store (.rename temp target) _
  | false =>
    refine (run_call_bind surroundings e store (.pathExists target.parent) _ _).trans ?_
    show Program.run _ (ite (store.pathExists target.parent = true) _ _) _ = _
    cases store.pathExists target.parent with
    | true => exact run_call surroundings e store (.rename temp target) _
    | false =>
      refine (run_call_bind surroundings e store (.makeDirs target.parent) _ _).trans ?_
      rcases store.perform (.makeDirs target.parent) with ⟨answer, after⟩
      cases answer with
      | ok => exact run_call surroundings e after (.rename temp target) _
      | error message => rfl

end runs

/-! ## Where nothing stands -/

section vacant

variable {ε : Type} (surroundings : Handler ε) (e : ε) {store : MemoryStore} {temp target : Path}
  {file : MemoryFile} (hwell : store.tree.WellFormed)
  (hparent : target.parent.key = target.key.parent) (hvacant : store.get? target.key = none)
include hwell hparent hvacant

/-- With no file above the target, publishing succeeds. -/
theorem run_promoteVacant_free (htemp : store.get? temp.key = some (.file file))
    (hfree : ∀ a ∈ target.key.properAncestors, ∀ f, store.get? a ≠ some (.file f)) :
    ∃ tree, Program.run (MemoryStore.sharing surroundings) (promoteVacant temp target).run
        (store, e) = (.done (.ok ()), store.withTree tree, e) ∧
      ∀ k, tree.get? k = store.moved temp.key target.key file k := by
  have hroot : target.key ≠ [] := MemoryStore.ne_root_of_none hvacant
  have hplace (k : Key) : k ∈ target.key.properAncestors ↔
      k ≠ [] ∧ (k = target.parent.key ∨ k ∈ target.parent.key.properAncestors) := by
    rw [hparent]
    exact Key.mem_properAncestors_iff_parent
  rw [run_promoteVacant]
  rcases MemoryStore.parent_of_free hfree with hmissing | hdirectory
  · -- the directory of the target is made, and then the file goes there
    have hnamed : target.parent.isEmpty = false := by
      rw [Bool.eq_false_iff]
      intro hempty
      rw [← hparent, List.isEmpty_iff.1 hempty] at hmissing
      cases hmissing.symm.trans (Tree.get?_root store.tree)
    have hunhoused : store.pathExists target.parent = false := by
      simp [MemoryStore.pathExists, hparent, hmissing]
    have hway : ∀ a, (a = target.parent.key ∨ a ∈ target.parent.key.properAncestors) →
        ∀ f, store.get? a ≠ some (.file f) := by
      intro a ha f hfile
      exact hfree a ((hplace a).2 ⟨MemoryStore.ne_root_of_file hfile, ha⟩) f hfile
    obtain ⟨housed, hmade, hhoused⟩ := MemoryStore.makeDirs_served hway
    -- seen from the target, the directories above it are there now, and all else is as it was
    have hview (k : Key) : housed.get? k =
        if k ∈ target.key.properAncestors ∧ store.get? k = none then some .directory
        else store.get? k := by
      rw [hhoused]
      by_cases hk : k = []
      · have hget : store.get? k = some .directory := by
          rw [hk]
          exact Tree.get?_root store.tree
        simp [hget]
      · simp [hplace, hk]
    have htemp' : (store.withTree housed).get? temp.key = some (.file file) := by
      simp [hview, htemp]
    have hvacant' : (store.withTree housed).get? target.key = none := by
      simp [hview, hvacant, Key.not_mem_properAncestors_self]
    have hdirectory : (store.withTree housed).get? target.key.parent = some .directory := by
      simp [hhoused, hparent, hmissing]
    obtain ⟨tree, hrename, hget⟩ := MemoryStore.rename_served htemp' hvacant' hdirectory
    refine ⟨tree, ?_, ?_⟩
    · rw [hnamed, hunhoused, if_neg (by decide), hmade]
      show (Program.Outcome.done
        (((store.withTree housed).perform (.rename temp target)).1.mapError _), _, _) = _
      rw [hrename]
      rfl
    · intro k
      rw [hget, MemoryStore.moved, MemoryStore.get?_withTree, hview]
      simp only [MemoryStore.missing_above_iff]
  · -- the directory of the target is there, and so is all above it
    obtain ⟨tree, hrename, hget⟩ := MemoryStore.rename_served htemp hvacant hdirectory
    have hhoused : store.pathExists target.parent = true := by
      simp [MemoryStore.pathExists, hparent, hdirectory]
    refine ⟨tree, ?_, ?_⟩
    · rw [hhoused, Bool.or_true, if_pos rfl, hrename]
      rfl
    · intro k
      rw [hget, MemoryStore.moved]
      simp only [MemoryStore.missing_above_iff]
      by_cases habove : k ∈ target.key.properAncestors
      · have hthere : store.get? k = some .directory := hwell.above_of_parent hdirectory habove
        simp [hthere]
      · simp [habove]

omit hparent in
/-- With a file above the target, publishing fails and changes nothing. -/
theorem run_promoteVacant_blocked {a : Key} {f : MemoryFile}
    (ha : a ∈ target.key.properAncestors) (hf : store.get? a = some (.file f)) :
    ∃ failure, Program.run (MemoryStore.sharing surroundings) (promoteVacant temp target).run
      (store, e) = (.done (.error failure), store, e) := by
  have hroot : target.key ≠ [] := MemoryStore.ne_root_of_none hvacant
  have hundirected : store.get? target.key.parent ≠ some .directory := by
    intro hdirectory
    have habove := hwell.above_of_parent hdirectory ha
    cases hf.symm.trans habove
  rw [run_promoteVacant]
  split
  · -- a file stands at the place of the directory
    obtain ⟨message, hrefused⟩ : ∃ message, store.perform (.rename temp target)
        = (.error message, store) := by
      apply MemoryStore.conclude_refused
      intro result hresult
      obtain ⟨-, -, -, hdirectory, -⟩ := MemoryStore.rename_eq_ok.1 hresult
      exact hundirected hdirectory
    rw [hrefused]
    exact ⟨_, rfl⟩
  · -- nothing stands at the place of the directory, and it cannot be made
    obtain ⟨message, hrefused⟩ : ∃ message, store.perform (.makeDirs target.parent)
        = (.error message, store) := by
      apply MemoryStore.conclude_refused
      intro result hresult
      -- however the target is spelled, its parent leads through all that is above it
      obtain ⟨hne, hbegins⟩ := Key.mem_properAncestors_iff_begins.1 ha
      have hway := (Key.begins_iff hne).1 (hbegins.trans (Path.parent_begins hroot))
      exact (MemoryStore.makeDirs_eq_ok.1 hresult).1 a hway f hf
    rw [hrefused]
    exact ⟨_, rfl⟩

end vacant

/-! ## The theorem -/

section promotion

variable {ε : Type} (surroundings : Handler ε) (e : ε) {store : MemoryStore} {temp target : Path}
  {file : MemoryFile} (hreachable : store.Reachable)
  (hparent : target.key ≠ [] → target.parent.key = target.key.parent)
include hreachable hparent

/-- At a place that can receive it, a file is published. -/
theorem run_promote_receives (htemp : store.get? temp.key = some (.file file))
    (hapart : target.key ≠ temp.key) (hreceives : store.Receives target.key) :
    ∃ tree, Program.run (MemoryStore.sharing surroundings) (promote temp target).run (store, e)
        = (.done (.ok ()), store.withTree tree, e) ∧
      ∀ k, tree.get? k = store.moved temp.key target.key file k := by
  have hroot := hreceives.ne_root
  rw [run_promote]
  cases htarget : store.get? target.key with
  | none =>
    have habsent : store.pathExists target = false := by
      simp [MemoryStore.pathExists, htarget]
    rw [habsent, if_neg Bool.false_ne_true]
    exact run_promoteVacant_free surroundings e hreachable.wellFormed (hparent hroot) htarget
      htemp hreceives.free
  | some node =>
    have hthere : store.pathExists target = true := by
      simp [MemoryStore.pathExists, htarget]
    obtain ⟨cleared, hremove, hwell, hfree, hview⟩ := hreceives.cleared hreachable htarget
    -- what is left is a store in which nothing stands at the target
    have hvacant : (store.withTree cleared).get? target.key = none := by
      simp [hview]
    have htemp' : (store.withTree cleared).get? temp.key = some (.file file) := by
      simp [hview, Ne.symm hapart, htemp]
    obtain ⟨tree, hrun, hget⟩ := run_promoteVacant_free surroundings e hwell (hparent hroot)
      hvacant htemp' hfree
    refine ⟨tree, ?_, ?_⟩
    · rw [hthere, if_pos rfl, hremove]
      exact hrun
    · intro k
      rw [hget, MemoryStore.moved, MemoryStore.moved, MemoryStore.get?_withTree, hview]
      by_cases hk : k = target.key
      · simp [hk]
      · simp [hk]

omit hparent in
/-- At a place that cannot receive it, a file is not published, and nothing is changed. -/
theorem run_promote_refuses (hrefuses : ¬ store.Receives target.key) :
    ∃ failure, Program.run (MemoryStore.sharing surroundings) (promote temp target).run (store, e)
      = (.done (.error failure), store, e) := by
  rw [run_promote]
  cases htarget : store.get? target.key with
  | none =>
    have hroot : target.key ≠ [] := MemoryStore.ne_root_of_none htarget
    have habsent : store.pathExists target = false := by
      simp [MemoryStore.pathExists, htarget]
    rw [habsent, if_neg Bool.false_ne_true]
    obtain ⟨a, ha, f, hf⟩ : ∃ a ∈ target.key.properAncestors, ∃ f,
        store.get? a = some (.file f) := by
      by_contra hnone
      push Not at hnone
      exact hrefuses ⟨hroot, by simp [htarget], hnone⟩
    exact run_promoteVacant_blocked surroundings e hreachable.wellFormed htarget ha hf
  | some node =>
    have hthere : store.pathExists target = true := by
      simp [MemoryStore.pathExists, htarget]
    have hsome : store.tree.get? target.key ≠ none := by
      intro hnone
      cases htarget.symm.trans hnone
    -- what is above something that stands there is no file
    have hfree : ∀ a ∈ target.key.properAncestors, ∀ f, store.get? a ≠ some (.file f) := by
      intro a ha f hf
      cases hf.symm.trans (hreachable.wellFormed.above hsome ha)
    obtain ⟨message, hrefused⟩ : ∃ message, store.perform (.remove target false)
        = (.error message, store) := by
      apply MemoryStore.conclude_refused
      intro result hresult
      obtain ⟨hroot, ⟨other, hother, hempty⟩, -⟩ := MemoryStore.remove_eq_ok.1 hresult
      refine hrefuses ⟨hroot, fun hdirectory => hempty ?_, hfree⟩
      exact Option.some.inj (hother.symm.trans hdirectory)
    rw [hthere, if_pos rfl, hrefused]
    exact ⟨_, rfl⟩

end promotion

/-- In a store in memory that can come to be and that answers every call, a file that stands at the
temporary path is published to a target that is spelled in normal form without a separator at the
end and that is another place. Either the target can receive it; then publishing succeeds, and the
file stands at the target instead of at the temporary path, with directories above it where they
were missing, and nothing else has changed. Or publishing fails, and the store is the one that it
was. -/
theorem promotion_all_or_nothing {ε : Type} (surroundings : Handler ε) (e : ε)
    {store : MemoryStore} {temp target : Path} {file : MemoryFile} (hreachable : store.Reachable)
    (htemp : store.get? temp.key = some (.file file)) (hnormal : target.lexicallyNormal = target)
    (hunended : target.endsInSlash = false) (hapart : target.key ≠ temp.key) :
    ∃ outcome after, Program.run (MemoryStore.sharing surroundings) (promote temp target).run
        (store, e) = (.done outcome, after, e) ∧
      ((store.Receives target.key ∧ outcome = .ok () ∧ ∃ tree, after = store.withTree tree ∧
          ∀ k, tree.get? k = store.moved temp.key target.key file k) ∨
        (¬ store.Receives target.key ∧ (∃ failure, outcome = .error failure) ∧
          after = store)) := by
  have hparent : target.key ≠ [] → target.parent.key = target.key.parent :=
    Path.key_parent hnormal hunended
  by_cases hreceives : store.Receives target.key
  · obtain ⟨tree, hrun, hget⟩ :=
      run_promote_receives surroundings e hreachable hparent htemp hapart hreceives
    exact ⟨_, _, hrun, .inl ⟨hreceives, rfl, tree, rfl, hget⟩⟩
  · obtain ⟨failure, hrun⟩ : ∃ failure, Program.run (MemoryStore.sharing surroundings)
        (promote temp target).run (store, e) = (.done (.error failure), store, e) :=
      run_promote_refuses surroundings e hreachable hreceives
    exact ⟨_, _, hrun, .inr ⟨hreceives, ⟨failure, rfl⟩, rfl⟩⟩

theorem promotion_all_or_nothing_small :
    crowdedStore.get? [utf8 ".dcp.tmp.7"] = some (.file ⟨utf8 "old", ⟨1, 64⟩⟩) ∧
    crowdedStore.get? [utf8 "s"] = some (.file ⟨utf8 "abc", ⟨1, 64⟩⟩) ∧
    ∃ tree, Program.run (MemoryStore.sharing (obliging 0))
        (promote (utf8 ".dcp.tmp.7") (utf8 "s")).run (crowdedStore, [])
        = (.done (.ok ()), crowdedStore.withTree tree, []) ∧
      tree.get? [utf8 "s"] = some (.file ⟨utf8 "old", ⟨1, 64⟩⟩) ∧
      tree.get? [utf8 ".dcp.tmp.7"] = none := by
  have htemp : crowdedStore.get? (Path.key (utf8 ".dcp.tmp.7"))
      = some (.file ⟨utf8 "old", ⟨1, 64⟩⟩) := by decide +kernel
  have htarget : crowdedStore.get? (Path.key (utf8 "s"))
      = some (.file ⟨utf8 "abc", ⟨1, 64⟩⟩) := by decide +kernel
  have hnormal : Path.lexicallyNormal (utf8 "s") = utf8 "s" := by decide +kernel
  have hreceives : crowdedStore.Receives (Path.key (utf8 "s")) := by
    have htop : (Path.key (utf8 "s")).properAncestors = [] := by decide +kernel
    refine ⟨by decide +kernel, by decide +kernel, ?_⟩
    intro a ha
    rw [htop] at ha
    cases ha
  obtain ⟨outcome, after, hrun, ⟨-, rfl, tree, rfl, hget⟩ | ⟨hrefuses, -, -⟩⟩ :=
    promotion_all_or_nothing (obliging 0) [] crowdedStore_reachable htemp hnormal
      (by decide +kernel) (by decide +kernel)
  · refine ⟨htemp, htarget, tree, hrun, ?_, ?_⟩
    · exact (hget _).trans (by decide +kernel)
    · exact (hget _).trans (by decide +kernel)
  · exact absurd hreceives hrefuses

end StagedCopy
