import StagedCopy.Proofs.Copy.Promotion
import StagedCopy.Proofs.Path.Canonical

/-!
# The spelling of a target

A store reads a target from the root, so that only the place matters that it leads to. Publishing
makes the directory of the target from the spelling alone. For most spellings the two agree, and
publishing to the target is publishing to the place that it names. A target that names a directory
by its spelling, since it ends in a separator, in `.` or in `..`, is itself that directory to the
spelling: what stands at the target is removed, a directory is made there instead, and the rename
finds the place taken.

* `run_promote_respelled` — publishing sees of a target the place that it leads to and the place
  that its parent leads to.
* `run_promote_astray` — publishing to a target whose parent leads to the target.
* `PublishesAlike` — publishing to either of two targets comes to the same.
* `publishesAlike_canonical_iff` — the theorem: which targets are published like their canonical
  spelling.
* `spelling_loses_target` — a target that is lost to its spelling.
-/

namespace StagedCopy

open Program (Handler)

/-! ## Places in place of paths -/

namespace MemoryStore

variable (store : MemoryStore) {path other : Path}

theorem pathExists_respelled (h : path.key = other.key) :
    store.pathExists path = store.pathExists other := by
  rw [pathExists, pathExists, h]

theorem remove_respelled (h : path.key = other.key) :
    store.perform (.remove path false) = store.perform (.remove other false) := by
  show store.conclude _ = store.conclude _
  rw [remove, remove, h]

theorem makeDirs_respelled (h : path.key = other.key) :
    store.perform (.makeDirs path) = store.perform (.makeDirs other) := by
  show store.conclude _ = store.conclude _
  rw [makeDirs, makeDirs, h]

theorem rename_respelled (source : Path) (h : path.key = other.key) :
    store.perform (.rename source path) = store.perform (.rename source other) := by
  show store.conclude _ = store.conclude _
  rw [rename, rename, h]

/-- A path without a parent stands in the root, which is there. -/
theorem housed_eq (path : Path) :
    (path.parent.isEmpty || store.pathExists path.parent) = store.pathExists path.parent := by
  cases hempty : path.parent.isEmpty with
  | false => rfl
  | true =>
    rw [List.isEmpty_iff.1 hempty]
    rfl

end MemoryStore

/-! ## Spellings of one place -/

section respelled

variable {ε : Type} (surroundings : Handler ε) (e : ε) (store : MemoryStore) (temp : Path)
  {target other : Path}

/-- Two runs that succeed or fail together and end in the same state, the messages apart. -/
def EndsAlike (result result' : Program.Outcome (Except CopyFailure Unit) × MemoryStore × ε) :
    Prop :=
  result.2 = result'.2 ∧ result.1.map Except.isOk = result'.1.map Except.isOk

theorem endsAlike_mapError (answer : Except Bytes Unit) (f g : Bytes → CopyFailure)
    (after : MemoryStore × ε) :
    EndsAlike (.done (answer.mapError f), after) (.done (answer.mapError g), after) := by
  cases answer <;> exact ⟨rfl, rfl⟩

/-- What ends like a success is one. -/
theorem EndsAlike.of_ok {after : MemoryStore × ε}
    {result : Program.Outcome (Except CopyFailure Unit) × MemoryStore × ε}
    (h : EndsAlike (.done (.ok ()), after) result) : result = (.done (.ok ()), after) := by
  obtain ⟨outcome, state⟩ := result
  obtain ⟨rfl, houtcome⟩ := h
  match outcome, houtcome with
  | .done (.ok ()), _ => rfl

variable (hkey : target.key = other.key) (hparent : target.parent.key = other.parent.key)
include hkey hparent

theorem run_promoteVacant_respelled :
    EndsAlike
      (Program.run (MemoryStore.sharing surroundings) (promoteVacant temp target).run (store, e))
      (Program.run (MemoryStore.sharing surroundings) (promoteVacant temp other).run
        (store, e)) := by
  rw [run_promoteVacant, run_promoteVacant, store.housed_eq, store.housed_eq,
    store.pathExists_respelled hparent]
  split
  · rw [store.rename_respelled temp hkey]
    exact endsAlike_mapError _ _ _ _
  · rw [store.makeDirs_respelled hparent]
    rcases store.perform (.makeDirs other.parent) with ⟨answer, after⟩
    cases answer with
    | ok =>
      simp only [after.rename_respelled temp hkey]
      exact endsAlike_mapError _ _ _ _
    | error message => exact ⟨rfl, rfl⟩

/-- Publishing sees of a target the place that it leads to and the place that its parent leads
to. -/
theorem run_promote_respelled :
    EndsAlike (Program.run (MemoryStore.sharing surroundings) (promote temp target).run (store, e))
      (Program.run (MemoryStore.sharing surroundings) (promote temp other).run (store, e)) := by
  rw [run_promote, run_promote, store.pathExists_respelled hkey]
  split
  · rw [store.remove_respelled hkey]
    rcases store.perform (.remove other false) with ⟨answer, after⟩
    cases answer with
    | ok => exact run_promoteVacant_respelled surroundings e after temp hkey hparent
    | error message => exact ⟨rfl, rfl⟩
  · exact run_promoteVacant_respelled surroundings e store temp hkey hparent

end respelled

/-! ## A target that is its own parent -/

section astray

variable {ε : Type} (surroundings : Handler ε) (e : ε) {store : MemoryStore} {temp target : Path}
  (hbegins : target.key <+: target.parent.key)
include hbegins

/-- Where nothing stands, a directory is made at the target on the way to its parent, and then the
rename finds the place taken. -/
theorem run_promoteVacant_astray (hwell : store.tree.WellFormed)
    (hvacant : store.get? target.key = none)
    (hfree : ∀ a ∈ target.key.properAncestors, ∀ f, store.get? a ≠ some (.file f)) :
    ∃ failure tree, Program.run (MemoryStore.sharing surroundings) (promoteVacant temp target).run
        (store, e) = (.done (.error failure), store.withTree tree, e) ∧
      tree.get? target.key = some .directory := by
  have hroot : target.key ≠ [] := MemoryStore.ne_root_of_none hvacant
  -- nothing stands at the target, so nothing stands below it
  have hbelow : ∀ k, target.key <+: k → store.get? k = none := by
    intro k hk
    by_contra hthere
    have hne : target.key ≠ k := by
      rintro rfl
      exact hthere hvacant
    cases hvacant.symm.trans (hwell.of_prefix hthere hk hne)
  have hunhoused : store.pathExists target.parent = false := by
    simp [MemoryStore.pathExists, hbelow _ hbegins]
  have hway : ∀ a, (a = target.parent.key ∨ a ∈ target.parent.key.properAncestors) →
      ∀ f, store.get? a ≠ some (.file f) := by
    intro a ha f hfile
    have hne : a ≠ [] := MemoryStore.ne_root_of_file hfile
    rcases List.prefix_or_prefix_of_prefix ((Key.begins_iff hne).2 ha) hbegins with habove | hk
    · rcases (Key.begins_iff hne).1 habove with rfl | hmem
      · cases hvacant.symm.trans hfile
      · exact hfree a hmem f hfile
    · cases (hbelow a hk).symm.trans hfile
  obtain ⟨housed, hmade, hhoused⟩ := MemoryStore.makeDirs_served hway
  have htaken : housed.get? target.key = some .directory := by
    rw [hhoused, if_pos ⟨(Key.begins_iff hroot).1 hbegins, hvacant⟩]
  obtain ⟨message, hrefused⟩ : ∃ message, (store.withTree housed).perform (.rename temp target)
      = (.error message, store.withTree housed) := by
    apply MemoryStore.conclude_refused
    intro result hresult
    obtain ⟨-, -, hfresh, -⟩ := MemoryStore.rename_eq_ok.1 hresult
    cases htaken.symm.trans hfresh
  refine ⟨.promotion .rename temp target message, housed, ?_, htaken⟩
  rw [run_promoteVacant, store.housed_eq, hunhoused, if_neg (by decide), hmade]
  show (Program.Outcome.done
    (((store.withTree housed).perform (.rename temp target)).1.mapError _), _, _) = _
  rw [hrefused]
  rfl

/-- At a place that can receive a file, publishing fails, and a directory stands there, whatever
stood there before. -/
theorem run_promote_astray (hreachable : store.Reachable) (hreceives : store.Receives target.key) :
    ∃ failure tree, Program.run (MemoryStore.sharing surroundings) (promote temp target).run
        (store, e) = (.done (.error failure), store.withTree tree, e) ∧
      tree.get? target.key = some .directory := by
  rw [run_promote]
  cases htarget : store.get? target.key with
  | none =>
    have habsent : store.pathExists target = false := by
      simp [MemoryStore.pathExists, htarget]
    rw [habsent, if_neg Bool.false_ne_true]
    exact run_promoteVacant_astray surroundings e hbegins hreachable.wellFormed htarget
      hreceives.free
  | some node =>
    have hthere : store.pathExists target = true := by
      simp [MemoryStore.pathExists, htarget]
    obtain ⟨cleared, hremove, hwell, hfree, hview⟩ := hreceives.cleared hreachable htarget
    have hvacant : (store.withTree cleared).get? target.key = none := by
      simp [hview]
    obtain ⟨failure, tree, hrun, htaken⟩ :=
      run_promoteVacant_astray surroundings e hbegins hwell hvacant hfree
    refine ⟨failure, tree, ?_, htaken⟩
    rw [hthere, if_pos rfl, hremove]
    exact hrun

end astray

/-! ## The theorem -/

section theorems

variable {ε : Type} (surroundings : Handler ε) (e : ε)

/-- Publishing to either of two targets comes to the same: it succeeds for both and leaves the same
store, in which the file stands at the place of the target, or it fails for both, and the store is
the one that it was. -/
def PublishesAlike (store : MemoryStore) (file : MemoryFile) (temp target other : Path) : Prop :=
  (∃ after,
    Program.run (MemoryStore.sharing surroundings) (promote temp target).run (store, e)
      = (.done (.ok ()), after, e) ∧
    Program.run (MemoryStore.sharing surroundings) (promote temp other).run (store, e)
      = (.done (.ok ()), after, e) ∧
    after.get? target.key = some (.file file)) ∨
  ∃ failure failure',
    Program.run (MemoryStore.sharing surroundings) (promote temp target).run (store, e)
      = (.done (.error failure), store, e) ∧
    Program.run (MemoryStore.sharing surroundings) (promote temp other).run (store, e)
      = (.done (.error failure'), store, e)

variable {store : MemoryStore} {file : MemoryFile} {temp target : Path}

/-- At a place that cannot receive a file, all spellings are refused. -/
theorem publishesAlike_of_refused {other : Path} (hreachable : store.Reachable)
    (hkey : other.key = target.key) (hrefuses : ¬ store.Receives target.key) :
    PublishesAlike surroundings e store file temp target other := by
  have hrefuses' : ¬ store.Receives other.key := by
    rw [hkey]
    exact hrefuses
  obtain ⟨failure, hrun⟩ := run_promote_refuses surroundings e hreachable hrefuses
  obtain ⟨failure', hrun'⟩ := run_promote_refuses surroundings e hreachable hrefuses'
  exact .inr ⟨failure, failure', hrun, hrun'⟩

/-- At a place that can receive a file, a target whose parent leads to the place above is published
like every other such spelling. -/
theorem publishesAlike_of_received {other : Path} (hreachable : store.Reachable)
    (htemp : store.get? temp.key = some (.file file)) (hapart : target.key ≠ temp.key)
    (hkey : target.key = other.key) (hparent : target.parent.key = target.key.parent)
    (hparent' : other.parent.key = target.key.parent) (hreceives : store.Receives target.key) :
    PublishesAlike surroundings e store file temp target other := by
  obtain ⟨tree, hrun, hget⟩ := run_promote_receives surroundings e hreachable
    (fun _ => hparent) htemp hapart hreceives
  have halike := run_promote_respelled surroundings e store temp hkey
    (hparent.trans hparent'.symm)
  rw [hrun] at halike
  refine .inl ⟨_, hrun, halike.of_ok, ?_⟩
  exact (hget _).trans (if_pos rfl)

end theorems

/-- A file is published to a target as it is to the canonical spelling of the place that the target
leads to exactly when the target does not name a directory by its spelling alone, or when the place
cannot receive the file. -/
theorem publishesAlike_canonical_iff {ε : Type} (surroundings : Handler ε) (e : ε)
    {store : MemoryStore} {file : MemoryFile} {temp target : Path} (hreachable : store.Reachable)
    (htemp : store.get? temp.key = some (.file file)) (hroot : target.key ≠ [])
    (hapart : target.key ≠ temp.key) :
    PublishesAlike surroundings e store file temp target target.key.text ↔
      (target.endsAsDirectory = false ∨ ¬ store.Receives target.key) := by
  have hcanonical := target.key_canonical
  have hkey : target.key.text.key = target.key := hcanonical.key_text
  have hparent : target.key.text.parent.key = target.key.parent := by
    rw [hcanonical.parent_text hroot, hcanonical.parent.key_text]
  by_cases hreceives : store.Receives target.key
  · cases hends : target.endsAsDirectory with
    | false =>
      have halike := publishesAlike_of_received surroundings e hreachable htemp hapart hkey.symm
        (Path.key_parent_of_named hends hroot) hparent hreceives
      simp [halike]
    | true =>
      -- the canonical spelling is published, and the target is not
      have hbegins := Path.begins_parent_of_endsAsDirectory hends hroot
      obtain ⟨failure, _, hrun, -⟩ : ∃ failure tree,
          Program.run (MemoryStore.sharing surroundings) (promote temp target).run (store, e)
            = (.done (.error failure), store.withTree tree, e) ∧
          tree.get? target.key = some .directory :=
        run_promote_astray surroundings e hbegins hreachable hreceives
      have hparent' : target.key.text.parent.key = target.key.text.key.parent := by
        rw [hparent, hkey]
      rw [← hkey] at hapart hreceives
      obtain ⟨_, hrun', -⟩ := run_promote_receives surroundings e hreachable (fun _ => hparent')
        htemp hapart hreceives
      have hdiffer : ¬ PublishesAlike surroundings e store file temp target target.key.text := by
        rintro (⟨after, hok, -⟩ | ⟨_, failure', -, herror⟩)
        · cases hrun.symm.trans hok
        · cases hrun'.symm.trans herror
      rw [hkey] at hreceives
      simp [hdiffer, hreceives]
  · have halike : PublishesAlike surroundings e store file temp target target.key.text :=
      publishesAlike_of_refused surroundings e hreachable hkey hreceives
    simp [halike, hreceives]

theorem publishesAlike_canonical_small :
    crowdedStore.get? [utf8 "s"] = some (.file ⟨utf8 "abc", ⟨1, 64⟩⟩) ∧
    (Path.key (utf8 "x/..//s")).text = utf8 "/s" ∧
    PublishesAlike (obliging 0) [] crowdedStore ⟨utf8 "old", ⟨1, 64⟩⟩ (utf8 ".dcp.tmp.7")
      (utf8 "x/..//s") (Path.key (utf8 "x/..//s")).text := by
  have htemp : crowdedStore.get? (Path.key (utf8 ".dcp.tmp.7"))
      = some (.file ⟨utf8 "old", ⟨1, 64⟩⟩) := by decide +kernel
  have hroot : Path.key (utf8 "x/..//s") ≠ [] := by decide +kernel
  have hapart : Path.key (utf8 "x/..//s") ≠ Path.key (utf8 ".dcp.tmp.7") := by decide +kernel
  have halike := publishesAlike_canonical_iff (obliging 0) [] crowdedStore_reachable htemp hroot
    hapart
  exact ⟨by decide +kernel, by decide +kernel, halike.2 (.inl (by decide +kernel))⟩

/-- A file is published to the canonical spelling of a place, but not to one that ends in a
separator; then the file that stood there is gone, and a directory stands in its place. -/
theorem spelling_loses_target :
    crowdedStore.Reachable ∧
    crowdedStore.get? (Path.key (utf8 ".dcp.tmp.7")) = some (.file ⟨utf8 "old", ⟨1, 64⟩⟩) ∧
    crowdedStore.get? (Path.key (utf8 "s/")) = some (.file ⟨utf8 "abc", ⟨1, 64⟩⟩) ∧
    Path.key (utf8 "s/") ≠ [] ∧ Path.key (utf8 "s/") ≠ Path.key (utf8 ".dcp.tmp.7") ∧
    (Path.key (utf8 "s/")).text = utf8 "/s" ∧
    (Program.run (MemoryStore.sharing (obliging 0)) (promote (utf8 ".dcp.tmp.7") (utf8 "/s")).run
      (crowdedStore, [])).1 = .done (.ok ()) ∧
    (Program.run (MemoryStore.sharing (obliging 0)) (promote (utf8 ".dcp.tmp.7") (utf8 "s/")).run
      (crowdedStore, [])).1.map Except.isOk = .done false ∧
    (Program.run (MemoryStore.sharing (obliging 0)) (promote (utf8 ".dcp.tmp.7") (utf8 "s/")).run
      (crowdedStore, [])).2.1.get? (Path.key (utf8 "s/")) = some .directory := by
  refine ⟨crowdedStore_reachable, ?_⟩
  decide +kernel

end StagedCopy
