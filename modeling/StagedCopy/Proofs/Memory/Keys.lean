import StagedCopy.Proofs.Memory.Reachable
import StagedCopy.Proofs.Path.Resolution

/-!
# Keys of a store in memory, and the loops that go up from them

A store in memory knows places by their keys alone. What a store does at the places above a key is
a loop from parent to parent: looking for a file that is in the way, and making the directories
that are missing. None of these loops counts its rounds; each ends because the parent of a place
is nearer to the root, where every loop stops.

* `Climb`, `EndsWithin` — loops that go up, and those that end.
* `MemoryStore.seekFile`, `Tree.fillIn` — the bodies of the two kinds of loops; `climb_seekFile`,
  `climb_fillIn`, where they lead.
* `MemoryStore.SoundKeys` — what keys are and where loops from them lead; `Reachable.soundKeys`,
  the theorem.
-/

namespace StagedCopy

/-! ## Loops that go up -/

section Climb

variable {σ : Type} {body : σ → Key → Option σ} {state after after' : σ} {place last last' : Key}
  {visited visited' : List Key}

/-- A loop that goes up from a place: where the body gives nothing it stops, and where the body
gives a state it goes on with that state at the parent. Its run is told by the places that it goes
on from, the state in the end, and the place where it stops. -/
inductive Climb (body : σ → Key → Option σ) : σ → Key → List Key → σ → Key → Prop where
  | stop {state : σ} {place : Key} (h : body state place = none) :
    Climb body state place [] state place
  | go {state next after : σ} {place last : Key} {visited : List Key}
    (h : body state place = some next) (more : Climb body next place.parent visited after last) :
    Climb body state place (place :: visited) after last

/-- From a state and a place, a loop has no more than one run. -/
theorem Climb.unique (h : Climb body state place visited after last)
    (h' : Climb body state place visited' after' last') :
    visited' = visited ∧ after' = after ∧ last' = last := by
  induction h generalizing visited' with
  | stop hstop =>
    cases h' with
    | stop => exact ⟨rfl, rfl, rfl⟩
    | go hgo => exact nomatch hstop.symm.trans hgo
  | go hgo _ ih =>
    cases h' with
    | stop hstop => exact nomatch hgo.symm.trans hstop
    | go hgo' more =>
      obtain rfl := Option.some.inj (hgo.symm.trans hgo')
      obtain ⟨rfl, rfl, rfl⟩ := ih more
      exact ⟨rfl, rfl, rfl⟩

/-- The loop has one run, which comes to an end: it goes on from some of the first of the given
places, from each of them once, and leaves this state and stops at this place. -/
def EndsWithin (body : σ → Key → Option σ) (state : σ) (start : Key) (places : List Key)
    (after : σ) (last : Key) : Prop :=
  ∃ visited, visited <+: places ∧ visited.Nodup ∧
    ∀ visited' after' last', Climb body state start visited' after' last' ↔
      visited' = visited ∧ after' = after ∧ last' = last

theorem Climb.endsWithin (h : Climb body state place visited after last)
    (hvisited : visited <+: place.upward) :
    EndsWithin body state place place.upward after last := by
  refine ⟨visited, hvisited, place.nodup_upward.sublist hvisited.sublist, fun _ _ _ => ?_⟩
  constructor
  · exact h.unique
  · rintro ⟨rfl, rfl, rfl⟩
    exact h

end Climb

/-! ## Making what is missing -/

namespace Tree

variable {α : Type} {tree : Tree α} {k : Key}

/-- One round of making directories: where something stands, nothing is to be done. -/
def fillIn (tree : Tree α) (place : Key) : Option (Tree α) :=
  match tree.get? place with
  | none => some (tree.insert place .directory)
  | some _ => none

theorem addDirectories_of_present {places : List Key} (h : ∀ k ∈ places, tree.get? k ≠ none) :
    tree.addDirectories places = tree := by
  induction places with
  | nil => rfl
  | cons k more ih =>
    obtain ⟨node, hnode⟩ := Option.ne_none_iff_exists'.1 (h k List.mem_cons_self)
    rw [addDirectories, hnode]
    exact ih fun other hother => h other (List.mem_cons_of_mem k hother)

/-- Where all above what stands stands as well, the loop that makes directories leaves what making
all that are missing leaves. -/
theorem climb_fillIn (h : ∀ a b, a <+: k → b <+: a → tree.get? a ≠ none → tree.get? b ≠ none) :
    ∃ visited last, visited <+: k.upward ∧
      Climb fillIn tree k visited (tree.addDirectories k.upward) last := by
  -- Up from the place; in the round at it the tree changes there alone, so that all above is as
  -- it was.
  induction k using List.reverseRecOn generalizing tree with
  | nil => exact ⟨[], [], List.prefix_rfl, .stop (by rw [fillIn, get?_root])⟩
  | append_singleton before name ih =>
    have hne : before ++ [name] ≠ [] := by simp
    cases hget : tree.get? (before ++ [name]) with
    | some node =>
      have hpresent : ∀ a ∈ Key.upward (before ++ [name]), tree.get? a ≠ none := by
        intro a ha
        refine h _ a List.prefix_rfl (Key.mem_upward.1 ha).2 ?_
        rw [hget]
        exact Option.some_ne_none node
      rw [addDirectories_of_present hpresent]
      exact ⟨[], _, List.nil_prefix, .stop (by rw [fillIn, hget])⟩
    | none =>
      have hothers (a : Key) (ha : a <+: before) :
          (tree.insert (before ++ [name]) .directory).get? a = tree.get? a := by
        rw [get?_insert tree hne, if_neg]
        rintro rfl
        have hlength := ha.length_le
        rw [List.length_append, List.length_singleton] at hlength
        omega
      obtain ⟨visited, last, hvisited, hclimb⟩ := ih fun a b ha hb => by
        rw [hothers a ha, hothers b (hb.trans ha)]
        exact h a b (ha.trans (List.prefix_append _ _)) hb
      have hround : fillIn tree (before ++ [name])
          = some (tree.insert (before ++ [name]) .directory) := by rw [fillIn, hget]
      rw [Key.upward_concat, addDirectories, hget]
      refine ⟨_ :: visited, last, (List.prefix_cons_inj _).2 hvisited, .go hround ?_⟩
      rwa [Key.parent, List.dropLast_concat]

end Tree

/-! ## Looking for a file -/

namespace MemoryStore

variable {store : MemoryStore} {k : Key}

/-- One round of looking for a file: the loop stops at a file, and at the root. -/
def seekFile (store : MemoryStore) (_ : Unit) (place : Key) : Option Unit :=
  if place = [] || (store.get? place).any Node.isFile then none else some ()

/-- The loop that looks for a file stops at the nearest one, or else at the root. -/
theorem climb_seekFile (store : MemoryStore) (k : Key) :
    ∃ visited last, visited <+: k.upward ∧ Climb store.seekFile () k visited () last ∧
      (k.upward.find? fun place => (store.get? place).any Node.isFile)
        = if last = [] then none else some last := by
  induction k using List.reverseRecOn with
  | nil => exact ⟨[], [], List.prefix_rfl, .stop rfl, rfl⟩
  | append_singleton before name ih =>
    have hne : before ++ [name] ≠ [] := by simp
    rw [Key.upward_concat]
    cases hfile : (store.get? (before ++ [name])).any Node.isFile with
    | true =>
      have hround : store.seekFile () (before ++ [name]) = none := by
        rw [seekFile, hfile, Bool.or_true, if_pos rfl]
      simp only [List.find?_cons, hfile]
      exact ⟨[], _, List.nil_prefix, .stop hround, (if_neg hne).symm⟩
    | false =>
      have hround : store.seekFile () (before ++ [name]) = some () := by
        rw [seekFile, hfile, Bool.or_false, if_neg (by simp)]
      obtain ⟨visited, last, hvisited, hclimb, hfound⟩ := ih
      simp only [List.find?_cons, hfile]
      refine ⟨_ :: visited, last, (List.prefix_cons_inj _).2 hvisited, .go hround ?_, hfound⟩
      rwa [Key.parent, List.dropLast_concat]

/-! ## The theorem -/

/-- What keys are, and where loops from them lead. Every path has a canonical spelling: its normal
one, read from the root and without separators at the end. It is the same for two paths exactly
when their components lead to the same place. One parent after another of a canonical spelling, up
to the root and there for ever, are the spellings above it, exactly those, the nearest first. And
each loop of the store over these ends, and what it leaves decides what the store does. -/
structure SoundKeys (store : MemoryStore) : Prop where
  canonical : ∀ p : Path, p.key.text.IsCanonical
  computed : ∀ p : Path, p.key.text =
    if p.fromRoot.lexicallyNormal.dropTrailingSlashes = [] then [slash]
    else p.fromRoot.lexicallyNormal.dropTrailingSlashes
  idempotent : ∀ p : Path, p.key.text.key.text = p.key.text
  resolved : ∀ p q : Path, p.key.text = q.key.text ↔ p.destination = q.destination
  upwards : ∀ q : Path, q.IsCanonical → q ≠ [slash] → ∃ above : List Path,
    (∀ n, (Key.parent^[n + 1] q.key).text = above.getD n [slash] ∧
      Path.parent^[n + 1] q = above.getD n [slash]) ∧
    above.getLast? = some [slash] ∧
    (above.Pairwise fun nearer farther => (Path.key farther).isAbove (Path.key nearer) = true) ∧
    ∀ p, p ∈ above ↔ p.IsCanonical ∧ p.key.isAbove q.key = true
  create : ∀ p : Path, ∃ last,
    EndsWithin store.seekFile () p.key.parent p.key.properAncestors () last ∧
      store.tree.fileAbove? p.key = if last = [] then none else some last
  makeDirs : ∀ p : Path, ∃ last,
    EndsWithin store.seekFile () p.key p.key.upward () last ∧
      store.makeDirs p = if last = [] then
          .ok ((), { store with tree := (store.addParents p.key).addDirectories [p.key] })
        else .error (.notDirectory last)
  addParents : ∀ p : Path, ∃ last,
    EndsWithin Tree.fillIn store.tree p.key.parent p.key.properAncestors (store.addParents p.key)
      last

/-- A place that is to become a directory is looked at with those above it; the root is no file, so
that it does not count whether it is looked at. -/
theorem find?_isFile (store : MemoryStore) (k : Key) :
    ((k :: k.properAncestors).find? fun place => (store.get? place).any Node.isFile)
      = k.upward.find? fun place => (store.get? place).any Node.isFile := by
  unfold Key.upward
  split
  next hroot =>
    have hnone : Key.properAncestors [] = [] := rfl
    simp [hroot, hnone, get?, Node.isFile]
  next => rfl

theorem Reachable.soundKeys (h : store.Reachable) : store.SoundKeys where
  canonical p := p.key_canonical.isCanonical_text
  computed := Path.text_key_eq
  idempotent p := by rw [p.key_canonical.key_text]
  resolved p q := by
    rw [← p.key_eq_destination, ← q.key_eq_destination]
    exact ⟨p.key_canonical.eq_of_text q.key_canonical, congrArg Key.text⟩
  upwards _ hq hroot := hq.upwards hroot
  create p := by
    obtain ⟨visited, last, hvisited, hclimb, hfound⟩ := store.climb_seekFile p.key.parent
    rw [Tree.fileAbove?, Key.properAncestors_eq_upward]
    exact ⟨last, hclimb.endsWithin hvisited, hfound⟩
  makeDirs p := by
    obtain ⟨visited, last, hvisited, hclimb, hfound⟩ := store.climb_seekFile p.key
    refine ⟨last, hclimb.endsWithin hvisited, ?_⟩
    rw [← find?_isFile] at hfound
    by_cases hroot : last = []
    · rw [if_pos hroot] at hfound ⊢
      simp only [MemoryStore.makeDirs, hfound]
    · rw [if_neg hroot] at hfound ⊢
      simp only [MemoryStore.makeDirs, hfound]
  addParents p := by
    have habove : ∀ a b : Key, a <+: p.key.parent → b <+: a → store.tree.get? a ≠ none →
        store.tree.get? b ≠ none := by
      intro a b _ hb ha
      by_cases hsame : b = a
      · rwa [hsame]
      · rw [h.wellFormed.of_prefix ha hb hsame]
        exact Option.some_ne_none _
    obtain ⟨visited, last, hvisited, hclimb⟩ := Tree.climb_fillIn habove
    rw [MemoryStore.addParents, Key.properAncestors_eq_upward]
    exact ⟨last, hclimb.endsWithin hvisited⟩

end MemoryStore

/-- A store with a single file. -/
def singleFile : MemoryStore :=
  (({ } : MemoryStore).perform (.createFile (utf8 "a/b") true 64 ⟨1, 64⟩)).2

/-- The file is in the way of what lies below it, however that is spelled: the loop that looks for
it does not get beyond. -/
theorem soundKeys_singleFile :
    (Path.key (utf8 "x/../../a/./b//c/")).text = utf8 "/a/b/c" ∧
    EndsWithin singleFile.seekFile () [utf8 "a", utf8 "b"] [[utf8 "a", utf8 "b"], [utf8 "a"]] ()
      [utf8 "a", utf8 "b"] := by
  have hreachable : singleFile.Reachable := .call _ (.new _ _)
  have hkeys := hreachable.soundKeys
  have hsame := (hkeys.resolved (utf8 "x/../../a/./b//c/") (utf8 "/a/b/c")).2 (by decide +kernel)
  refine ⟨hsame.trans (by decide +kernel), ?_⟩
  obtain ⟨last, hends, hfound⟩ := hkeys.create (utf8 "/a/b/c")
  have hfile : singleFile.tree.fileAbove? (Path.key (utf8 "/a/b/c"))
      = some [utf8 "a", utf8 "b"] := by decide +kernel
  rw [hfile] at hfound
  split at hfound
  · cases hfound
  · obtain rfl := Option.some.inj hfound
    exact hends

end StagedCopy
