import StagedCopy.Path.Key

/-!
# Trees of directories and files

A tree says what stands at each key: nothing, a directory, or a file with whatever a file holds.
The root is a directory in every tree. A tree is read through `Tree.get?`, and one lemma for each
operation says what it does to that view. Whether a key's parent stands in the tree is not the
tree's concern: stores see to it.

* `Tree.get?` — what stands at a key.
* `Tree.insert`, `Tree.erase`, `Tree.eraseBelow` — changes at and below a key.
* `Tree.addDirectories` — the missing ones of some keys become directories.
* `Tree.keys` — all keys at which something stands.
-/

namespace StagedCopy

/-- What stands at a key. -/
inductive Node (α : Type) where
  | directory
  | file (content : α)
  deriving DecidableEq, Repr

namespace Node

variable {α : Type}

/-- The node is a file. -/
def isFile : Node α → Bool
  | file _ => true
  | directory => false

end Node

/-- A tree: what stands at each key other than the root. -/
structure Tree (α : Type) where
  entries : List (Key × Node α) := []
  deriving Repr

namespace Tree

variable {α : Type}

/-! ## Operations -/

/-- What stands at a key; at the root, a directory. -/
def get? (tree : Tree α) (k : Key) : Option (Node α) :=
  if k = [] then some .directory else tree.entries.lookup k

/-- The tree with something else at a key. -/
def insert (tree : Tree α) (k : Key) (node : Node α) : Tree α :=
  ⟨(k, node) :: tree.entries.filter fun entry => entry.1 != k⟩

/-- The tree without what stands at a key. -/
def erase (tree : Tree α) (k : Key) : Tree α :=
  ⟨tree.entries.filter fun entry => entry.1 != k⟩

/-- The tree without all that stands below a key. -/
def eraseBelow (tree : Tree α) (k : Key) : Tree α :=
  ⟨tree.entries.filter fun entry => !k.isAbove entry.1⟩

/-- Something stands below the key. -/
def hasBelow (tree : Tree α) (k : Key) : Bool := tree.entries.any fun entry => k.isAbove entry.1

/-- Those of the given keys at which nothing stands become directories. -/
def addDirectories (tree : Tree α) : List Key → Tree α
  | [] => tree
  | k :: more =>
    match tree.get? k with
    | none => (tree.insert k .directory).addDirectories more
    | some _ => tree.addDirectories more

/-- All keys at which something stands, the root first and the others in no particular order. -/
def keys (tree : Tree α) : List Key := [] :: tree.entries.map (·.1)

/-- The nearest place above a key, other than the root, at which a file stands. -/
def fileAbove? (tree : Tree α) (k : Key) : Option Key :=
  k.properAncestors.find? fun ancestor => (tree.get? ancestor).any Node.isFile

/-! ## The view after each operation -/

/-- A look-up in a filtered list finds the same or nothing. -/
theorem lookup_filter (p : Key → Bool) (k : Key) (entries : List (Key × Node α)) :
    (entries.filter fun entry => p entry.1).lookup k =
      if p k then entries.lookup k else none := by
  induction entries with
  | nil => simp
  | cons entry rest ih =>
    obtain ⟨key, node⟩ := entry
    by_cases hk : k = key
    · subst hk
      by_cases hp : p k
      · simp [hp]
      · rw [List.filter_cons_of_neg (by simp [hp]), ih]
        simp [hp]
    · have hne : (k == key) = false := beq_eq_false_iff_ne.2 hk
      by_cases hp : p key
      · rw [List.filter_cons_of_pos (by simp [hp]), List.lookup_cons, List.lookup_cons, ih]
        simp [hne]
      · rw [List.filter_cons_of_neg (by simp [hp]), ih, List.lookup_cons]
        simp [hne]

@[simp] theorem get?_root (tree : Tree α) : tree.get? [] = some .directory := by simp [get?]

@[simp] theorem get?_empty (k : Key) :
    (({} : Tree α).get? k) = if k = [] then some .directory else none := by
  simp [get?]

theorem get?_singleton (place : Key) (node : Node α) (k : Key) :
    (Tree.mk [(place, node)]).get? k =
      if k = [] then some .directory else if k = place then some node else none := by
  by_cases hk : k = place
  · simp [get?, hk]
  · simp [get?, List.lookup_cons, beq_eq_false_iff_ne.2 hk, hk]

theorem get?_insert (tree : Tree α) {k : Key} (hk : k ≠ []) (node : Node α) (other : Key) :
    (tree.insert k node).get? other = if other = k then some node else tree.get? other := by
  by_cases ho : other = []
  · subst ho
    simp [hk.symm]
  · by_cases h : other = k
    · subst h
      simp [get?, insert, ho]
    · simp [get?, insert, ho, h, List.lookup_cons, beq_eq_false_iff_ne.2 h,
        lookup_filter (fun key => key != k)]

theorem get?_erase (tree : Tree α) (k other : Key) :
    (tree.erase k).get? other =
      if other = k ∧ other ≠ [] then none else tree.get? other := by
  by_cases ho : other = []
  · subst ho
    simp
  · by_cases h : other = k <;> simp [get?, erase, ho, h, lookup_filter (fun key => key != k)]
    simp_all

theorem get?_eraseBelow (tree : Tree α) (k other : Key) :
    (tree.eraseBelow k).get? other = if k.isAbove other then none else tree.get? other := by
  by_cases ho : other = []
  · subst ho
    have : k.isAbove [] = false := by
      cases k <;> simp [Key.isAbove]
    simp [this]
  · by_cases h : k.isAbove other <;>
      simp [get?, eraseBelow, ho, h, lookup_filter (fun key => !k.isAbove key)]

theorem get?_addDirectories (tree : Tree α) {ks : List Key} (hks : [] ∉ ks) (other : Key) :
    (tree.addDirectories ks).get? other =
      if other ∈ ks ∧ tree.get? other = none then some .directory else tree.get? other := by
  induction ks generalizing tree with
  | nil => simp [addDirectories]
  | cons k more ih =>
    have hk : k ≠ [] := fun h => hks (by simp [h])
    have hmore : [] ∉ more := fun h => hks (by simp [h])
    by_cases hget : tree.get? k = none
    · rw [addDirectories, hget]
      simp only [ih _ hmore, get?_insert _ hk]
      by_cases h : other = k
      · subst h
        simp [hget]
      · simp [h]
    · obtain ⟨node, hnode⟩ := Option.ne_none_iff_exists'.1 hget
      rw [addDirectories, hnode]
      simp only [ih _ hmore]
      by_cases h : other = k
      · subst h
        simp [hnode]
      · simp [h]

end Tree

end StagedCopy
