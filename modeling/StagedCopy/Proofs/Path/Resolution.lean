import Mathlib.Data.List.GetD
import Mathlib.Logic.Function.Iterate
import StagedCopy.Proofs.Path.Respelling

/-!
# Where a path leads

A path can be read from the root one component after another: an empty one and `.` lead nowhere,
`..` leads to the place above, of which the root has no other than itself, and a name leads down.
The place where this ends is the key of the path. Its spelling is the normal one of the path, read
from the root and without separators at the end, and it is the only canonical one. From a key, one
parent after another is above it, the nearest first and the root at the end.

* `Key.lead`, `Path.destination`, `Path.key_eq_destination` — reading by components.
* `Path.text_key_eq` — the spelling of a key by the normal spelling of a path.
* `Path.IsCanonical.text_key` — a canonical spelling is that of its key.
* `Key.parents_eq`, `Key.pairwise_above`, `Path.IsCanonical.upwards` — one parent after another.
-/

namespace StagedCopy

/-- Where a component of a path leads from a place. -/
def Key.lead (place : Key) (component : Bytes) : Key :=
  if component = [] ∨ component = dot then place
  else if component = dotDot then place.dropLast
  else place ++ [component]

namespace Path

variable {p q : Path}

/-! ## Reading by components -/

/-- Where the components of a path lead from the root, one after another. -/
def destination (p : Path) : Key := p.pieces.foldl Key.lead []

/-- A name is read from the kept names as from the place that they lead to. -/
theorem reverse_pushName {kept : List Bytes} {name : Bytes} (hkept : dotDot ∉ kept)
    (hname : name ≠ []) : (pushName true kept name).reverse = Key.lead kept.reverse name := by
  unfold Key.lead
  by_cases hdot : name = dot
  · rw [hdot, pushName_dot, if_pos (Or.inr rfl)]
  rw [if_neg (not_or.2 ⟨hname, hdot⟩)]
  by_cases hdots : name = dotDot
  · rw [if_pos hdots, hdots]
    cases kept with
    | nil => rfl
    | cons last before =>
      rw [List.mem_cons, not_or] at hkept
      rw [pushName_dotDot (Ne.symm hkept.1), List.reverse_cons, List.dropLast_concat]
  · rw [if_neg hdots, pushName_of_name hdot hdots, List.reverse_cons]

theorem reverse_foldl_pushName (components : List Bytes) {kept : List Bytes}
    (hkept : dotDot ∉ kept) :
    ((components.filter fun piece => !piece.isEmpty).foldl (pushName true) kept).reverse
      = components.foldl Key.lead kept.reverse := by
  induction components generalizing kept with
  | nil => rfl
  | cons component more ih =>
    by_cases hempty : component = []
    · rw [List.filter_cons_of_neg (by simp [hempty]), List.foldl_cons, ih hkept, hempty]
      rfl
    · obtain ⟨-, -, hfree⟩ := pushName_relative hkept 0 component
      rw [List.filter_cons_of_pos (by simp [hempty]), List.foldl_cons, List.foldl_cons, ih hfree,
        reverse_pushName hkept hempty]

/-- The key of a path is where its components lead. -/
theorem key_eq_destination (p : Path) : p.key = p.destination :=
  reverse_foldl_pushName p.pieces List.not_mem_nil

/-! ## Normal spelling from the root -/

/-- A path read from the root. -/
def fromRoot (p : Path) : Path := if p.isRooted then p else slash :: p

theorem isRooted_fromRoot (p : Path) : p.fromRoot.isRooted = true := by
  unfold fromRoot
  split
  · assumption
  · rfl

theorem names_fromRoot (p : Path) : p.fromRoot.names = p.names := by
  unfold fromRoot
  split
  · rfl
  · exact names_append_slash [] p

theorem normalNames_fromRoot (p : Path) : p.fromRoot.normalNames = p.key := by
  rw [normalNames, isRooted_fromRoot, names_fromRoot]
  rfl

end Path

namespace Key

variable {k : Key}

theorem flatMap_eq_joinNames (hk : k ≠ []) :
    (k.flatMap fun name => slash :: name) = slash :: Path.joinNames k := by
  induction k with
  | nil => exact absurd rfl hk
  | cons first more ih =>
    cases more with
    | nil => simp [Path.joinNames]
    | cons next more =>
      rw [List.flatMap_cons, ih (List.cons_ne_nil _ _)]
      rfl

/-- A key is spelled from the root. -/
theorem text_eq_spell (k : Key) : k.text = Path.spell true k := by
  by_cases hk : k = []
  · rw [hk]
    rfl
  · rw [text_of_ne_root hk, flatMap_eq_joinNames hk, Path.spell, if_neg hk]
    rfl

end Key

namespace Path

variable {p : Path}

/-- The spelling of the key of a path is the normal spelling of the path, read from the root and
without the separators at the end; the root keeps one. -/
theorem text_key_eq (p : Path) :
    p.key.text = if p.fromRoot.lexicallyNormal.dropTrailingSlashes = [] then [slash]
      else p.fromRoot.lexicallyNormal.dropTrailingSlashes := by
  have hkey := normalNames_fromRoot p
  cases hnamed : p.fromRoot.hasNames with
  | false =>
    have hseparators : p.fromRoot.IsSeparators := by
      refine ⟨?_, hnamed⟩
      intro hempty
      have hrooted := isRooted_fromRoot p
      rw [hempty] at hrooted
      cases hrooted
    have hnormal : p.fromRoot.lexicallyNormal = p.fromRoot := by
      rw [lexicallyNormal, if_neg (by simp [hnamed])]
    rw [hnormal, hseparators.dropTrailingSlashes, if_pos rfl, ← hkey, hseparators.normalNames]
    rfl
  | true =>
    have hspelled := lexicallyNormal_eq_spell hnamed
    rw [isRooted_fromRoot, hkey, ← Key.text_eq_spell] at hspelled
    by_cases hroot : p.key = []
    · have hnormal := hspelled.resolve_right fun hended => hended.1 hroot
      rw [hnormal, hroot]
      rfl
    · obtain ⟨hne, hended⟩ := spell_unended (key_canonical p).spellable hroot true
      rw [← Key.text_eq_spell] at hne hended
      have hdropped : p.fromRoot.lexicallyNormal.dropTrailingSlashes = p.key.text := by
        rcases hspelled with hspelled | ⟨-, hspelled⟩
        · rw [hspelled, dropTrailingSlashes_of_unended hended]
        · rw [hspelled, dropTrailingSlashes_concat hended]
      rw [hdropped, if_neg hne]

/-! ## Canonical spellings -/

/-- A separator before each piece of a path spells the path again. -/
theorem flatMap_pieces (p : Path) :
    (p.pieces.flatMap fun piece => slash :: piece) = slash :: p := by
  induction p with
  | nil => rfl
  | cons b rest ih =>
    obtain ⟨piece, more, h⟩ := List.exists_cons_of_ne_nil (pieces_ne_nil rest)
    rw [h, List.flatMap_cons, List.cons_append, List.cons.injEq] at ih
    rw [pieces, h]
    by_cases hb : b = slash
    · simp only [hb, if_true, List.flatMap_cons, List.cons_append, List.nil_append, ih.2]
    · simp only [hb, if_false, List.flatMap_cons, List.cons_append, ih.2]

/-- A canonical spelling is that of its key. -/
theorem IsCanonical.text_key (h : p.IsCanonical) : p.key.text = p := by
  by_cases hroot : p = [slash]
  · rw [hroot]
    rfl
  · obtain ⟨rest, rfl⟩ := List.head?_eq_some_iff.1 (beq_iff_eq.1 h.rooted)
    have hpieces : pieces (slash :: rest) = [] :: pieces rest := pieces_append_slash [] rest
    have hcomponents := h.components hroot
    rw [hpieces, List.tail_cons] at hcomponents
    have hcanonical : Key.Canonical (pieces rest) := by
      intro piece hpiece
      obtain ⟨hne, hdot, hdots⟩ := hcomponents piece hpiece
      exact Key.isName_iff.2 ⟨hne, hdot, hdots, slash_not_mem_of_mem_pieces hpiece⟩
    have htext : Key.text (pieces rest) = slash :: rest := by
      rw [Key.text_of_ne_root (pieces_ne_nil rest), flatMap_pieces]
    rw [← htext, hcanonical.key_text]

end Path

/-! ## One step up after another -/

namespace Key

variable {k : Key}

theorem parent_iterate (k : Key) (n : Nat) : parent^[n] k = k.take (k.length - n) := by
  induction n with
  | zero => rw [Function.iterate_zero_apply, Nat.sub_zero, List.take_length]
  | succ n ih =>
    rw [Function.iterate_succ_apply', ih, parent, List.dropLast_eq_take, List.take_take,
      List.length_take]
    congr 1
    omega

/-- The parents of a place, one after another until the root, are the places above it. -/
theorem parents_eq (hk : k ≠ []) :
    ((List.range k.length).map fun i => parent^[i + 1] k) = k.properAncestors ++ [[]] := by
  induction k using List.reverseRecOn with
  | nil => exact absurd rfl hk
  | append_singleton before last ih =>
    have hparent : parent (before ++ [last]) = before := List.dropLast_concat
    rw [List.length_append, List.length_singleton, List.range_succ_eq_map, List.map_cons,
      List.map_map, Function.iterate_one, hparent, properAncestors_concat]
    have hmore : ((fun i => parent^[i + 1] (before ++ [last])) ∘ Nat.succ)
        = fun i => parent^[i + 1] before := by
      funext i
      rw [Function.comp_apply, Function.iterate_succ_apply, hparent]
    rw [hmore]
    by_cases hbefore : before = []
    · rw [hbefore]
      rfl
    · rw [ih hbefore, upward, if_neg hbefore, List.cons_append]

theorem mem_above_iff {a : Key} (hk : k ≠ []) :
    a ∈ k.properAncestors ++ [[]] ↔ a.isAbove k = true := by
  rw [List.mem_append, List.mem_singleton, mem_properAncestors]
  constructor
  · rintro (⟨-, habove⟩ | rfl)
    · exact habove
    · exact isAbove_iff.2 ⟨List.nil_prefix, Ne.symm hk⟩
  · intro habove
    by_cases hroot : a = []
    · exact .inr hroot
    · exact .inl ⟨hroot, habove⟩

/-- After as many parents as there are places above, one stays at the root. -/
theorem parent_iterate_eq_getD (hk : k ≠ []) (n : Nat) :
    parent^[n + 1] k = (k.properAncestors ++ [[]]).getD n [] := by
  rw [← parents_eq hk, List.getD_eq_getElem?_getD, List.getElem?_map]
  by_cases hn : n < k.length
  · rw [List.getElem?_range hn]
    rfl
  · rw [List.getElem?_eq_none (by rw [List.length_range]; omega), parent_iterate,
      show k.length - (n + 1) = 0 by omega, List.take_zero]
    rfl

/-- Of the places above a place, each lies above those before it. -/
theorem pairwise_above (k : Key) :
    (k.properAncestors ++ [[]]).Pairwise fun nearer farther => isAbove farther nearer = true := by
  induction k using List.reverseRecOn with
  | nil => exact List.pairwise_singleton _ _
  | append_singleton before last ih =>
    rw [properAncestors_concat, upward]
    split
    · exact List.pairwise_singleton _ _
    next hbefore =>
      rw [List.cons_append, List.pairwise_cons]
      refine ⟨fun farther hfarther => ?_, ih⟩
      exact (mem_above_iff hbefore).1 hfarther

/-- The parents of a spelling spell the parents of the key. -/
theorem Canonical.parent_iterate_text (h : k.Canonical) (n : Nat) :
    Path.parent^[n] k.text = (Key.parent^[n] k).text := by
  induction n generalizing k with
  | zero => rfl
  | succ n ih =>
    have hup : Path.parent k.text = k.parent.text := by
      by_cases hroot : k = []
      · rw [hroot]
        rfl
      · exact h.parent_text hroot
    rw [Function.iterate_succ_apply, Function.iterate_succ_apply, hup, ih h.parent]

theorem Canonical.of_mem_above {a : Key} (h : k.Canonical) (ha : a ∈ k.properAncestors ++ [[]]) :
    a.Canonical := by
  by_cases hk : k = []
  · rw [hk] at ha
    rw [List.mem_singleton.1 ha]
    exact fun _ => nofun
  · exact h.of_prefix (isAbove_iff.1 ((mem_above_iff hk).1 ha)).1

theorem nodup_upward (k : Key) : k.upward.Nodup := by
  -- A place and those above it are the places above one that lies below it.
  have habove := pairwise_above (k ++ [[]])
  rw [properAncestors_concat] at habove
  exact (habove.sublist (List.sublist_append_left _ _)).imp fun h => (isAbove_iff.1 h).2.symm

end Key

/-- One parent after another of a canonical spelling: the canonical spellings above it, the nearest
first, and then the root for ever. -/
theorem Path.IsCanonical.upwards {q : Path} (h : q.IsCanonical) (hroot : q ≠ [slash]) :
    ∃ above : List Path,
      (∀ n, (Key.parent^[n + 1] q.key).text = above.getD n [slash] ∧
        Path.parent^[n + 1] q = above.getD n [slash]) ∧
      above.getLast? = some [slash] ∧
      (above.Pairwise fun nearer farther => (Path.key farther).isAbove (Path.key nearer) = true) ∧
      ∀ p, p ∈ above ↔ p.IsCanonical ∧ p.key.isAbove q.key = true := by
  obtain ⟨k, hk, rfl⟩ : ∃ k : Key, k.Canonical ∧ k.text = q := ⟨q.key, q.key_canonical, h.text_key⟩
  have hne : k ≠ [] := by
    rintro rfl
    exact hroot rfl
  have hkey {a : Key} (ha : a ∈ k.properAncestors ++ [[]]) : a.text.key = a :=
    (hk.of_mem_above ha).key_text
  refine ⟨(k.properAncestors ++ [[]]).map Key.text, fun n => ?_, ?_, ?_, fun p => ?_⟩
  · have htext : ((k.properAncestors ++ [[]]).map Key.text).getD n [slash]
        = (Key.parent^[n + 1] k).text := by
      rw [Key.parent_iterate_eq_getD hne]
      exact List.getD_map _ [] Key.text
    rw [htext, hk.parent_iterate_text, hk.key_text]
    exact ⟨rfl, rfl⟩
  · rw [List.getLast?_map, List.getLast?_concat]
    rfl
  · rw [List.pairwise_map]
    refine k.pairwise_above.imp_of_mem fun hnearer hfarther habove => ?_
    rwa [hkey hnearer, hkey hfarther]
  · rw [hk.key_text, List.mem_map]
    constructor
    · rintro ⟨a, ha, rfl⟩
      rw [hkey ha]
      exact ⟨(hk.of_mem_above ha).isCanonical_text, (Key.mem_above_iff hne).1 ha⟩
    · rintro ⟨hcanonical, habove⟩
      exact ⟨p.key, (Key.mem_above_iff hne).2 habove, hcanonical.text_key⟩

end StagedCopy
