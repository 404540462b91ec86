import Mathlib.Data.List.Induction
import StagedCopy.Proofs.Path.Parent

/-!
# Canonical spellings

A key has one spelling, and it is a canonical one: it begins with a slash and goes on with names
between single slashes, none of them empty, `.` or `..`; only the root ends in a slash. Every path
leads to a key whose names can stand in such a spelling, whatever its own spelling is, and the
spelling leads back to the key. So keys may be taken for their spellings: the parent of a spelling
spells the parent, and what begins with a spelling and a slash spells a place below.

* `Path.key_canonical` — paths lead to canonical keys.
* `Path.IsCanonical` — canonical spellings; `Key.Canonical.isCanonical_text`.
* `Key.Canonical.key_text` — a spelling leads back to its key.
* `Key.Canonical.parent_text` — the parent of a spelling.
* `Key.Canonical.isAbove_of_text` — the places below a place, by spelling.
-/

namespace StagedCopy

namespace Path

/-! ## Canonical keys -/

theorem slash_not_mem_of_mem_pieces {p : Path} {piece : Bytes} (h : piece ∈ p.pieces) :
    slash ∉ piece := by
  induction p generalizing piece with
  | nil =>
    rw [pieces, List.mem_singleton] at h
    rw [h]
    exact List.not_mem_nil
  | cons b rest ih =>
    obtain ⟨first, more, hrest⟩ := List.exists_cons_of_ne_nil (pieces_ne_nil rest)
    rw [hrest] at ih
    rw [pieces, hrest] at h
    by_cases hb : b = slash
    · simp only [hb, if_true] at h
      rcases List.mem_cons.1 h with rfl | hmem
      · exact List.not_mem_nil
      · exact ih hmem
    · simp only [hb, if_false] at h
      rcases List.mem_cons.1 h with rfl | hmem
      · rw [List.mem_cons, not_or]
        exact ⟨Ne.symm hb, ih List.mem_cons_self⟩
      · exact ih (List.mem_cons_of_mem first hmem)

/-- What is kept of a name that is not empty and has no slash can stand in a key. -/
theorem isName_of_mem_pushName {kept : List Bytes} {name : Bytes}
    (hkept : ∀ n ∈ kept, Key.isName n) (hname : name ≠ []) (hfree : slash ∉ name) :
    ∀ n ∈ pushName true kept name, Key.isName n := by
  unfold pushName
  by_cases hdot : name = dot
  · rw [if_pos hdot]
    exact hkept
  rw [if_neg hdot]
  by_cases hdotDot : name = dotDot
  · rw [if_pos hdotDot]
    cases kept with
    | nil => exact hkept
    | cons last before =>
      -- names that can stand in a key are no `..`, so the last one goes
      have hlast : last ≠ dotDot := by
        rintro rfl
        have hdots := hkept dotDot List.mem_cons_self
        cases hdots
      simp only [hlast, if_false]
      exact fun n hn => hkept n (List.mem_cons_of_mem last hn)
  · rw [if_neg hdotDot]
    intro n hn
    rcases List.mem_cons.1 hn with rfl | hmem
    · simp [Key.isName, hname, hdot, hdotDot, hfree]
    · exact hkept n hmem

theorem isName_of_mem_foldl {names kept : List Bytes} (hkept : ∀ n ∈ kept, Key.isName n)
    (hnames : ∀ n ∈ names, n ≠ [] ∧ slash ∉ n) :
    ∀ n ∈ names.foldl (pushName true) kept, Key.isName n := by
  induction names generalizing kept with
  | nil => exact hkept
  | cons name more ih =>
    obtain ⟨hname, hfree⟩ := hnames name List.mem_cons_self
    refine ih (isName_of_mem_pushName hkept hname hfree) fun n hn => ?_
    exact hnames n (List.mem_cons_of_mem name hn)

/-- Whatever its spelling, a path leads to a canonical key. -/
theorem key_canonical (p : Path) : p.key.Canonical := by
  intro name hname
  rw [key, keyOfNames, List.mem_reverse] at hname
  refine isName_of_mem_foldl (fun n hn => absurd hn List.not_mem_nil) (fun n hn => ?_) name hname
  rw [names, List.mem_filter] at hn
  exact ⟨by simpa using hn.2, slash_not_mem_of_mem_pieces hn.1⟩

/-! ## Canonical spellings -/

theorem dropTrailingSlashes_of_unended {p : Path} (h : p.endsInSlash = false) :
    p.dropTrailingSlashes = p := by
  rw [endsInSlash, ← List.head?_reverse] at h
  rw [dropTrailingSlashes]
  cases hreverse : p.reverse with
  | nil => simpa using hreverse.symm
  | cons b rest =>
    rw [hreverse] at h
    rw [List.dropWhile_cons_of_neg (by simpa using h), ← hreverse, List.reverse_reverse]

theorem dropTrailingSlashes_concat {p : Path} (h : p.endsInSlash = false) :
    (p ++ [slash]).dropTrailingSlashes = p := by
  rw [dropTrailingSlashes, List.reverse_append, List.reverse_singleton, List.singleton_append,
    List.dropWhile_cons_of_pos (by simp)]
  exact dropTrailingSlashes_of_unended h

/-- What stands before the last name of a path. -/
theorem before_append {front name : Path} (hfront : front = [] ∨ ∃ s, front = s ++ [slash])
    (hfree : slash ∉ name) :
    ((front ++ name).reverse.dropWhile (· != slash)).reverse = front := by
  have hname : ∀ b ∈ name.reverse, (b != slash) = true := by
    intro b hb
    rw [bne_iff_ne]
    rintro rfl
    exact hfree (List.mem_reverse.1 hb)
  rw [List.reverse_append, List.dropWhile_append_of_pos hname]
  rcases hfront with rfl | ⟨s, rfl⟩
  · rfl
  · rw [List.reverse_concat, List.dropWhile_cons_of_neg (by simp), List.reverse_cons,
      List.reverse_reverse]

/-- The parent of a path that ends in a name after a single slash. -/
theorem parent_append_name {p : Path} {name : Bytes} (hname : name ≠ []) (hfree : slash ∉ name)
    (h : p.endsInSlash = false) :
    (p ++ slash :: name).parent = if p = [] then [slash] else p := by
  have hbefore : ((p ++ slash :: name).reverse.dropWhile (· != slash)).reverse = p ++ [slash] := by
    rw [List.append_cons]
    exact before_append (.inr ⟨p, rfl⟩) hfree
  have hnames : (p ++ slash :: name).hasNames = true := by
    obtain ⟨b, rest, rfl⟩ := List.exists_cons_of_ne_nil hname
    have hb : b ≠ slash := by
      rintro rfl
      exact hfree List.mem_cons_self
    simp [hasNames, hb]
  rw [parent, if_pos hnames, hbefore]
  show (if (p ++ [slash]).dropTrailingSlashes.isEmpty && _ then [slash] else _) = _
  rw [dropTrailingSlashes_concat h]
  by_cases hp : p = []
  · rw [if_pos hp, hp]
    rfl
  · rw [if_neg hp, if_neg (by simp [hp])]

/-- A canonical spelling begins with a slash, has no component that is empty, `.` or `..`, and does
not end in a slash, unless it is the root. -/
structure IsCanonical (p : Path) : Prop where
  rooted : p.isRooted = true
  components : p ≠ [slash] → ∀ piece ∈ p.pieces.tail, piece ≠ [] ∧ piece ≠ dot ∧ piece ≠ dotDot
  unended : p ≠ [slash] → p.endsInSlash = false

end Path

namespace Key

variable {k : Key}

/-! ## Spellings -/

theorem isName_iff {name : Bytes} :
    isName name = true ↔ name ≠ [] ∧ name ≠ dot ∧ name ≠ dotDot ∧ slash ∉ name := by
  simp [isName, and_assoc]

/-- The spelling of a place, by the last name on the way to it. -/
theorem flatMap_concat (before : Key) (last : Bytes) :
    (before ++ [last]).flatMap (fun name => slash :: name)
      = before.flatMap (fun name => slash :: name) ++ slash :: last := by
  rw [List.flatMap_append, List.flatMap_singleton]

/-- Names without a slash, each after a slash, are the pieces of what they spell. -/
theorem pieces_flatMap (h : ∀ name ∈ k, slash ∉ name) :
    Path.pieces (k.flatMap fun name => slash :: name) = [] :: k := by
  induction k using List.reverseRecOn with
  | nil => rfl
  | append_singleton before last ih =>
    have hbefore := ih fun name hname => h name (List.mem_append_left [last] hname)
    have hlast : slash ∉ last := h last (by simp)
    rw [flatMap_concat, Path.pieces_append_slash, hbefore, Path.pieces_of_slash_free hlast]
    rfl

theorem text_of_ne_root (h : k ≠ []) : k.text = k.flatMap fun name => slash :: name := if_neg h

namespace Canonical

theorem slash_free (h : k.Canonical) : ∀ name ∈ k, slash ∉ name :=
  fun name hname => (isName_iff.1 (h name hname)).2.2.2

theorem parent (h : k.Canonical) : k.parent.Canonical :=
  fun name hname => h name (List.dropLast_subset k hname)

theorem of_prefix {a : Key} (h : k.Canonical) (ha : a <+: k) : a.Canonical :=
  fun name hname => h name (ha.subset hname)

/-- The pieces of a spelling other than that of the root. -/
theorem pieces_text (h : k.Canonical) (hk : k ≠ []) : k.text.pieces = [] :: k := by
  rw [text_of_ne_root hk]
  exact pieces_flatMap h.slash_free

theorem names_text (h : k.Canonical) : k.text.names = k := by
  by_cases hk : k = []
  · rw [hk]
    rfl
  · rw [Path.names, h.pieces_text hk, List.filter_cons_of_neg (by simp), List.filter_eq_self]
    intro name hname
    simpa using (isName_iff.1 (h name hname)).1

/-- Names that can stand in a key are kept as they are. -/
theorem foldl_pushName (h : k.Canonical) (rooted : Bool) (kept : List Bytes) :
    k.foldl (Path.pushName rooted) kept = k.reverse ++ kept := by
  induction k generalizing kept with
  | nil => rfl
  | cons name more ih =>
    obtain ⟨-, hdot, hdotDot, -⟩ := isName_iff.1 (h name List.mem_cons_self)
    rw [List.foldl_cons, Path.pushName_of_name hdot hdotDot,
      ih fun n hn => h n (List.mem_cons_of_mem name hn), List.reverse_cons, List.append_assoc]
    rfl

/-- The spelling of a canonical key leads back to it. -/
theorem key_text (h : k.Canonical) : k.text.key = k := by
  rw [Path.key, Path.keyOfNames, h.names_text, h.foldl_pushName, List.append_nil,
    List.reverse_reverse]

/-- Canonical keys with one spelling are one key. -/
theorem eq_of_text {other : Key} (h : k.Canonical) (hother : other.Canonical)
    (htext : k.text = other.text) : k = other := by
  rw [← h.key_text, htext, hother.key_text]

theorem endsInSlash_flatMap (h : k.Canonical) :
    Path.endsInSlash (k.flatMap fun name => slash :: name) = false := by
  induction k using List.reverseRecOn with
  | nil => rfl
  | append_singleton before last _ =>
    obtain ⟨hlast, -, -, hfree⟩ := isName_iff.1 (h last (by simp))
    obtain ⟨b, hb⟩ := Option.ne_none_iff_exists'.1 (mt List.getLast?_eq_none_iff.1 hlast)
    have hne : b ≠ slash := by
      rintro rfl
      exact hfree (List.mem_of_getLast? hb)
    rw [flatMap_concat, Path.endsInSlash, List.getLast?_append, List.getLast?_cons, hb]
    simpa using hne

/-- The spelling of a canonical key is canonical. -/
theorem isCanonical_text (h : k.Canonical) : k.text.IsCanonical := by
  by_cases hk : k = []
  · rw [hk]
    exact ⟨rfl, fun hne => absurd rfl hne, fun hne => absurd rfl hne⟩
  · refine ⟨?_, fun _ piece hpiece => ?_, fun _ => ?_⟩
    · obtain ⟨name, more, rfl⟩ := List.exists_cons_of_ne_nil hk
      rfl
    · rw [h.pieces_text hk] at hpiece
      obtain ⟨hname, hdot, hdotDot, -⟩ := isName_iff.1 (h piece hpiece)
      exact ⟨hname, hdot, hdotDot⟩
    · rw [text_of_ne_root hk]
      exact h.endsInSlash_flatMap

/-- The parent of a spelling spells the parent. -/
theorem parent_text (h : k.Canonical) (hk : k ≠ []) : k.text.parent = k.parent.text := by
  obtain ⟨before, last, rfl⟩ : ∃ before last, k = before ++ [last] :=
    ⟨_, _, (List.dropLast_concat_getLast hk).symm⟩
  obtain ⟨hlast, -, -, hfree⟩ := isName_iff.1 (h last (by simp))
  have hbefore : Key.Canonical before := h.of_prefix (List.prefix_append before [last])
  have hparent : Key.parent (before ++ [last]) = before := List.dropLast_concat
  rw [text_of_ne_root hk, flatMap_concat, hparent,
    Path.parent_append_name hlast hfree hbefore.endsInSlash_flatMap, text]
  by_cases hroot : before = []
  · rw [hroot]
    rfl
  · obtain ⟨name, more, rfl⟩ := List.exists_cons_of_ne_nil hroot
    rfl

/-- What begins with a spelling and a slash spells a place below. -/
theorem isAbove_of_text {other : Key} (h : k.Canonical) (hk : k ≠ []) (hother : other.Canonical)
    (hbegins : k.text ++ [slash] <+: other.text) : k.isAbove other = true := by
  obtain ⟨rest, hrest⟩ := hbegins
  rw [List.append_assoc, List.singleton_append] at hrest
  obtain ⟨piece, more, hmore⟩ := List.exists_cons_of_ne_nil (Path.pieces_ne_nil rest)
  have hpieces := Path.pieces_append_slash k.text rest
  rw [hrest, h.pieces_text hk, hmore] at hpieces
  have hne : other ≠ [] := by
    rintro rfl
    -- the root has two pieces, and there are at least three here
    have hlength := congrArg List.length hpieces
    have hpos := List.length_pos_iff.2 hk
    have hroot : (text []).pieces.length = 2 := rfl
    rw [hroot, List.length_append, List.length_cons, List.length_cons] at hlength
    omega
  rw [hother.pieces_text hne, List.cons_append, List.cons.injEq] at hpieces
  rw [isAbove_iff, hpieces.2]
  exact ⟨List.prefix_append k _, fun heq => by simp at heq⟩

end Canonical

end Key

end StagedCopy
