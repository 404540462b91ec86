import Mathlib.Data.List.TakeWhile
import StagedCopy.Bytes

/-!
# Byte order and beginnings

Byte strings are listed in the order of lists, byte by byte and a proper beginning first. In this
order the byte strings with a given beginning follow one another, and none of them comes before the
beginning. So in a sorted list they are one stretch, which is found by going to where the beginning
itself would stand.

* `bytesLe_iff` — the order of listings is the order of lists.
* `sortBytes_pairwise` — sorted lists are in order.
* `prefix_of_between` — what comes between a beginning and something that begins with it.
* `filter_prefix_eq_stretch` — the stretch of a sorted list.
-/

namespace StagedCopy

/-! ## Sorted lists -/

/-- Listings are in the order of lists. -/
theorem bytesLe_iff {a b : Bytes} : bytesLe a b = true ↔ a ≤ b := by
  induction a generalizing b with
  | nil => simp [bytesLe]
  | cons x a ih =>
    cases b with
    | nil => simp [bytesLe]
    | cons y b => simp [bytesLe, List.cons_le_cons_iff, ih]

theorem mem_insertBy {α : Type} {le : α → α → Bool} {a b : α} {l : List α} :
    b ∈ insertBy le a l ↔ b = a ∨ b ∈ l := by
  induction l with
  | nil => simp [insertBy]
  | cons c rest ih =>
    unfold insertBy
    split
    · simp
    · simp [ih, or_left_comm]

theorem pairwise_insertBy {l : List Bytes} (h : l.Pairwise (· ≤ ·)) (a : Bytes) :
    (insertBy bytesLe a l).Pairwise (· ≤ ·) := by
  induction l with
  | nil => exact List.pairwise_singleton _ a
  | cons b rest ih =>
    obtain ⟨hb, hrest⟩ := List.pairwise_cons.1 h
    unfold insertBy
    split
    · next hle =>
      rw [bytesLe_iff] at hle
      refine List.pairwise_cons.2 ⟨?_, h⟩
      intro c hc
      rcases List.mem_cons.1 hc with rfl | hc
      · exact hle
      · exact List.le_trans hle (hb c hc)
    · next hle =>
      rw [bytesLe_iff] at hle
      refine List.pairwise_cons.2 ⟨?_, ih hrest⟩
      intro c hc
      rcases mem_insertBy.1 hc with rfl | hc
      · exact (List.le_total b c).resolve_right hle
      · exact hb c hc

theorem sortBytes_pairwise (l : List Bytes) : (sortBytes l).Pairwise (· ≤ ·) := by
  induction l with
  | nil => exact List.Pairwise.nil
  | cons a rest ih => exact pairwise_insertBy ih a

/-! ## Beginnings -/

/-- What comes between a beginning and something that begins with it begins with it as well. -/
theorem prefix_of_between {beginning a b : Bytes} (hfirst : beginning ≤ a) (hlast : a ≤ b)
    (h : beginning <+: b) : beginning <+: a := by
  induction beginning generalizing a b with
  | nil => exact List.nil_prefix
  | cons x rest ih =>
    obtain ⟨more, rfl⟩ := h
    cases a with
    | nil => simp at hfirst
    | cons y a =>
      rw [List.cons_le_cons_iff] at hfirst
      rw [List.cons_append, List.cons_le_cons_iff] at hlast
      -- the first bytes are at most each other, so they are the same
      rcases hfirst with hlt | ⟨rfl, hfirst⟩
      · rcases hlast with hlt' | ⟨rfl, -⟩
        · exact absurd hlt' (UInt8.lt_asymm hlt)
        · exact absurd hlt (UInt8.lt_irrefl _)
      · rcases hlast with hlt | ⟨-, hlast⟩
        · exact absurd hlt (UInt8.lt_irrefl _)
        · rw [List.prefix_cons_inj]
          exact ih hfirst hlast (List.prefix_append rest more)

/-- In a list in order, what begins with something follows from where that would stand, one after
another. -/
theorem filter_prefix_eq_stretch {l : List Bytes} (h : l.Pairwise (· ≤ ·)) (beginning : Bytes) :
    l.filter beginning.isPrefixOf =
      (l.dropWhile fun p => !bytesLe beginning p).takeWhile beginning.isPrefixOf := by
  induction l with
  | nil => rfl
  | cons a rest ih =>
    obtain ⟨ha, hrest⟩ := List.pairwise_cons.1 h
    by_cases hle : beginning ≤ a
    · rw [List.dropWhile_cons_of_neg (by simpa [bytesLe_iff] using hle)]
      by_cases hbegins : beginning <+: a
      · -- all that is left comes after the beginning
        have hreached : rest.dropWhile (fun p => !bytesLe beginning p) = rest := by
          rw [List.dropWhile_eq_self_iff]
          intro hpos
          simpa [bytesLe_iff] using List.le_trans hle (ha _ (List.getElem_mem hpos))
        rw [List.filter_cons_of_pos (by simpa using hbegins),
          List.takeWhile_cons_of_pos (by simpa using hbegins), ih hrest, hreached]
      · rw [List.takeWhile_cons_of_neg (by simpa using hbegins), List.filter_eq_nil_iff]
        intro b hb hbegins'
        rw [List.isPrefixOf_iff_prefix] at hbegins'
        rcases List.mem_cons.1 hb with rfl | hb
        · exact hbegins hbegins'
        · exact hbegins (prefix_of_between hle (ha b hb) hbegins')
    · have hbegins : ¬ beginning <+: a := fun hbegins => hle hbegins.le
      rw [← bytesLe_iff, Bool.not_eq_true] at hle
      rw [List.dropWhile_cons_of_pos (by simp [hle]),
        List.filter_cons_of_neg (by simpa using hbegins), ih hrest]

end StagedCopy
