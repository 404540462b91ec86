import StagedCopy.Json.Reader
import StagedCopy.Proofs.Binary64
import StagedCopy.Proofs.Json.Members

/-!
# The numbers of a document

An integer of a document is held in 64 bits, with or without a sign; whatever does not fit is a
double. Every document that is read is of this kind, so the conversions of its numbers need to be
known for such integers only.

* `Json.Fits` — the documents whose integers fit.
* `Json.wholePart?` — the whole part of a number, before any conversion.
* `Json.Fits.wholePart?_eq` — the conversion keeps the whole part, unless it turns negative.
* `Json.Holds`, `Json.number?_holds` — the values that an integer is held as, and read to.
* `Json.read_fits` — what is read fits.
-/

namespace StagedCopy

namespace Json

/-- All integers in the document fit in 64 bits. -/
inductive Fits : Json → Prop where
  | null : Fits null
  | bool (value : Bool) : Fits (bool value)
  | unsigned {n : Nat} (h : n < 2 ^ 64) : Fits (unsigned n)
  | signed {n : Int} (hlow : -2 ^ 63 ≤ n) (hhigh : n < 2 ^ 63) : Fits (signed n)
  | float (q : Rat) : Fits (float q)
  | string (s : Bytes) : Fits (string s)
  | array {elements : List Json} (h : ∀ element ∈ elements, Fits element) : Fits (array elements)
  | object {members : List (Bytes × Json)} (h : ∀ member ∈ members, Fits member.2) :
    Fits (object members)

theorem Fits.members? {document : Json} {members : List (Bytes × Json)} (h : document.Fits)
    (hmembers : document.members? = some members) : ∀ member ∈ members, member.2.Fits := by
  cases h with
  | object h =>
    cases hmembers
    exact h
  | _ => cases hmembers

/-! ## Whole parts -/

/-- The whole part of a number, towards zero; that of an integer is the integer. -/
def wholePart? : Json → Option Int
  | unsigned n => some n
  | signed n => some n
  | float q => some (Binary64.truncate q)
  | _ => none

/-- A number that wraps around turns negative. -/
theorem wrapSigned64_eq {n : Nat} (hn : n < 2 ^ 64) (h : 0 ≤ wrapSigned64 n) :
    wrapSigned64 n = n := by
  unfold wrapSigned64 at h ⊢
  rw [Int.bmod_def] at h ⊢
  omega

/-- The conversion to 64 bits keeps the whole part of a number, unless the result is negative. -/
theorem Fits.wholePart?_eq {value : Json} {n : Int} (hfits : value.Fits)
    (h : value.toInt64? = some n) (hn : 0 ≤ n) : value.wholePart? = some n := by
  cases hfits with
  | unsigned hbound =>
    obtain rfl := Option.some.inj h
    rw [wholePart?, wrapSigned64_eq hbound hn]
  | signed => exact h
  | float q =>
    obtain rfl := Option.some.inj h
    rw [wholePart?, Binary64.toInt64_eq_truncate hn]
  | _ => cases h

/-! ## Integers -/

/-- The value is one that the integer is held as: with or without a sign when it fits in 64 bits so,
and else the closest double. -/
inductive Holds : Json → Int → Prop where
  | unsigned {n : Nat} (h : n < 2 ^ 64) : Holds (unsigned n) n
  | signed {n : Int} (hlow : -2 ^ 63 ≤ n) (hhigh : n < 2 ^ 63) : Holds (signed n) n
  | float {n : Int} (h : n < -2 ^ 63 ∨ 2 ^ 64 ≤ n) : Holds (float (Binary64.ofInt n)) n

/-- Digits alone are read as a double to the double closest to their number. -/
theorem eq_ofNat_of_scientific? {n : Nat} {q : Rat} (h : scientific? n 0 = some q) :
    q = Binary64.ofNat n := by
  unfold scientific? at h
  dsimp only at h
  split at h
  · next hzero =>
    cases h
    rw [hzero]
    rfl
  split at h
  · cases h
  split at h
  · omega
  · obtain ⟨-, h⟩ := Option.ite_none_left_eq_some.1 h
    simpa [Binary64.ofNat] using h.symm

/-- An integer is read to a value that it is held as. -/
theorem number?_holds {negative : Bool} {digits : Bytes} {value : Json}
    (h : number? negative digits none none = some value) :
    value.Holds (if negative then -(ofDigits digits) else ofDigits digits) := by
  simp only [number?, Option.isNone_none, Bool.and_self, if_true] at h
  cases negative with
  | true =>
    rw [if_pos rfl] at h ⊢
    split at h
    · cases h
      exact .signed (by omega) (by omega)
    · obtain ⟨q, hq, rfl⟩ := Option.map_eq_some_iff.1 h
      rw [if_pos rfl, eq_ofNat_of_scientific? hq, ← Binary64.ofInt_neg_natCast (by omega)]
      exact .float (by omega)
  | false =>
    rw [if_neg Bool.false_ne_true] at h ⊢
    split at h
    · cases h
      exact .unsigned (by omega)
    · obtain ⟨q, hq, rfl⟩ := Option.map_eq_some_iff.1 h
      rw [eq_ofNat_of_scientific? hq, ← Binary64.ofInt_natCast]
      exact .float (by omega)

/-! ## Reading -/

theorem number?_fits {negative : Bool} {whole : Bytes} {fraction : Option Bytes}
    {exponent : Option Int} {value : Json}
    (h : number? negative whole fraction exponent = some value) : value.Fits := by
  unfold number? at h
  dsimp only at h
  split at h
  · split at h
    · split at h
      · cases h
        exact .signed (by omega) (by omega)
      · obtain ⟨q, -, rfl⟩ := Option.map_eq_some_iff.1 h
        exact .float _
    · split at h
      · cases h
        exact .unsigned (by omega)
      · obtain ⟨q, -, rfl⟩ := Option.map_eq_some_iff.1 h
        exact .float _
  · obtain ⟨q, -, rfl⟩ := Option.map_eq_some_iff.1 h
    exact .float _

theorem readNumber_fits {s rest : Bytes} {value : Json} (h : readNumber s = some (value, rest)) :
    value.Fits := by
  unfold readNumber at h
  dsimp only [Option.bind_eq_bind] at h
  split at h
  · cases h
  all_goals
    simp only [Option.bind_some, Option.bind_eq_some_iff] at h
    obtain ⟨fraction, -, exponent, -, number, hnumber, h⟩ := h
    cases h
    exact number?_fits hnumber

/-- With the given bound on its depth, the recursive descent reads what fits, when what it has read
so far does. -/
structure ReadsFitting (fuel : Nat) : Prop where
  value : ∀ {s value rest}, readValue fuel s = some (value, rest) → value.Fits
  elements : ∀ {s done value rest}, (∀ element ∈ done, Fits element) →
    readElements fuel s done = some (value, rest) → value.Fits
  members : ∀ {s done value rest}, (∀ member ∈ done, Fits member.2) →
    readMembers fuel s done = some (value, rest) → value.Fits

section descent

variable {fuel : Nat} {s rest : Bytes} {value : Json}

theorem readsFitting_zero : ReadsFitting 0 where
  value h := by
    rw [readValue] at h
    cases h
  elements _ h := by
    rw [readElements] at h
    cases h
  members _ h := by
    rw [readMembers] at h
    cases h

theorem readValue_fits (ih : ReadsFitting fuel)
    (h : readValue (fuel + 1) s = some (value, rest)) : value.Fits := by
  rw [readValue] at h
  split at h
  · split at h
    · cases h
      exact .object fun member hmember => absurd hmember List.not_mem_nil
    · exact ih.members (fun member hmember => absurd hmember List.not_mem_nil) h
  · split at h
    · cases h
      exact .array fun element helement => absurd helement List.not_mem_nil
    · exact ih.elements (fun element helement => absurd helement List.not_mem_nil) h
  · obtain ⟨⟨text, rest'⟩, -, h⟩ := Option.map_eq_some_iff.1 h
    cases h
    exact .string text
  · cases h
    exact .bool true
  · cases h
    exact .bool false
  · cases h
    exact .null
  · exact readNumber_fits h

theorem readElements_fits {done : List Json} (ih : ReadsFitting fuel)
    (hdone : ∀ element ∈ done, Fits element)
    (h : readElements (fuel + 1) s done = some (value, rest)) : value.Fits := by
  rw [readElements] at h
  obtain ⟨⟨element, rest'⟩, helement, h⟩ := Option.bind_eq_some_iff.1 h
  have hmore : ∀ other ∈ element :: done, Fits other :=
    List.forall_mem_cons.2 ⟨ih.value helement, hdone⟩
  dsimp only at h
  split at h
  · exact ih.elements hmore h
  · cases h
    exact .array fun other hother => hmore other (List.mem_reverse.1 hother)
  · cases h

theorem readMembers_fits {done : List (Bytes × Json)} (ih : ReadsFitting fuel)
    (hdone : ∀ member ∈ done, Fits member.2)
    (h : readMembers (fuel + 1) s done = some (value, rest)) : value.Fits := by
  rw [readMembers] at h
  split at h
  · obtain ⟨⟨name, rest'⟩, -, h⟩ := Option.bind_eq_some_iff.1 h
    dsimp only at h
    split at h
    · obtain ⟨⟨member, rest''⟩, hmember, h⟩ := Option.bind_eq_some_iff.1 h
      have hmore : ∀ other ∈ (name, member) :: done, Fits other.2 :=
        List.forall_mem_cons.2 ⟨ih.value hmember, hdone⟩
      dsimp only at h
      split at h
      · exact ih.members hmore h
      · cases h
        exact .object fun other hother => hmore other (List.mem_reverse.1 hother)
      · cases h
    · cases h
  · cases h

end descent

theorem readsFitting (fuel : Nat) : ReadsFitting fuel := by
  induction fuel with
  | zero => exact readsFitting_zero
  | succ fuel ih => exact ⟨readValue_fits ih, readElements_fits ih, readMembers_fits ih⟩

/-- What is read fits. -/
theorem read_fits {text : Bytes} {document : Json} (h : read text = some document) :
    document.Fits := by
  obtain ⟨⟨value, rest⟩, hread, h⟩ := Option.bind_eq_some_iff.1 h
  obtain ⟨-, h⟩ := Option.ite_none_right_eq_some.1 h
  cases h
  exact (readsFitting _).value hread

end Json

end StagedCopy
