import Mathlib.Logic.Relation
import StagedCopy.Proofs.Path.Plain

/-!
# Longer spellings of a path

A path can be spelled longer and still lead the same way: with a separator doubled, with `.` as a
component, with a detour down to a name and back up, and with a separator at the end. This changes
neither where the path begins nor what is left of its names once `.` and `..` are read. So it has
the same normal spelling without a separator at the end. Only a path of separators alone keeps the
spelling it has, and every other spelling of it is one of the root too.

* `Path.Lengthens`, `Path.Respelled` — one such change, and any number of them.
* `Path.Same` — spellings that differ in nothing but the number of separators in a row.
* `Path.withoutTrailingSeparator_eq_spell` — the normal spelling by what is left of the names.
* `Path.Respelled.settles` — longer spellings have one normal spelling.
-/

namespace StagedCopy

namespace Path

variable {p q : Path}

/-! ## Changes of spelling -/

/-- More components between the beginning of a path and the rest, with the separators that are
missing around them. -/
def insertBetween (front more back : Path) : Path :=
  front.join more ++ if back.isEmpty || back.isRooted then back else slash :: back

/-- The two parts of a path meet between two of its components, before the first one of a path that
is not rooted, or after the last one. -/
def MeetsBetween (front back : Path) : Prop :=
  (front = [] ∧ back ≠ [] ∧ back.isRooted = false) ∨
    (front ≠ [] ∧ (front.endsInSlash = true ∨ back = [] ∨ back.isRooted = true))

instance (front back : Path) : Decidable (MeetsBetween front back) :=
  inferInstanceAs (Decidable (_ ∨ _))

/-- A path is spelled longer in one place: a separator is doubled, `.` is put in, a name and `..`
are put in, or a separator stands at the end. -/
inductive Lengthens : Path → Path → Prop where
  | separator (front back : Path) :
      Lengthens (front ++ slash :: back) (front ++ slash :: slash :: back)
  | here {front back : Path} (h : MeetsBetween front back) :
      Lengthens (front ++ back) (insertBetween front dot back)
  | detour {front back : Path} {name : Bytes} (h : MeetsBetween front back)
      (hname : Key.isName name = true) :
      Lengthens (front ++ back) (insertBetween front (name ++ slash :: dotDot) back)
  | ending {p : Path} (h : p ≠ []) : Lengthens p (p ++ [slash])

/-- A path is spelled longer in any number of places. -/
def Respelled : Path → Path → Prop := Relation.ReflTransGen Lengthens

/-- The path is spelled by separators alone, as the root is. -/
def IsSeparators (p : Path) : Prop := p ≠ [] ∧ p.hasNames = false

instance (p : Path) : Decidable p.IsSeparators := inferInstanceAs (Decidable (_ ∧ _))

/-- Two spellings of one path: both are rooted or neither is, the names are the same, and both end
in a name or neither does. They differ at most in the number of separators in a row. -/
structure Same (p q : Path) : Prop where
  rooted : p.isRooted = q.isRooted
  names : p.names = q.names
  filename : p.hasFilename = q.hasFilename

theorem Same.refl (p : Path) : Same p p := ⟨rfl, rfl, rfl⟩

/-! ## Names of a longer spelling -/

theorem names_append_of_isRooted (p : Path) (h : q.isRooted = true) :
    (p ++ q).names = p.names ++ q.names := by
  obtain ⟨rest, rfl⟩ := List.head?_eq_some_iff.1 (beq_iff_eq.1 h)
  rw [names_append_slash]
  exact congrArg (p.names ++ ·) (names_append_slash [] rest).symm

theorem names_of_meetsBetween {front back : Path} (h : MeetsBetween front back) :
    (front ++ back).names = front.names ++ back.names := by
  rcases h with ⟨rfl, -⟩ | ⟨-, hended | rfl | hrooted⟩
  · rfl
  · exact names_append_of_endsInSlash hended back
  · rw [List.append_nil, names_nil, List.append_nil]
  · exact names_append_of_isRooted front hrooted

theorem names_insertBetween (front more back : Path) :
    (insertBetween front more back).names = front.names ++ more.names ++ back.names := by
  unfold insertBetween
  split
  · next h =>
    rcases Bool.or_eq_true_iff.1 h with hempty | hrooted
    · rw [List.isEmpty_iff.1 hempty, List.append_nil, names_nil, List.append_nil, names_join]
    · rw [names_append_of_isRooted _ hrooted, names_join]
  · rw [names_append_slash, names_join]

@[simp] theorem hasNames_append (p q : Path) :
    (p ++ q).hasNames = (p.hasNames || q.hasNames) := List.any_append

theorem hasNames_insertBetween {more : Path} (hmore : more.hasNames = true) (front back : Path) :
    (insertBetween front more back).hasNames = true := by
  have hjoin : (front.join more).hasNames = true := by
    unfold join
    split
    · rw [hasNames_append, hmore, Bool.or_true]
    · rw [List.append_cons, hasNames_append, hmore, Bool.or_true]
  rw [insertBetween, hasNames_append, hjoin, Bool.true_or]

theorem isRooted_append (hp : p ≠ []) (q : Path) : (p ++ q).isRooted = p.isRooted := by
  obtain ⟨b, rest, rfl⟩ := List.exists_cons_of_ne_nil hp
  rfl

theorem isRooted_of_slash_free (h : slash ∉ p) : p.isRooted = false := by
  rw [isRooted, beq_eq_false_iff_ne]
  exact fun hhead => h (List.mem_of_head? hhead)

theorem isRooted_insertBetween {front more back : Path} (h : MeetsBetween front back)
    (hmore : more ≠ []) (hrelative : more.isRooted = false) :
    (insertBetween front more back).isRooted = (front ++ back).isRooted := by
  unfold insertBetween
  rcases h with ⟨rfl, -, hback⟩ | ⟨hfront, -⟩
  · have hjoin : join [] more = more := rfl
    rw [hjoin, isRooted_append hmore, hrelative, List.nil_append, hback]
  · have hjoin : ∃ rest, front.join more = front ++ rest := by
      unfold join
      split
      · exact ⟨_, rfl⟩
      · exact ⟨_, rfl⟩
    obtain ⟨rest, hrest⟩ := hjoin
    rw [hrest, List.append_assoc, isRooted_append hfront, isRooted_append hfront]

/-! ## What a longer spelling comes to -/

/-- The second path begins where the first one does, comes to the same names, and goes on after the
separators that it begins with when the first one does. -/
structure LeadsAlike (p q : Path) : Prop where
  rooted : q.isRooted = p.isRooted
  names : q.normalNames = p.normalNames
  named : p.hasNames = true → q.hasNames = true

theorem LeadsAlike.refl (p : Path) : LeadsAlike p p := ⟨rfl, rfl, id⟩

theorem LeadsAlike.trans {r : Path} (h : LeadsAlike p q) (h' : LeadsAlike q r) : LeadsAlike p r :=
  ⟨h'.rooted.trans h.rooted, h'.names.trans h.names, fun hp => h'.named (h.named hp)⟩

/-- Components that leave every place as it is, where names are kept. -/
def Idle (names : List Bytes) : Prop :=
  ∀ rooted kept, names.foldl (pushName rooted) kept = kept

theorem idle_dot : Idle [dot] := fun rooted kept => pushName_dot rooted kept

/-- A name is taken back by the `..` after it. -/
theorem idle_detour {name : Bytes} (h : Key.isName name = true) : Idle [name, dotDot] := by
  obtain ⟨-, hdot, hdots, -⟩ := Key.isName_iff.1 h
  intro rooted kept
  rw [List.foldl_cons, List.foldl_cons, List.foldl_nil, pushName_of_name hdot hdots,
    pushName_dotDot hdots]

theorem normalNames_insertBetween {front more back : Path} (h : MeetsBetween front back)
    (hrooted : (insertBetween front more back).isRooted = (front ++ back).isRooted)
    (hidle : Idle more.names) :
    (insertBetween front more back).normalNames = (front ++ back).normalNames := by
  rw [normalNames, normalNames, hrooted, names_insertBetween, names_of_meetsBetween h,
    List.foldl_append, List.foldl_append, List.foldl_append, hidle]

theorem LeadsAlike.insertBetween {front more back : Path} (h : MeetsBetween front back)
    (hmore : more.hasNames = true) (hrelative : more.isRooted = false) (hidle : Idle more.names) :
    LeadsAlike (front ++ back) (insertBetween front more back) := by
  have hne : more ≠ [] := by
    rintro rfl
    cases hmore
  have hrooted := isRooted_insertBetween h hne hrelative
  exact ⟨hrooted, normalNames_insertBetween h hrooted hidle,
    fun _ => hasNames_insertBetween hmore front back⟩

theorem Lengthens.ne_nil (h : Lengthens p q) : p ≠ [] := by
  cases h with
  | separator front back => exact List.append_ne_nil_of_right_ne_nil front (List.cons_ne_nil _ _)
  | ending hp => exact hp
  | here h | detour h _ =>
    rcases h with ⟨-, hback, -⟩ | ⟨hfront, -⟩
    · exact List.append_ne_nil_of_right_ne_nil _ hback
    · exact List.append_ne_nil_of_left_ne_nil hfront _

/-- A path leads alike when it is spelled longer in one place. -/
theorem Lengthens.leadsAlike (h : Lengthens p q) : LeadsAlike p q := by
  cases h with
  | separator front back =>
    have hnames : (front ++ slash :: slash :: back).names = (front ++ slash :: back).names := by
      rw [names_append_slash, names_append_slash]
      exact congrArg (front.names ++ ·) (names_append_slash [] back)
    have hrooted : (front ++ slash :: slash :: back).isRooted
        = (front ++ slash :: back).isRooted := by
      cases front <;> rfl
    refine ⟨hrooted, by rw [normalNames, normalNames, hrooted, hnames], fun hnamed => ?_⟩
    rw [List.append_cons, hasNames_append, hasNames_append] at hnamed ⊢
    exact hnamed
  | here h =>
    refine .insertBetween h (by decide) (by decide) ?_
    rw [names_of_slash_free (by decide) (by decide)]
    exact idle_dot
  | detour h hname =>
    obtain ⟨hne, -, -, hfree⟩ := Key.isName_iff.1 hname
    refine .insertBetween h ?_ ?_ ?_
    · rw [hasNames_append, Bool.or_eq_true_iff]
      exact .inr (by decide)
    · rw [isRooted_append hne, isRooted_of_slash_free hfree]
    · rw [names_append_slash, names_of_slash_free hfree hne,
        names_of_slash_free (by decide) (by decide)]
      exact idle_detour hname
  | ending hp =>
    have hrooted := isRooted_append hp [slash]
    refine ⟨hrooted, ?_, fun hnamed => by rw [hasNames_append, hnamed, Bool.true_or]⟩
    rw [normalNames, normalNames, hrooted, names_append_slash, names_nil, List.append_nil]

/-! ## Normal spellings -/

/-- The parent of a path with a separator at the end is the path without it. -/
theorem parent_concat_slash (hp : p ≠ []) (h : p.endsInSlash = false) :
    (p ++ [slash]).parent = p := by
  have hnamed : (p ++ [slash]).hasNames = true := by
    have hlast := hasNames_of_filename (filename_ne_nil hp h)
    rw [hasNames_append, hlast, Bool.true_or]
  have hbefore : ((p ++ [slash]).reverse.dropWhile (· != slash)).reverse = p ++ [slash] := by
    rw [List.reverse_append, List.reverse_singleton, List.singleton_append,
      List.dropWhile_cons_of_neg (by simp), List.reverse_cons, List.reverse_reverse]
  rw [parent, if_pos hnamed, hbefore]
  show (if (p ++ [slash]).dropTrailingSlashes.isEmpty && _ then [slash] else _) = _
  rw [dropTrailingSlashes_concat h, if_neg (by simp [hp])]

/-- A separator at the end of a normal spelling does not count. -/
theorem withoutTrailingSeparator_of_normal (hq : q ≠ []) (hended : q.endsInSlash = false)
    (h : p.lexicallyNormal = q ∨ p.lexicallyNormal = q ++ [slash]) :
    p.withoutTrailingSeparator = q := by
  unfold withoutTrailingSeparator
  rcases h with h | h
  · rw [h]
    exact if_neg (by simp [hasFilename, hq, hended])
  · have hnamed := hasNames_of_filename (filename_ne_nil hq hended)
    have hunnamed : (q ++ [slash]).hasFilename = false := by simp [hasFilename, endsInSlash]
    rw [h]
    exact (if_pos (by simp [hunnamed, hnamed])).trans (parent_concat_slash hq hended)

/-- Below the root, what is spelled ends in a name. -/
theorem spell_unended {kept : List Bytes} (h : ∀ n ∈ kept, n ≠ [] ∧ slash ∉ n) (hkept : kept ≠ [])
    (rooted : Bool) : spell rooted kept ≠ [] ∧ (spell rooted kept).endsInSlash = false := by
  have hne := joinNames_ne_nil h hkept
  rw [spell, if_neg hkept]
  refine ⟨List.append_ne_nil_of_right_ne_nil _ hne, ?_⟩
  rw [endsInSlash, List.getLast?_append_of_ne_nil _ hne]
  exact endsInSlash_joinNames h

/-- The normal spelling without a separator at the end, of a path that goes on after the separators
it begins with. -/
theorem withoutTrailingSeparator_eq_spell (h : p.hasNames = true) :
    p.withoutTrailingSeparator = spell p.isRooted p.normalNames := by
  have hnormal := lexicallyNormal_eq_spell h
  by_cases hkept : p.normalNames = []
  · have hspelled : p.lexicallyNormal = spell p.isRooted p.normalNames :=
      hnormal.resolve_right fun hended => hended.1 hkept
    unfold withoutTrailingSeparator
    rw [hspelled, hkept]
    cases p.isRooted <;> rfl
  · obtain ⟨hne, hended⟩ := spell_unended p.spellable_normalNames hkept p.isRooted
    exact withoutTrailingSeparator_of_normal hne hended (hnormal.imp_right And.right)

theorem withoutTrailingSeparator_of_nameless (h : p.hasNames = false) :
    p.withoutTrailingSeparator = p := by
  have hnormal : p.lexicallyNormal = p := by rw [lexicallyNormal, if_neg (by simp [h])]
  unfold withoutTrailingSeparator
  rw [hnormal]
  exact if_neg (by simp [h])

/-! ## The root by separators alone -/

namespace IsSeparators

theorem eq_replicate (h : p.IsSeparators) : ∃ n, p = List.replicate (n + 1) slash := by
  obtain ⟨n, hn⟩ := Nat.exists_eq_succ_of_ne_zero (mt List.length_eq_zero_iff.1 h.1)
  refine ⟨n, List.eq_replicate_iff.2 ⟨hn, fun b hb => ?_⟩⟩
  have hnameless := h.2
  rw [hasNames, List.any_eq_false] at hnameless
  simpa using hnameless b hb

theorem isRooted (h : p.IsSeparators) : p.isRooted = true := by
  obtain ⟨n, rfl⟩ := h.eq_replicate
  rfl

theorem endsInSlash (h : p.IsSeparators) : p.endsInSlash = true := by
  obtain ⟨n, rfl⟩ := h.eq_replicate
  rw [Path.endsInSlash, List.replicate_succ', List.getLast?_concat]
  rfl

theorem names (h : p.IsSeparators) : p.names = [] := names_of_hasNames h.2

theorem normalNames (h : p.IsSeparators) : p.normalNames = [] := by
  rw [Path.normalNames, h.names]
  rfl

theorem dropTrailingSlashes (h : p.IsSeparators) : p.dropTrailingSlashes = [] := by
  obtain ⟨n, rfl⟩ := h.eq_replicate
  simp [Path.dropTrailingSlashes]

theorem parent (h : p.IsSeparators) : p.parent = p := by rw [Path.parent, if_neg (by simp [h.2])]

theorem withoutTrailingSeparator (h : p.IsSeparators) : p.withoutTrailingSeparator = p :=
  withoutTrailingSeparator_of_nameless h.2

end IsSeparators

/-- The two paths are spelled alike, but for the root, which any number of separators may spell. -/
def SpelledAlike (p q : Path) : Prop := p = q ∨ p.IsSeparators ∧ q.IsSeparators

theorem SpelledAlike.parent (h : SpelledAlike p q) : SpelledAlike p.parent q.parent := by
  rcases h with rfl | ⟨hp, hq⟩
  · exact .inl rfl
  · rw [hp.parent, hq.parent]
    exact .inr ⟨hp, hq⟩

/-! ## Separators at the end -/

/-- Only the root ends in a separator, and under a condition any number of them may spell it. -/
def UnlessRoot (loose : Prop) (p : Path) : Prop :=
  p.endsInSlash = true → p = [slash] ∨ loose ∧ p.IsSeparators

theorem UnlessRoot.mono {loose looser : Prop} (h : UnlessRoot loose p) (himp : loose → looser) :
    UnlessRoot looser p :=
  fun hended => (h hended).imp_right fun hloose => ⟨himp hloose.1, hloose.2⟩

theorem endsInSlash_dropTrailingSlashes (p : Path) : p.dropTrailingSlashes.endsInSlash = false := by
  have hhead := List.head?_dropWhile_not (· == slash) p.reverse
  rw [dropTrailingSlashes, endsInSlash, List.getLast?_reverse]
  cases hkept : (p.reverse.dropWhile (· == slash)).head? with
  | none => rfl
  | some b =>
    rw [hkept] at hhead
    simpa using hhead

theorem UnlessRoot.parent {loose : Prop} (h : UnlessRoot loose p) : UnlessRoot loose p.parent := by
  unfold Path.parent
  split
  · generalize (p.reverse.dropWhile (· != slash)).reverse = before
    show UnlessRoot loose (if (dropTrailingSlashes before).isEmpty && isRooted before then [slash]
      else dropTrailingSlashes before)
    split
    · exact fun _ => .inl rfl
    · intro hended
      rw [endsInSlash_dropTrailingSlashes] at hended
      cases hended
  · exact h

theorem unlessRoot_spell {kept : List Bytes} (h : ∀ n ∈ kept, n ≠ [] ∧ slash ∉ n) (rooted : Bool)
    (loose : Prop) : UnlessRoot loose (spell rooted kept) := by
  intro hended
  by_cases hkept : kept = []
  · rw [hkept] at hended ⊢
    cases rooted with
    | true => exact .inl rfl
    | false => cases hended
  · rw [(spell_unended h hkept rooted).2] at hended
    cases hended

theorem unlessRoot_withoutTrailingSeparator (p : Path) :
    UnlessRoot p.IsSeparators p.withoutTrailingSeparator := by
  cases hnamed : p.hasNames with
  | true =>
    rw [withoutTrailingSeparator_eq_spell hnamed]
    exact unlessRoot_spell p.spellable_normalNames _ _
  | false =>
    rw [withoutTrailingSeparator_of_nameless hnamed]
    intro hended
    have hp : p ≠ [] := by
      rintro rfl
      cases hended
    exact .inr ⟨⟨hp, hnamed⟩, hp, hnamed⟩

/-- Only the empty path is spelled by nothing. -/
theorem withoutTrailingSeparator_eq_nil_iff : p.withoutTrailingSeparator = [] ↔ p = [] := by
  constructor
  · intro h
    cases hnamed : p.hasNames with
    | true =>
      rw [withoutTrailingSeparator_eq_spell hnamed] at h
      by_cases hkept : p.normalNames = []
      · rw [hkept] at h
        cases hrooted : p.isRooted <;> rw [hrooted] at h <;> cases h
      · exact absurd h (spell_unended p.spellable_normalNames hkept p.isRooted).1
    | false => rwa [withoutTrailingSeparator_of_nameless hnamed] at h
  · rintro rfl
    rfl

/-! ## Any number of changes -/

theorem Respelled.leadsAlike (h : Respelled p q) : LeadsAlike p q := by
  induction h with
  | refl => exact .refl p
  | tail _ hstep ih => exact ih.trans hstep.leadsAlike

/-- Nothing is a longer spelling of the empty path. -/
theorem Respelled.eq_nil (h : Respelled [] q) : q = [] := by
  induction h with
  | refl => rfl
  | tail _ hstep ih => exact absurd ih hstep.ne_nil

/-- Longer spellings have one normal spelling without a separator at the end, byte for byte, unless
the path is spelled by separators alone: then each is a spelling of the root. -/
theorem Respelled.settles (h : Respelled p q) :
    SpelledAlike p.withoutTrailingSeparator q.withoutTrailingSeparator ∧
      (¬ p.IsSeparators → p.withoutTrailingSeparator = q.withoutTrailingSeparator) := by
  have halike := h.leadsAlike
  by_cases hseparators : p.IsSeparators
  · have hown := hseparators.withoutTrailingSeparator
    refine ⟨.inr ⟨by rwa [hown], ?_⟩, absurd hseparators⟩
    have hrooted := halike.rooted.trans hseparators.isRooted
    cases hnamed : q.hasNames with
    | true =>
      rw [withoutTrailingSeparator_eq_spell hnamed, hrooted, halike.names, hseparators.normalNames]
      exact ⟨List.cons_ne_nil _ _, rfl⟩
    | false =>
      have hq : q ≠ [] := by
        rintro rfl
        cases hrooted
      rw [withoutTrailingSeparator_of_nameless hnamed]
      exact ⟨hq, hnamed⟩
  · have hsame : p.withoutTrailingSeparator = q.withoutTrailingSeparator := by
      by_cases hp : p = []
      · rw [hp] at h ⊢
        rw [h.eq_nil]
      · have hnamed : p.hasNames = true := by
          by_contra hnameless
          exact hseparators ⟨hp, Bool.eq_false_iff.2 hnameless⟩
        rw [withoutTrailingSeparator_eq_spell hnamed,
          withoutTrailingSeparator_eq_spell (halike.named hnamed), halike.rooted, halike.names]
    exact ⟨.inl hsame, fun _ => hsame⟩

end Path

end StagedCopy
