import Inherent.Native.DocxNumbering

/-!
# Style numbering and the reuse of ids

The loop goes on as long as the ids of its proxies are new (`climbStyles_steps`).  The ids of two
proxies in a row differ, so that the first two styles of a chain are always looked at; the third
proxy can have the id of the first one.
-/

namespace Inherent

variable {S : Type}

namespace StyledParagraph

/-- The chain of a paragraph's styles. -/
def chain (paragraph : StyledParagraph S) : Nat → Option S
  | 0 => paragraph.style
  | n + 1 => (paragraph.chain n).bind paragraph.baseStyle

/-- The numbering of a style of the chain. -/
def numberingAt (paragraph : StyledParagraph S) (n : Nat) : Option (String × ℤ) :=
  (paragraph.chain n).bind fun style => directNumPr (paragraph.stylePPr style)

/-- The style `n` is the nearest one of the chain that has numbering. -/
def NearestAt (paragraph : StyledParagraph S) (n : Nat) (numbering : String × ℤ) : Prop :=
  paragraph.numberingAt n = some numbering ∧ ∀ m < n, paragraph.numberingAt m = none

/-- The numbering of the paragraph or else of the nearest style, and none only if no style of the
    chain has any. -/
def IsResolution (paragraph : StyledParagraph S) (result : Option (String × ℤ)) : Prop :=
  match directNumPr paragraph.pPr with
  | some direct => result = some direct
  | none =>
    (∃ n numbering, paragraph.NearestAt n numbering ∧ result = some numbering) ∨
      result = none ∧ ∀ n, paragraph.numberingAt n = none

/-- Whatever the ids of the proxies, the walk ends, with the right numbering. -/
def ResolvesNearest (paragraph : StyledParagraph S) (space : AddressSpace) : Prop :=
  ∀ ids : ProxyIds space, ∃ fuel result,
    resolveParagraphNumIdIlvl paragraph ids fuel = some result ∧ paragraph.IsResolution result

theorem chain_isSome_of_le {paragraph : StyledParagraph S} {m n : Nat} (hmn : m ≤ n)
    (h : (paragraph.chain n).isSome) : (paragraph.chain m).isSome := by
  induction n with
  | zero => exact Nat.le_zero.mp hmn ▸ h
  | succ n ih =>
    rcases Nat.eq_or_lt_of_le hmn with rfl | hlt
    · exact h
    · refine ih (Nat.le_of_lt_succ hlt) ?_
      rw [chain] at h
      cases hchain : paragraph.chain n with
      | none => simp [hchain] at h
      | some style => rfl

end StyledParagraph

/-! ## The walk -/

variable {space : AddressSpace}

/-- The ids that the walk has seen before the proxy `n`. -/
def ProxyIds.before (ids : ProxyIds space) (n : Nat) : Finset Nat :=
  (Finset.range n).image ids.id

theorem ProxyIds.before_succ (ids : ProxyIds space) (n : Nat) :
    ids.before (n + 1) = insert (ids.id n) (ids.before n) := by
  rw [before, before, Finset.range_add_one, Finset.image_insert]

variable {paragraph : StyledParagraph S} {ids : ProxyIds space}

/-- The walk goes past the style `n`. -/
def GoesPast (paragraph : StyledParagraph S) (ids : ProxyIds space) (n : Nat) : Prop :=
  (paragraph.chain n).isSome ∧ ids.id n ∉ ids.before n ∧ paragraph.numberingAt n = none

theorem climbStyles_step {n : Nat} (h : GoesPast paragraph ids n) (fuel : Nat) :
    climbStyles paragraph ids (fuel + 1) n (ids.before n) (paragraph.chain n) =
      climbStyles paragraph ids fuel (n + 1) (ids.before (n + 1)) (paragraph.chain (n + 1)) := by
  obtain ⟨hsome, hnew, hnone⟩ := h
  obtain ⟨style, hstyle⟩ := Option.isSome_iff_exists.mp hsome
  rw [StyledParagraph.numberingAt, hstyle, Option.bind_some] at hnone
  rw [StyledParagraph.chain, hstyle, climbStyles, if_neg hnew, hnone, ids.before_succ]
  rfl

theorem climbStyles_steps {m : Nat} (h : ∀ n < m, GoesPast paragraph ids n) (fuel : Nat) :
    climbStyles paragraph ids (m + fuel) 0 ∅ paragraph.style =
      climbStyles paragraph ids fuel m (ids.before m) (paragraph.chain m) := by
  induction m generalizing fuel with
  | zero =>
    rw [Nat.zero_add]
    rfl
  | succ m ih =>
    rw [Nat.add_assoc, Nat.add_comm 1 fuel, ih (fun n hn => h n (Nat.lt_succ_of_lt hn)),
      climbStyles_step (h m (Nat.lt_succ_self m))]

/-- A walk that has ended does so with more fuel. -/
theorem climbStyles_mono {fuel n : Nat} {seen : Finset Nat} {style : Option S}
    {result : Option (String × ℤ)}
    (h : climbStyles paragraph ids fuel n seen style = some result) (k : Nat) :
    climbStyles paragraph ids (fuel + k) n seen style = some result := by
  induction fuel generalizing n seen style with
  | zero => cases h
  | succ fuel ih =>
    rw [Nat.add_right_comm]
    cases style with
    | none => exact h
    | some style =>
      unfold climbStyles at h ⊢
      split
      · next hseen => rwa [if_pos hseen] at h
      · next hseen =>
        rw [if_neg hseen] at h
        cases hfound : directNumPr (paragraph.stylePPr style) with
        | some found => rwa [hfound] at h
        | none =>
          rw [hfound] at h
          exact ih h

/-- The walk ends with nothing at the first style that is missing or whose proxy has a known id. -/
theorem climbStyles_ends {m : Nat} (hpast : ∀ n < m, GoesPast paragraph ids n)
    (hend : paragraph.chain m = none ∨ ids.id m ∈ ids.before m) :
    climbStyles paragraph ids (m + 1) 0 ∅ paragraph.style = some none := by
  rw [climbStyles_steps hpast]
  cases hchain : paragraph.chain m with
  | none => rfl
  | some style =>
    have hknown : ids.id m ∈ ids.before m := hend.resolve_left (by simp [hchain])
    rw [climbStyles, if_pos hknown]

/-- The walk finds the numbering of a style whose proxy has a new id. -/
theorem climbStyles_finds {m : Nat} {numbering : String × ℤ}
    (hpast : ∀ n < m, GoesPast paragraph ids n) (hnew : ids.id m ∉ ids.before m)
    (hnumbering : paragraph.numberingAt m = some numbering) :
    climbStyles paragraph ids (m + 1) 0 ∅ paragraph.style = some (some numbering) := by
  obtain ⟨style, hstyle, hfound⟩ := Option.bind_eq_some_iff.mp hnumbering
  rw [climbStyles_steps hpast, hstyle, climbStyles, if_neg hnew, hfound]

theorem resolve_eq_climbStyles (hdirect : directNumPr paragraph.pPr = none) (fuel : Nat) :
    resolveParagraphNumIdIlvl paragraph ids fuel =
      climbStyles paragraph ids fuel 0 ∅ paragraph.style := by
  rw [resolveParagraphNumIdIlvl, hdirect]

/-! ## Where the walk is right -/

theorem isResolution_of_nearest {n : Nat} {numbering : String × ℤ}
    (hdirect : directNumPr paragraph.pPr = none) (h : paragraph.NearestAt n numbering) :
    paragraph.IsResolution (some numbering) := by
  rw [StyledParagraph.IsResolution, hdirect]
  exact .inl ⟨n, numbering, h, rfl⟩

theorem resolvesNearest_of_direct {direct : String × ℤ}
    (hdirect : directNumPr paragraph.pPr = some direct) (space : AddressSpace) :
    paragraph.ResolvesNearest space := by
  intro ids
  refine ⟨0, some direct, ?_, ?_⟩
  · rw [resolveParagraphNumIdIlvl, hdirect]
  · rw [StyledParagraph.IsResolution, hdirect]

/-- The first two styles of a chain are always looked at. -/
theorem resolvesNearest_of_nearest {n : Nat} {numbering : String × ℤ} (hn : n ≤ 1)
    (hdirect : directNumPr paragraph.pPr = none) (h : paragraph.NearestAt n numbering)
    (space : AddressSpace) : paragraph.ResolvesNearest space := by
  intro ids
  obtain ⟨hnumbering, hnone⟩ := h
  have hnew : ∀ m ≤ 1, ids.id m ∉ ids.before m := by
    intro m hm
    interval_cases m
    · simp [ProxyIds.before]
    · simpa [ProxyIds.before] using (ids.live 0).symm
  obtain ⟨style, hstyle, -⟩ := Option.bind_eq_some_iff.mp hnumbering
  have hpast : ∀ m < n, GoesPast paragraph ids m := fun m hm =>
    ⟨StyledParagraph.chain_isSome_of_le hm.le (by rw [hstyle]; rfl), hnew m (by omega),
      hnone m hm⟩
  refine ⟨n + 1, some numbering, ?_, isResolution_of_nearest hdirect ⟨hnumbering, hnone⟩⟩
  rw [resolve_eq_climbStyles hdirect]
  exact climbStyles_finds hpast (hnew n hn) hnumbering

/-- In a finite address space the ids of a walk repeat. -/
theorem ProxyIds.exists_mem_before (ids : ProxyIds space) (hfinite : space.addresses.Finite) :
    ∃ m, ids.id m ∈ ids.before m := by
  have hmaps : Set.MapsTo ids.id Set.univ space.addresses := fun n _ => ids.mem_addresses n
  obtain ⟨m, -, n, -, hne, heq⟩ :=
    Set.infinite_univ.exists_ne_map_eq_of_mapsTo hmaps hfinite
  rcases Nat.lt_or_gt_of_ne hne with hlt | hlt
  · exact ⟨n, Finset.mem_image.mpr ⟨m, Finset.mem_range.mpr hlt, heq⟩⟩
  · exact ⟨m, Finset.mem_image.mpr ⟨n, Finset.mem_range.mpr hlt, heq.symm⟩⟩

/-- Without numbering in its chain a walk that ends does so with nothing. -/
theorem resolvesNearest_of_unnumbered (hnone : ∀ n, paragraph.numberingAt n = none)
    (hends : (∃ n, paragraph.chain n = none) ∨ space.addresses.Finite)
    (hdirect : directNumPr paragraph.pPr = none) : paragraph.ResolvesNearest space := by
  classical
  intro ids
  have hend : ∃ m, paragraph.chain m = none ∨ ids.id m ∈ ids.before m := by
    rcases hends with ⟨n, hn⟩ | hfinite
    · exact ⟨n, .inl hn⟩
    · obtain ⟨m, hm⟩ := ids.exists_mem_before hfinite
      exact ⟨m, .inr hm⟩
  have hpast : ∀ n < Nat.find hend, GoesPast paragraph ids n := by
    intro n hn
    have hcontinues := Nat.find_min hend hn
    rw [not_or] at hcontinues
    exact ⟨Option.isSome_iff_ne_none.mpr hcontinues.1, hcontinues.2, hnone n⟩
  refine ⟨Nat.find hend + 1, none, ?_, ?_⟩
  · rw [resolve_eq_climbStyles hdirect]
    exact climbStyles_ends hpast (Nat.find_spec hend)
  · rw [StyledParagraph.IsResolution, hdirect]
    exact .inr ⟨rfl, hnone⟩

/-! ## Where it is not -/

/-- Two addresses that are used in turn. -/
def alternatingIds {a b : Nat} (ha : a ∈ space.addresses) (hb : b ∈ space.addresses)
    (hab : a ≠ b) : ProxyIds space where
  id n := if n % 2 = 0 then a else b
  mem_addresses n := by split <;> assumption
  live n := by
    rcases Nat.mod_two_eq_zero_or_one n with h | h
    · rw [if_pos h, if_neg (by omega)]
      exact hab
    · rw [if_neg (by omega), if_pos (by omega)]
      exact hab.symm

/-- A numbering that only the third style or a later one has is missed when the third proxy has
    the id of the first. -/
theorem not_resolvesNearest_of_later {n : Nat} {numbering : String × ℤ} (hn : 2 ≤ n)
    (hdirect : directNumPr paragraph.pPr = none) (h : paragraph.NearestAt n numbering) :
    ¬ paragraph.ResolvesNearest space := by
  intro hresolves
  obtain ⟨a, ha, b, hb, hab⟩ := space.nontrivial
  obtain ⟨hnumbering, hnone⟩ := h
  obtain ⟨style, hstyle, -⟩ := Option.bind_eq_some_iff.mp hnumbering
  have hchain : ∀ m ≤ n, (paragraph.chain m).isSome := fun m hm =>
    StyledParagraph.chain_isSome_of_le hm (by rw [hstyle]; rfl)
  have hpast : ∀ m < 2, GoesPast paragraph (alternatingIds ha hb hab) m := by
    intro m hm
    refine ⟨hchain m (by omega), ?_, hnone m (by omega)⟩
    interval_cases m
    · simp [ProxyIds.before]
    · simpa [ProxyIds.before, alternatingIds] using hab.symm
  have hends := climbStyles_ends hpast
    (.inr (Finset.mem_image.mpr ⟨0, Finset.mem_range.mpr (by omega), rfl⟩))
  obtain ⟨fuel, result, hresult, hright⟩ := hresolves (alternatingIds ha hb hab)
  rw [resolve_eq_climbStyles hdirect] at hresult
  have hsame : result = none := by
    have hlong := climbStyles_mono hresult (2 + 1)
    rw [Nat.add_comm fuel, climbStyles_mono hends fuel] at hlong
    exact (Option.some.inj hlong).symm
  rw [StyledParagraph.IsResolution, hdirect] at hright
  rcases hright with ⟨m, other, -, hsome⟩ | ⟨-, hunnumbered⟩
  · rw [hsame] at hsome
    cases hsome
  · rw [hunnumbered n] at hnumbering
    cases hnumbering

/-- When ids are never used again, the walk does not end on a cycle without numbering. -/
theorem not_resolvesNearest_of_cycle (hdirect : directNumPr paragraph.pPr = none)
    (hnone : ∀ n, paragraph.numberingAt n = none) (hchain : ∀ n, paragraph.chain n ≠ none)
    (hinfinite : space.addresses.Infinite) : ¬ paragraph.ResolvesNearest space := by
  intro hresolves
  have hinjective : Function.Injective fun n => (hinfinite.natEmbedding space.addresses n : Nat) :=
    fun _ _ h => (hinfinite.natEmbedding space.addresses).injective (Subtype.ext h)
  let ids : ProxyIds space :=
    { id := fun n => hinfinite.natEmbedding space.addresses n
      mem_addresses := fun n => (hinfinite.natEmbedding space.addresses n).2
      live := fun n h => Nat.succ_ne_self n (hinjective h).symm }
  obtain ⟨fuel, result, hresult, -⟩ := hresolves ids
  have hpast : ∀ n < fuel, GoesPast paragraph ids n := by
    intro n _
    refine ⟨Option.isSome_iff_ne_none.mpr (hchain n), fun hmem => ?_, hnone n⟩
    obtain ⟨m, hm, heq⟩ := Finset.mem_image.mp hmem
    exact (Finset.mem_range.mp hm).ne (hinjective heq)
  have hspent := climbStyles_steps hpast 0
  rw [resolve_eq_climbStyles hdirect] at hresult
  rw [Nat.add_zero, hresult] at hspent
  cases hspent

/-! ## Exactly when -/

theorem exists_nearestAt (h : ¬ ∀ n, paragraph.numberingAt n = none) :
    ∃ n numbering, paragraph.NearestAt n numbering := by
  classical
  obtain ⟨n, hn⟩ := not_forall.mp h
  have hex : ∃ n, paragraph.numberingAt n ≠ none := ⟨n, hn⟩
  obtain ⟨numbering, hnumbering⟩ := Option.ne_none_iff_exists'.mp (Nat.find_spec hex)
  exact ⟨Nat.find hex, numbering, hnumbering, fun m hm => not_not.mp (Nat.find_min hex hm)⟩

/-- The walk ends with the right numbering, whatever the ids of its proxies, exactly when the
    paragraph has numbering of its own, or the nearest numbering of its chain is that of the first
    two styles, or no style has numbering and the chain or the address space is finite. -/
theorem resolvesNearest_iff (paragraph : StyledParagraph S) (space : AddressSpace) :
    paragraph.ResolvesNearest space ↔
      (directNumPr paragraph.pPr).isSome ∨
      (∃ n numbering, n ≤ 1 ∧ paragraph.NearestAt n numbering) ∨
      (∀ n, paragraph.numberingAt n = none) ∧
        ((∃ n, paragraph.chain n = none) ∨ space.addresses.Finite) := by
  cases hdirect : directNumPr paragraph.pPr with
  | some direct => simpa using resolvesNearest_of_direct hdirect space
  | none =>
    constructor
    · intro hresolves
      refine .inr ?_
      by_cases hnone : ∀ n, paragraph.numberingAt n = none
      · refine .inr ⟨hnone, ?_⟩
        by_contra hends
        rw [not_or] at hends
        exact not_resolvesNearest_of_cycle hdirect hnone (fun n h => hends.1 ⟨n, h⟩) hends.2
          hresolves
      · obtain ⟨n, numbering, hnearest⟩ := exists_nearestAt hnone
        refine .inl ⟨n, numbering, ?_, hnearest⟩
        by_contra hn
        exact not_resolvesNearest_of_later (by omega) hdirect hnearest hresolves
    · rintro (hsome | ⟨n, numbering, hn, hnearest⟩ | ⟨hnone, hends⟩)
      · cases hsome
      · exact resolvesNearest_of_nearest hn hdirect hnearest space
      · exact resolvesNearest_of_unnumbered hnone hends hdirect

/-- A style based on a style based on a style with numbering. -/
def thirdStyleNumbered : StyledParagraph (Fin 3) where
  pPr := none
  style := some 0
  stylePPr style := if style = 2 then some ⟨some ⟨some "1", none⟩⟩ else none
  baseStyle style := if style = 0 then some 1 else if style = 1 then some 2 else none

/-- Two addresses. -/
def twoAddresses : AddressSpace where
  addresses := {0, 1}
  nontrivial := ⟨0, by simp, 1, by simp, by simp⟩

/-- The numbering of the third style is missed. -/
theorem not_resolvesNearest_thirdStyle : ¬ thirdStyleNumbered.ResolvesNearest twoAddresses := by
  have hnearest : thirdStyleNumbered.NearestAt 2 ("1", 0) := by
    refine ⟨rfl, fun m hm => ?_⟩
    interval_cases m <;> rfl
  exact not_resolvesNearest_of_later (le_refl 2) rfl hnearest

example : resolveParagraphNumIdIlvl thirdStyleNumbered
    (show ProxyIds twoAddresses from
      alternatingIds (Set.mem_insert 0 {1}) (Set.mem_insert_of_mem 0 rfl) (by decide)) 3 =
    some none := rfl

end Inherent
