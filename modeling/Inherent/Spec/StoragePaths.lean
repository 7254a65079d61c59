import Inherent.ForStd.SeparatedJoin
import Inherent.Native.StoragePath

/-!
# The check of a storage path and its use

The check strips and normalises a path before it compares the workspace, and the readers take the
path as it is written.  So an accepted path is read from its workspace only if it is written that
way (`checkAgrees_iff`): as a key it has to begin with the workspace, and as a local path it has to
lead there with its whitespace and from where it starts.
-/

namespace Inherent.StoragePath

open DotSegments

/-! ## The claimed workspace -/

/-- The names lie below `w` or `workspaces/w` of the directory `top`. -/
def Below (w : List Char) (top names : Directory) : Prop :=
  ∃ rest, rest ≠ [] ∧ (names = rest ++ w :: top ∨ names = rest ++ w :: workspacesSegment :: top)

/-- The text begins with `w/` or `workspaces/w/`. -/
def WrittenUnder (w text : List Char) : Prop :=
  w ++ ['/'] <+: text ∨ workspacesSegment ++ '/' :: (w ++ ['/']) <+: text

/-- The object lies under `w/` or `workspaces/w/`; files are in the directory of their bucket. -/
def Location.Under (root : Directory) (w : List Char) : Location → Prop
  | .key text => WrittenUnder w text
  | .file names => Below w root names

/-- If the check accepts the path for a workspace, the object that is read lies under it. -/
def CheckAgrees (settings : StorageSettings) (backend : StorageBackend)
    (bucket path workspaceId : List Char) : Prop :=
  ∀ w, requireStoragePathWorkspacePrefix path workspaceId = .ok w →
    ∀ location, locate settings backend bucket path = .ok location →
      location.Under (settings.root bucket) w

/-- The path is written as one of the workspace.  A key begins with it; a relative local path,
    normalised with its outer whitespace, does so too; and an absolute one names a file there. -/
def AsWritten (settings : StorageSettings) (backend : StorageBackend)
    (bucket path w : List Char) : Prop :=
  match backend with
  | .s3 => WrittenUnder w path
  | .localFiles =>
    if isAbsolute path then Below w (settings.root bucket) (joinPath [] path)
    else w ≠ ['.', '.'] ∧ Below w [] (reduced path)
  | .other _ => True

/-! ## Splitting at slashes -/

/-- A name: a segment that is neither dropped nor goes up. -/
def IsName (s : List Char) : Prop := here s = false ∧ up s = false

theorem isName_of_space {s : List Char} {c : Char} (hc : c ∈ s) (hspace : PyStr.isSpace c = true) :
    IsName s := by
  have hdot : c ≠ '.' := by
    rintro rfl
    exact absurd hspace (by decide)
  constructor
  · rw [here, Bool.or_eq_false_iff]
    constructor
    · rw [beq_eq_false_iff_ne]
      rintro rfl
      cases hc
    · rw [beq_eq_false_iff_ne]
      rintro rfl
      exact hdot (List.mem_singleton.mp hc)
  · rw [up, beq_eq_false_iff_ne]
    rintro rfl
    simp [hdot] at hc

/-- A character in front of a name makes a name. -/
theorem isName_cons {s : List Char} (h : IsName s) (c : Char) : IsName (c :: s) := by
  obtain ⟨hhere, -⟩ := h
  rw [here, Bool.or_eq_false_iff, beq_eq_false_iff_ne, beq_eq_false_iff_ne] at hhere
  constructor
  · simp [here, hhere.1]
  · simp [up, hhere.2]

/-- The segment is unchanged, or a name has taken its place. -/
def Padded (s s' : List Char) : Prop := s' = s ∨ here s' = false ∧ up s' = false

/-- Whitespace behind a path makes its last segment a name. -/
theorem padded_append (core : List Char) {after : List Char} (hafter : PyStr.Blank after) :
    List.Forall₂ Padded (core.splitOn '/') ((core ++ after).splitOn '/') := by
  induction core with
  | nil =>
    have hslash : '/' ∉ after := fun hmem => absurd (hafter '/' hmem) (by decide)
    rw [List.nil_append, List.splitOn_eq_singleton hslash, List.splitOn_nil]
    -- the last segment has the whitespace behind it
    refine .cons ?_ .nil
    cases after with
    | nil => exact .inl rfl
    | cons c after =>
      exact .inr (isName_of_space List.mem_cons_self (hafter c List.mem_cons_self))
  | cons c core ih =>
    rw [List.cons_append, List.splitOn_cons_eq_if_modifyHead, List.splitOn_cons_eq_if_modifyHead]
    split
    · exact .cons (.inl rfl) ih
    · generalize core.splitOn '/' = segments, (core ++ after).splitOn '/' = segments' at ih
      cases ih with
      | nil => exact .nil
      | cons hs hrest =>
        refine .cons ?_ hrest
        rcases hs with rfl | hname
        · exact .inl rfl
        · exact .inr (isName_cons hname c)

/-- Whitespace before a path makes its first segment a name. -/
theorem padded_prepend {before : List Char} (hbefore : PyStr.Blank before) (core : List Char) :
    List.Forall₂ Padded (core.splitOn '/') ((before ++ core).splitOn '/') := by
  induction before with
  | nil => exact List.forall₂_same.mpr fun s _ => .inl rfl
  | cons c before ih =>
    have hspace := hbefore c List.mem_cons_self
    have hslash : (c == '/') = false := by
      rw [beq_eq_false_iff_ne]
      rintro rfl
      exact absurd hspace (by decide)
    have ih := ih fun d hd => hbefore d (List.mem_cons_of_mem _ hd)
    rw [List.cons_append, List.splitOn_cons_eq_if_modifyHead, hslash]
    generalize core.splitOn '/' = segments, (before ++ core).splitOn '/' = segments' at ih
    cases ih with
    | nil => exact .nil
    | cons _ hrest => exact .cons (.inr (isName_of_space List.mem_cons_self hspace)) hrest

/-- A path that does not go up when it is stripped does not go up as it is written. -/
theorem no_ups_of_strip {path : List Char}
    (h : ∀ s ∈ reduced (PyStr.strip path), up s = false) : ∀ s ∈ reduced path, up s = false := by
  obtain ⟨before, after, hpath, hbefore, hafter⟩ := PyStr.exists_append_strip path
  -- whitespace only makes names of segments, and names lead no further up
  rw [hpath]
  exact no_ups_of_forall₂ (padded_append _ hafter) (no_ups_of_forall₂ (padded_prepend hbefore _) h)

/-! ## What the check compares -/

/-- Slashes at the beginning of a path do not count. -/
theorem reduced_dropWhile (path : List Char) :
    reduced (path.dropWhile (· == '/')) = reduced path := by
  induction path with
  | nil => rfl
  | cons c path ih =>
    rw [List.dropWhile_cons]
    split
    · next hc =>
      have hsplit : (c :: path).splitOn '/' = [] :: path.splitOn '/' := by
        rw [List.splitOn_cons_eq_if_modifyHead, if_pos hc]
      rw [ih, reduced, reduced, hsplit]
      rfl
    · rfl

/-- The segments of a normalised path are the reduced ones. -/
theorem splitOn_normpath (path : List Char) :
    (if normpath path = [] ∨ normpath path = ['.'] then [] else (normpath path).splitOn '/') =
      (reduced path).reverse := by
  unfold normpath
  by_cases hnil : reduced path = []
  · simp [hnil]
  · have hsegments : ∀ s ∈ (reduced path).reverse, here s = false ∧ '/' ∉ s := by
      intro s hs
      obtain ⟨hmem, hhere⟩ := mem_relative (List.mem_reverse.mp hs)
      exact ⟨hhere, SplitLines.notMem_of_mem_splitOn hmem⟩
    have hsplit : (PyStr.join ['/'] (reduced path).reverse).splitOn '/' =
        (reduced path).reverse :=
      List.splitOn_intercalate '/' (fun s hs => (hsegments s hs).2) (by simpa using hnil)
    -- a text that splits into names is neither empty nor a dot
    have htext : ¬ (PyStr.join ['/'] (reduced path).reverse = [] ∨
        PyStr.join ['/'] (reduced path).reverse = ['.']) := by
      rintro (htext | htext)
      · rw [htext, List.splitOn_nil] at hsplit
        exact absurd (hsegments [] (by rw [← hsplit]; simp)).1 (by decide)
      · rw [htext, List.splitOn_eq_singleton (by decide)] at hsplit
        exact absurd (hsegments ['.'] (by rw [← hsplit]; simp)).1 (by decide)
    rw [if_neg hnil, if_neg htext, hsplit]

/-- An accepted path is that of the workspace when it is stripped and normalised. -/
theorem prefixSegment_of_accepted {path workspaceId w : List Char}
    (h : requireStoragePathWorkspacePrefix path workspaceId = .ok w) :
    prefixSegment (reduced (PyStr.strip path)).reverse = some w := by
  unfold requireStoragePathWorkspacePrefix at h
  -- a blank workspace id is refused first
  cases hid : requireWorkspaceId workspaceId with
  | error e =>
    rw [hid] at h
    cases h
  | ok stripped =>
    rw [hid] at h
    simp only [bind, Except.bind, splitOn_normpath, reduced_dropWhile] at h
    split at h
    · cases h
    · next hprefix =>
      cases h
      exact not_not.mp hprefix

/-! ## Where the path is read -/

variable {settings : StorageSettings} {bucket path workspaceId w : List Char}

/-- An accepted path does not go up from where it starts. -/
theorem no_ups_of_accepted (h : requireStoragePathWorkspacePrefix path workspaceId = .ok w)
    (hw : w ≠ ['.', '.']) : ∀ s ∈ reduced path, up s = false := by
  apply no_ups_of_strip
  obtain ⟨names, ups, ⟨hreduced, hnames, hups⟩, -⟩ :=
    @walk_eq _ here up [] ((PyStr.strip path).splitOn '/')
  rw [show relative here up ((PyStr.strip path).splitOn '/') = reduced (PyStr.strip path) from rfl]
    at hreduced
  have hprefix := prefixSegment_of_accepted h
  rw [hreduced] at hprefix ⊢
  rcases List.eq_nil_or_concat ups with rfl | ⟨front, s, rfl⟩
  · intro t ht
    exact (hnames t (by simpa using ht)).2
  · -- the path would begin with a segment that goes up
    have hs : up s = true := (hups s (by simp)).2
    have hne : s ≠ workspacesSegment := by
      rintro rfl
      exact absurd hs (by decide)
    have heq : s = w := by simpa [prefixSegment, hne] using hprefix
    exact absurd (heq ▸ hs) (by simpa [up] using hw)

theorem names_root (settings : StorageSettings) (bucket : List Char) :
    ∀ s ∈ settings.root bucket, here s = false ∧ up s = false := by
  unfold StorageSettings.root joinPath
  split
  · exact settings.basePath_names
  · apply names_walk
    split
    · simp
    · exact settings.basePath_names

/-- The directory of the bucket does not count for what is below it. -/
theorem below_append_iff {top names : Directory} :
    Below w top (names ++ top) ↔ Below w [] names := by
  unfold Below
  constructor
  · rintro ⟨rest, hne, h | h⟩
    · exact ⟨rest, hne, .inl (List.append_cancel_right (by simpa using h))⟩
    · exact ⟨rest, hne, .inr (List.append_cancel_right (by simpa using h))⟩
  · rintro ⟨rest, hne, rfl | rfl⟩
    · exact ⟨rest, hne, .inl (by simp)⟩
    · exact ⟨rest, hne, .inr (by simp)⟩

/-- What is below a workspace has its name in it. -/
theorem mem_of_below {top names : Directory} (h : Below w top names) : w ∈ names := by
  obtain ⟨rest, -, rfl | rfl⟩ := h <;> simp

/-- A relative path that does not go up leads to its names. -/
theorem joinPath_of_no_ups {dir : Directory} (hrelative : isAbsolute path = false)
    (h : ∀ s ∈ reduced path, up s = false) : joinPath dir path = reduced path ++ dir := by
  obtain ⟨names, ups, ⟨hreduced, -, hups⟩, hwalk⟩ :=
    @walk_eq _ here up dir (path.splitOn '/')
  -- the reduced path has no segments that go up
  have hnil : ups = [] := by
    rw [List.eq_nil_iff_forall_not_mem]
    intro s hs
    have hmem : s ∈ reduced path := by
      rw [reduced, hreduced]
      exact List.mem_append_right _ hs
    exact absurd (h s hmem) (by simp [(hups s hs).2])
  rw [joinPath, hrelative, if_neg Bool.false_ne_true, hwalk, reduced, hreduced, hnil]
  simp

theorem eq_file_of_locate {location : Location}
    (h : locate settings .localFiles bucket path = .ok location) :
    location = .file (joinPath (settings.root bucket) path) := by
  simp only [locate, resolve, bind, Except.bind] at h
  split at h
  · cases h
  · split at h
    · cases h
    · cases h
      rfl

theorem eq_key_of_locate {location : Location}
    (h : locate settings .s3 bucket path = .ok location) : location = .key path := by
  simp only [locate] at h
  split at h
  · cases h
  · split at h
    · cases h
    · cases h
      rfl

/-- The object of an accepted path lies under the workspace just if the path is written so. -/
theorem under_iff_asWritten (hw : requireStoragePathWorkspacePrefix path workspaceId = .ok w)
    {backend : StorageBackend} {location : Location}
    (hlocation : locate settings backend bucket path = .ok location) :
    location.Under (settings.root bucket) w ↔ AsWritten settings backend bucket path w := by
  cases backend with
  | other name => cases hlocation
  | s3 => rw [eq_key_of_locate hlocation]; rfl
  | localFiles =>
    rw [eq_file_of_locate hlocation, AsWritten, Location.Under]
    cases habs : isAbsolute path with
    | true => simp [joinPath, habs]
    | false =>
      rw [if_neg Bool.false_ne_true]
      constructor
      · intro hbelow
        -- a resolved directory has names only
        have hplain : w ≠ ['.', '.'] := by
          rintro rfl
          have hnames : ∀ s ∈ joinPath (settings.root bucket) path,
              here s = false ∧ up s = false := by
            rw [joinPath, habs, if_neg Bool.false_ne_true]
            exact names_walk (names_root settings bucket) _
          exact absurd (hnames _ (mem_of_below hbelow)).2 (by decide)
        refine ⟨hplain, ?_⟩
        rw [joinPath_of_no_ups habs (no_ups_of_accepted hw hplain)] at hbelow
        exact below_append_iff.mp hbelow
      · rintro ⟨hplain, hbelow⟩
        rw [joinPath_of_no_ups habs (no_ups_of_accepted hw hplain)]
        exact below_append_iff.mpr hbelow

/-- The check and the readers agree on a path if and only if it is written as one of the workspace
    whenever the check accepts it and the reader does not refuse it. -/
theorem checkAgrees_iff (settings : StorageSettings) (backend : StorageBackend)
    (bucket path workspaceId : List Char) :
    CheckAgrees settings backend bucket path workspaceId ↔
      ∀ w, requireStoragePathWorkspacePrefix path workspaceId = .ok w →
        (∃ location, locate settings backend bucket path = .ok location) →
          AsWritten settings backend bucket path w := by
  constructor
  · rintro hagrees w hw ⟨location, hlocation⟩
    exact (under_iff_asWritten hw hlocation).mp (hagrees w hw location hlocation)
  · intro hwritten w hw location hlocation
    exact (under_iff_asWritten hw hlocation).mpr (hwritten w hw ⟨location, hlocation⟩)

/-- The normalised path is in the claimed workspace, and the key is in another one. -/
theorem not_checkAgrees_dots :
    ¬ CheckAgrees { basePath := ["data".toList], basePath_names := by decide }
      .s3 "documents".toList "victim/../attacker/f.pdf".toList "attacker".toList := by
  intro h
  have hunder : WrittenUnder "attacker".toList "victim/../attacker/f.pdf".toList :=
    h "attacker".toList (by rfl) (.key "victim/../attacker/f.pdf".toList) (by rfl)
  unfold WrittenUnder at hunder
  exact absurd hunder (by decide)

end Inherent.StoragePath
