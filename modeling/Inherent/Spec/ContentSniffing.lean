import Inherent.Native.FileTypes

/-!
# Files that start with their own signature

A file with the signature of its declared type at offset 0 passes the first check of the sniffer.
The second one looks for the signatures of all other types, each in its own window, and counts a
match as a mismatch also then: the file is accepted if and only if none of another family occurs
there (`sniffContentType_iff_no_foreign`).
-/

namespace Inherent.Registry

/-- A signature of another family than `magic` occurs in the window of its type. -/
def ForeignSignature (content magic : List UInt8) (other : FileTypeSpec) : Prop :=
  ∃ signature, other.magic = some signature ∧ signature ≠ magic ∧
    signature <:+: content.take other.window

instance (content magic : List UInt8) (other : FileTypeSpec) :
    Decidable (ForeignSignature content magic other) :=
  match h : other.magic with
  | none => .isFalse fun ⟨_, hs, _⟩ => by simp [h] at hs
  | some signature =>
    decidable_of_iff (signature ≠ magic ∧ signature <:+: content.take other.window)
      ⟨fun hs => ⟨signature, h, hs⟩, fun ⟨_, hs, hne⟩ => by
        obtain rfl := Option.some.inj (h.symm.trans hs)
        exact hne⟩

/-- A signature at offset 0 is in its window. -/
theorem containsSignature_of_startsWith {content magic : List UInt8} {window : Nat}
    (hstart : magic <+: content) (hlen : magic.length ≤ window) :
    containsSignature content magic window = true := by
  obtain ⟨rest, rfl⟩ := hstart
  apply decide_eq_true
  refine ⟨[], rest.take (window - magic.length), ?_⟩
  rw [List.nil_append, List.take_append, List.take_of_length_le hlen]

variable {spec : FileTypeSpec} {magic : List UInt8}

/-- The loop raises at the types with a foreign signature. -/
theorem contradicts_iff (hspec : spec ∈ fileTypeRegistry) (hmagic : spec.magic = some magic)
    (content : List UInt8) {other : FileTypeSpec} (hother : other ∈ fileTypeRegistry) :
    contradicts content spec other = true ↔ ForeignSignature content magic other := by
  unfold contradicts
  cases hsignature : other.magic with
  | none => simp [ForeignSignature, hsignature]
  | some signature =>
    have hfamily := magic_eq_of_overlap hspec hother hmagic hsignature
    have hforeign : ForeignSignature content magic other ↔
        signature ≠ magic ∧ signature <:+: content.take other.window := by
      simp [ForeignSignature, hsignature]
    rw [hforeign]
    by_cases hkey : other.key = spec.key
    · simp [hkey, (hfamily (.inr hkey)).symm]
    · by_cases hoverlap : magicFamiliesOverlap magic signature = true
      · obtain rfl := hfamily (.inl hoverlap)
        simp [hkey, hmagic, hoverlap]
      · -- a signature of its own family would overlap
        have hne : signature ≠ magic := by
          rintro rfl
          exact hoverlap (by simp [magicFamiliesOverlap])
        simp [hkey, hmagic, hoverlap, hne, containsSignature]

/-- For a file with its own signature only the loop over the other types counts. -/
theorem sniffContentType_of_startsWith (hspec : spec ∈ fileTypeRegistry)
    (hmagic : spec.magic = some magic) {mime : String} (hmime : mime ∈ spec.mimeTypes)
    {content : List UInt8} (hstart : magic <+: content) :
    sniffContentType content mime none =
      (fileTypeRegistry.find? (contradicts content spec)).elim (.ok spec) fun other =>
        .error (.contentTypeMismatch mime (otherReason other)) := by
  -- the first check finds the signature at offset 0
  have hown := containsSignature_of_startsWith hstart (length_magic_le hspec hmagic)
  rw [sniffContentType, Option.none_or, getSpecForMime_of_mem hspec hmime]
  simp only [hmagic, Option.any_some, hown, Bool.not_true, Bool.false_eq_true, if_false]
  cases fileTypeRegistry.find? (contradicts content spec) with
  | none => rfl
  | some other => rfl

/-- A file with its own signature at offset 0 is accepted if and only if no signature of another
    family occurs in the window of its type; else the sniffer names a type whose signature does. -/
theorem sniffContentType_iff_no_foreign (hspec : spec ∈ fileTypeRegistry)
    (hmagic : spec.magic = some magic) {mime : String} (hmime : mime ∈ spec.mimeTypes)
    {content : List UInt8} (hstart : magic <+: content) :
    (sniffContentType content mime none = .ok spec ↔
      ∀ other ∈ fileTypeRegistry, ¬ ForeignSignature content magic other) ∧
    ∀ error, sniffContentType content mime none = .error error →
      ∃ other ∈ fileTypeRegistry, ForeignSignature content magic other ∧
        error = .contentTypeMismatch mime (otherReason other) := by
  rw [sniffContentType_of_startsWith hspec hmagic hmime hstart]
  -- the loop raises at the first type with a foreign signature
  cases hfind : fileTypeRegistry.find? (contradicts content spec) with
  | none =>
    have hnone := List.find?_eq_none.mp hfind
    have hclean : ∀ other ∈ fileTypeRegistry, ¬ ForeignSignature content magic other :=
      fun other hother hforeign =>
        hnone other hother ((contradicts_iff hspec hmagic content hother).mpr hforeign)
    exact ⟨⟨fun _ => hclean, fun _ => rfl⟩, fun error herror => by cases herror⟩
  | some other =>
    have hother := List.mem_of_find?_eq_some hfind
    have hforeign := (contradicts_iff hspec hmagic content hother).mp (List.find?_some hfind)
    constructor
    · constructor
      · intro hok
        cases hok
      · exact fun hnone => absurd hforeign (hnone other hother)
    · intro error herror
      exact ⟨other, hother, hforeign, (Except.error.inj herror).symm⟩

/-! ## An archive with a stored picture -/

/-- The header of a stored ZIP entry with a name of one byte, and the bytes of the entry. -/
def storedEntry (name : UInt8) (bytes : List UInt8) : List UInt8 :=
  zipMagic ++ [0x14, 0x00, 0x00, 0x00, 0x00, 0x00, 0x00, 0x00, 0x21, 0x00] ++
    List.replicate 4 0x00 ++ [UInt8.ofNat bytes.length, 0x00, 0x00, 0x00] ++
    [UInt8.ofNat bytes.length, 0x00, 0x00, 0x00] ++ [0x01, 0x00, 0x00, 0x00] ++ [name] ++ bytes

def docxMime : String := "application/vnd.openxmlformats-officedocument.wordprocessingml.document"

theorem sniffContentType_iff_docx :
    (sniffContentType (storedEntry 0x61 [0x3c, 0x61, 0x2f, 0x3e]) docxMime none =
      .ok ⟨"docx", [docxMime], some zipMagic, none⟩ ↔
      ∀ other ∈ fileTypeRegistry,
        ¬ ForeignSignature (storedEntry 0x61 [0x3c, 0x61, 0x2f, 0x3e]) zipMagic other) ∧
    ∀ error, sniffContentType (storedEntry 0x61 [0x3c, 0x61, 0x2f, 0x3e]) docxMime none =
        .error error →
      ∃ other ∈ fileTypeRegistry,
        ForeignSignature (storedEntry 0x61 [0x3c, 0x61, 0x2f, 0x3e]) zipMagic other ∧
        error = .contentTypeMismatch docxMime (otherReason other) :=
  sniffContentType_iff_no_foreign (by simp [fileTypeRegistry, docxMime]) rfl
    List.mem_cons_self ⟨_, rfl⟩

/-- The picture at the start of an archive makes it a mismatch. -/
theorem not_sniffContentType_storedPng :
    ¬ ∀ spec ∈ fileTypeRegistry, ∀ magic, spec.magic = some magic → ∀ mime ∈ spec.mimeTypes,
      ∀ content, magic <+: content → sniffContentType content mime none = .ok spec := by
  intro h
  have hdocx : (⟨"docx", [docxMime], some zipMagic, none⟩ : FileTypeSpec) ∈ fileTypeRegistry := by
    simp [fileTypeRegistry, docxMime]
  have hstart : zipMagic <+: storedEntry 0x61 pngMagic := ⟨_, rfl⟩
  have hok := h _ hdocx zipMagic rfl docxMime List.mem_cons_self _ hstart
  rw [sniffContentType_of_startsWith hdocx rfl List.mem_cons_self hstart] at hok
  have hfind : (fileTypeRegistry.find? (contradicts (storedEntry 0x61 pngMagic)
      ⟨"docx", [docxMime], some zipMagic, none⟩)).isSome = true := by decide +kernel
  obtain ⟨other, hother⟩ := Option.isSome_iff_exists.mp hfind
  rw [hother] at hok
  cases hok

end Inherent.Registry
