import Inherent.Native.Naming

/-!
# Names of storage

What a Weaviate name stands for can be read back from it, so no two owners share a name.
-/

namespace Inherent

/-- Whose storage a name of the vector store stands for. -/
inductive StorageOwner where
  | workspace (workspaceId : String)
  | user (userId : String)
  deriving DecidableEq, Repr

/-- The name that the services give to the storage. -/
def StorageOwner.name : StorageOwner → String
  | workspace workspaceId => getWorkspaceCollectionName workspaceId
  | user userId => getUserTenantName userId

/-- The id that `_encode_id` encodes as `code`. -/
def decodeId? (code : List Char) : Option String :=
  (Base32.decode? code).bind fun bytes => String.fromUTF8? ⟨bytes.toArray⟩

/-- The owner of a name. -/
def StorageOwner.ofName? (name : String) : Option StorageOwner :=
  if workspaceCollectionPrefix.toList.isPrefixOf name.toList then
    (decodeId? (name.toList.drop workspaceCollectionPrefix.length)).map workspace
  else if userTenantPrefix.toList.isPrefixOf name.toList then
    (decodeId? (name.toList.drop userTenantPrefix.length)).map user
  else none

/-- The name is the prefix and characters of `A-Z` and `2-7`. -/
def CharsetSafe (namePrefix name : String) : Prop :=
  ∃ code, name = namePrefix ++ code ∧
    ∀ c ∈ code.toList, ('A' ≤ c ∧ c ≤ 'Z') ∨ ('2' ≤ c ∧ c ≤ '7')

/-! ## The encoding of an id -/

/-- `rstrip("=")` takes off the padding and nothing else. -/
theorem rdropWhile_padding {body : List Char} (hbody : ∀ c ∈ body, c ∈ Base32.alphabet)
    (pad : Nat) : (body ++ List.replicate pad '=').rdropWhile (· == '=') = body := by
  induction pad with
  | zero =>
    rw [List.replicate_zero, List.append_nil, List.rdropWhile_eq_self_iff]
    intro hne heq
    have hlast : '=' ∈ Base32.alphabet := by
      rw [beq_iff_eq] at heq
      exact heq ▸ hbody _ (List.getLast_mem hne)
    revert hlast
    decide
  | succ pad ih =>
    rw [List.replicate_succ', ← List.append_assoc, List.rdropWhile_concat_pos _ _ _ (by rfl), ih]

/-- The bytes of a text decode to it. -/
theorem fromUTF8?_toUTF8 (text : String) : String.fromUTF8? text.toUTF8 = some text := by
  rw [String.toUTF8_eq_toByteArray, String.fromUTF8?, dif_pos text.isValidUTF8]
  rfl

/-- The characters of an encoded id are digits, and they give the id back. -/
theorem encodeId_spec (rawId : String) :
    (∀ c ∈ (encodeId rawId).toList, c ∈ Base32.alphabet) ∧
      decodeId? (encodeId rawId).toList = some rawId := by
  obtain ⟨body, pad, hencode, hmem, hdecode⟩ := Base32.exists_body rawId.toUTF8.data.toList
  have hbody : (encodeId rawId).toList = body := by
    rw [encodeId, hencode, rdropWhile_padding hmem, String.toList_ofList]
  rw [hbody]
  refine ⟨hmem, ?_⟩
  rw [decodeId?, hdecode, Option.bind_some, Array.toArray_toList]
  exact fromUTF8?_toUTF8 rawId

/-- The digits are letters of `A-Z` or figures of `2-7`. -/
theorem charset_of_mem_alphabet :
    ∀ c ∈ Base32.alphabet, ('A' ≤ c ∧ c ≤ 'Z') ∨ ('2' ≤ c ∧ c ≤ '7') := by
  have hall : Base32.alphabet.all
      (fun c => ('A' ≤ c ∧ c ≤ 'Z') ∨ ('2' ≤ c ∧ c ≤ '7')) = true := by decide
  intro c hc
  exact of_decide_eq_true (List.all_eq_true.mp hall c hc)

theorem charsetSafe_append_encodeId (namePrefix rawId : String) :
    CharsetSafe namePrefix (namePrefix ++ encodeId rawId) :=
  ⟨encodeId rawId, rfl, fun c hc => charset_of_mem_alphabet c ((encodeId_spec rawId).1 c hc)⟩

/-! ## The names -/

/-- The owner of a name is the one that it was made for. -/
theorem StorageOwner.ofName?_name (owner : StorageOwner) : ofName? owner.name = some owner := by
  cases owner with
  | workspace workspaceId =>
    have htext : (getWorkspaceCollectionName workspaceId).toList =
        workspaceCollectionPrefix.toList ++ (encodeId workspaceId).toList := by
      simp [getWorkspaceCollectionName]
    have hprefix : workspaceCollectionPrefix.toList.isPrefixOf
        (getWorkspaceCollectionName workspaceId).toList = true := by
      rw [List.isPrefixOf_iff_prefix, htext]
      exact List.prefix_append _ _
    rw [name, ofName?, if_pos hprefix, htext, ← String.length_toList, List.drop_left,
      (encodeId_spec workspaceId).2, Option.map_some]
  | user userId =>
    have htext : (getUserTenantName userId).toList =
        userTenantPrefix.toList ++ (encodeId userId).toList := by
      simp [getUserTenantName]
    have hprefix : userTenantPrefix.toList.isPrefixOf (getUserTenantName userId).toList = true := by
      rw [List.isPrefixOf_iff_prefix, htext]
      exact List.prefix_append _ _
    have hother : ¬ workspaceCollectionPrefix.toList.isPrefixOf
        (getUserTenantName userId).toList = true := by
      rw [htext]
      simp [workspaceCollectionPrefix, userTenantPrefix]
    rw [name, ofName?, if_neg hother, if_pos hprefix, htext, ← String.length_toList,
      List.drop_left, (encodeId_spec userId).2, Option.map_some]

/-- Two owners with one name are one owner. -/
theorem StorageOwner.name_injective : Function.Injective name := by
  intro owner owner' h
  have hname := congrArg ofName? h
  rw [ofName?_name, ofName?_name] at hname
  exact Option.some.inj hname

/-- The names of collections and tenants are different for different ids, are made of safe
    characters, give the ids back, and no collection has the name of a tenant. -/
theorem storageNames_exact :
    Function.Injective getWorkspaceCollectionName ∧
    Function.Injective getUserTenantName ∧
    (∀ workspaceId,
      CharsetSafe workspaceCollectionPrefix (getWorkspaceCollectionName workspaceId)) ∧
    (∀ userId, CharsetSafe userTenantPrefix (getUserTenantName userId)) ∧
    (∀ owner : StorageOwner, StorageOwner.ofName? owner.name = some owner) ∧
    ∀ workspaceId userId,
      getWorkspaceCollectionName workspaceId ≠ getUserTenantName userId := by
  refine ⟨?_, ?_, ?_, ?_, ?_, ?_⟩
  · intro w w' h
    exact StorageOwner.workspace.inj (StorageOwner.name_injective h)
  · intro u u' h
    exact StorageOwner.user.inj (StorageOwner.name_injective h)
  · exact charsetSafe_append_encodeId workspaceCollectionPrefix
  · exact charsetSafe_append_encodeId userTenantPrefix
  · exact StorageOwner.ofName?_name
  · intro w u h
    have howner : StorageOwner.workspace w = .user u := StorageOwner.name_injective h
    cases howner

end Inherent
