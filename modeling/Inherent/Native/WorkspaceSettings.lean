import Inherent.Native.PyLines

/-!
# Settings of single workspaces

The parsers of the settings that name workspaces: `WORKSPACE_VERTICAL_PACKS`
(`inh_contracts/workspace_packs.py`), `WORKSPACE_HYBRID_ALPHA`
(`inh_contracts/workspace_hybrid_alpha.py`), `WORKSPACE_REUSE_BOOST`
(`inh_contracts/workspace_reuse_boost.py`) and `WORKSPACE_REUSE_DETECTION`
(`inh_contracts/workspace_reuse_detection.py`).  The first three are one loop over entries
`workspace_id=value`; they differ in the value.  `float` is a parameter.
-/

namespace Inherent

/-! ## Entries with a value -/

/-- What is wrong with a value. -/
inductive ValueProblem (β : Type) where
  /-- `has a non-numeric {value_name} {value!r}`. -/
  | nonNumeric (text : List Char)
  /-- `has {value_name} {value!r} outside [0.0, 1.0]`. -/
  | outsideUnit (value : β)
  deriving DecidableEq, Repr

/-- What is wrong with an entry. -/
inductive EntryProblem (β : Type) where
  /-- `is missing '=' (expected workspace_id={value_name})`. -/
  | missingEquals (entry : List Char)
  /-- `has an empty workspace_id or {value_name}`. -/
  | emptyPart (entry : List Char)
  /-- `has more than one '='`. -/
  | secondEquals (entry : List Char)
  | badValue (entry : List Char) (problem : ValueProblem β)
  /-- `workspace_id {workspace_id!r} is bound twice ({first!r} and {second!r})`. -/
  | boundTwice (workspaceId : List Char) (first second : β)
  deriving DecidableEq, Repr

/-- A setting with its environment variable and what it calls its values. -/
structure BindingSetting (β : Type) where
  envVar : String
  valueName : String
  parseValue : List Char → Except (ValueProblem β) β

/-- The error of a setting: `{env_var} entry {entry!r} ..`, or `{env_var}: ..` for a workspace
    that is bound twice. -/
structure SettingError (β : Type) where
  envVar : String
  valueName : String
  problem : EntryProblem β
  deriving DecidableEq, Repr

/-- A problem as the error of the setting. -/
def BindingSetting.refuse {β γ : Type} (setting : BindingSetting β) (problem : EntryProblem β) :
    Except (SettingError β) γ :=
  .error { envVar := setting.envVar, valueName := setting.valueName, problem := problem }

/-- The body of the loop over the entries. -/
def BindingSetting.bindEntry {β : Type} (setting : BindingSetting β)
    (bindings : List (List Char × β)) (rawEntry : List Char) :
    Except (SettingError β) (List (List Char × β)) :=
  let entry := PyStr.strip rawEntry
  if entry = [] then .ok bindings
  else if '=' ∉ entry then setting.refuse (.missingEquals entry)
  else
    -- `partition("=")` splits at the first one
    let workspaceId := PyStr.strip (entry.takeWhile (· ≠ '='))
    let value := PyStr.strip ((entry.dropWhile (· ≠ '=')).drop 1)
    if workspaceId = [] ∨ value = [] then setting.refuse (.emptyPart entry)
    else if '=' ∈ value then setting.refuse (.secondEquals entry)
    else
      match setting.parseValue value with
      | .error problem => setting.refuse (.badValue entry problem)
      | .ok parsed =>
        match bindings.lookup workspaceId with
        | some first => setting.refuse (.boundTwice workspaceId first parsed)
        | none => .ok (bindings ++ [(workspaceId, parsed)])

/-- `parse_workspace_..`. -/
def BindingSetting.parse {β : Type} (setting : BindingSetting β) (raw : Option (List Char)) :
    Except (SettingError β) (List (List Char × β)) :=
  let raw := raw.getD []
  if PyStr.strip raw = [] then .ok []
  else (raw.splitOn ',').foldlM setting.bindEntry []

/-- The setting of `parse_workspace_vertical_packs`. -/
def workspaceVerticalPacks : BindingSetting (List Char) where
  envVar := "WORKSPACE_VERTICAL_PACKS"
  valueName := "pack_name"
  parseValue := .ok

/-- A number in `[0.0, 1.0]`. -/
def parseUnitFloat {φ : Type} (float : List Char → Option φ) (inUnit : φ → Bool)
    (text : List Char) : Except (ValueProblem φ) φ :=
  match float text with
  | none => .error (.nonNumeric text)
  | some value => if inUnit value then .ok value else .error (.outsideUnit value)

/-- The setting of `parse_workspace_hybrid_alpha`. -/
def workspaceHybridAlpha {φ : Type} (float : List Char → Option φ) (inUnit : φ → Bool) :
    BindingSetting φ where
  envVar := "WORKSPACE_HYBRID_ALPHA"
  valueName := "alpha"
  parseValue := parseUnitFloat float inUnit

/-- The setting of `parse_workspace_reuse_boost`. -/
def workspaceReuseBoost {φ : Type} (float : List Char → Option φ) (inUnit : φ → Bool) :
    BindingSetting φ where
  envVar := "WORKSPACE_REUSE_BOOST"
  valueName := "weight"
  parseValue := parseUnitFloat float inUnit

/-! ## Entries without a value -/

/-- `WorkspaceReuseDetectionError`. -/
inductive DetectionError where
  /-- `contains '=' (expected a bare workspace_id, not workspace_id=value)`. -/
  | equals (entry : List Char)
  /-- `workspace_id {entry!r} is listed twice`. -/
  | listedTwice (entry : List Char)
  deriving DecidableEq, Repr

/-- The body of the loop of `parse_workspace_reuse_detection`. -/
def listEntry (workspaceIds : List (List Char)) (rawEntry : List Char) :
    Except DetectionError (List (List Char)) :=
  let entry := PyStr.strip rawEntry
  if entry = [] then .ok workspaceIds
  else if '=' ∈ entry then .error (.equals entry)
  else if workspaceIds.contains entry then .error (.listedTwice entry)
  else .ok (workspaceIds ++ [entry])

/-- `parse_workspace_reuse_detection`. -/
def parseWorkspaceReuseDetection (raw : Option (List Char)) :
    Except DetectionError (List (List Char)) :=
  let raw := raw.getD []
  if PyStr.strip raw = [] then .ok []
  else (raw.splitOn ',').foldlM listEntry []

end Inherent
