import Inherent.ForStd.UniqueTable
import Inherent.Native.McpTools
import Inherent.Native.NumberedSections
import Inherent.Native.Store
import Inherent.Native.TagSearch

/-!
# Vertical packs

The files of a pack and `load_vertical` (`inh_contracts/vertical_pack.py`), the discovery of
packs (`inh_contracts/vertical_discovery.py`), the tools that a pack declares
(`src/mcp_server/tool_profiles.py` of the public API) and the tagging of chunks by its rules
(`src/temporal/activities/tagging.py` of the ingestion service).

What YAML and pydantic make of a file is a parameter: a file is missing, raises in `read_text` or
`safe_load`, is rejected with a message, or is a value of its model, whose own checks the
structures carry.
-/

namespace Inherent

/-! ## The models -/

/-- A name of lower case letters, digits and one more character, that begins with a letter. -/
def isPackName (extra : Char) (name : String) : Bool :=
  match name.toList with
  | [] => false
  | c :: rest => c.isLower && rest.all fun d => d.isLower || d.isDigit || d == extra

/-- A value of a tag in a YAML file, as far as it is looked at. -/
inductive TagValue where
  | text (value : String)
  | date (isoformat : String)
  | other (repr : String)
  deriving DecidableEq, Repr

/-- `TagField.type`. -/
inductive TagFieldType where
  | enum
  | string
  | date
  deriving DecidableEq, Repr

/-- A regular expression of a rule; `matches text` is
    `len(re.findall(pattern, text, flags=re.IGNORECASE))`. -/
structure TagPattern where
  pattern : String
  findall : List Char → Nat

/-- `TagField`. -/
structure TagField where
  type : TagFieldType
  required : Bool := false
  values : Option (List String) := none
  rules : List (String × List TagPattern) := []
  rules_nodup : (rules.map Prod.fst).Nodup
  patterns_ne_nil : ∀ rule ∈ rules, rule.2 ≠ []

/-- `TagSchema`. -/
structure TagSchema where
  fields : List (String × TagField)
  fields_nodup : (fields.map Prod.fst).Nodup
  fields_ne_nil : fields ≠ []

/-- The names of the fields. -/
def TagSchema.names (schema : TagSchema) : List String := schema.fields.map Prod.fst

/-- `TaggerExample`. -/
structure TaggerExample where
  text : String
  tags : List (String × TagValue)
  text_ne_empty : text ≠ ""

/-- `TaggerExamples`. -/
structure TaggerExamples where
  examples : List TaggerExample
  examples_ne_nil : examples ≠ []

/-- `ToolProfile`, as the file of a tool has it. -/
structure PackTool extends ToolProfile where
  description : String
  name_ok : isPackName '_' name = true
  description_length : 20 ≤ description.length
  defaultLimit_mem : 1 ≤ defaultLimit ∧ defaultLimit ≤ 50
  maxLimit_mem : 1 ≤ maxLimit ∧ maxLimit ≤ 50

/-- `Manifest`, with its `ProfilePaths`. -/
structure Manifest where
  name : String
  version : String
  description : String
  requiresCore : String
  chunking : String
  tags : String
  taggerExamples : String
  tools : List String
  name_ok : isPackName '-' name = true
  tools_ne_nil : tools ≠ []

/-- `Vertical`. -/
structure Vertical where
  manifest : Manifest
  chunking : ChunkingProfile
  tags : TagSchema
  taggerExamples : TaggerExamples
  tools : List PackTool

/-! ## `load_vertical` -/

/-- `VerticalError`. -/
inductive VerticalError where
  /-- `missing profile file: {relative}`. -/
  | missingFile (relative : String)
  /-- `{relative}: {exc}`. -/
  | invalidFile (relative message : String)
  /-- `tool {name}: default_limit exceeds max_limit`. -/
  | limits (tool : String)
  /-- `tool {name}: filters not in tag schema: {sorted(unknown)}`. -/
  | unknownFilters (tool : String) (unknown : List String)
  /-- `tagger example {i}: unknown tag {name!r}`. -/
  | unknownTag (i : Nat) (name : String)
  /-- `tagger example {i}: {name}={value!r} is not one of {values}`. -/
  | notOneOf (i : Nat) (name : String) (value : TagValue) (values : Option (List String))
  /-- `tagger example {i}: {name}={value!r} is not a date`. -/
  | notDate (i : Nat) (name : String) (value : TagValue)
  /-- `tag {name!r}: rules are only valid on enum fields`. -/
  | rulesOutsideEnum (name : String)
  /-- `tag {name!r}: rule keys not in its enum values: {sorted(unknown_keys)}`. -/
  | unknownRuleKeys (name : String) (unknown : List String)
  deriving DecidableEq, Repr

/-- What loading a pack raises. -/
inductive PackFailure where
  | vertical (e : VerticalError)
  /-- Anything else that `_load` raises: the file is no text, or has a date that there is not. -/
  | unreadable (relative message : String)
  deriving DecidableEq, Repr

/-- What a file is to its model. -/
inductive PackFile (α : Type) where
  | missing
  | unreadable (message : String)
  | rejected (message : String)
  | parsed (value : α)

/-- `_load`. -/
def PackFile.load {α : Type} (relative : String) : PackFile α → Except PackFailure α
  | .missing => .error (.vertical (.missingFile relative))
  | .unreadable message => .error (.unreadable relative message)
  | .rejected message => .error (.vertical (.invalidFile relative message))
  | .parsed value => .ok value

/-- The directory of a pack: its files by their relative paths. -/
structure PackDir where
  manifest : PackFile Manifest
  tags : String → PackFile TagSchema
  tool : String → PackFile PackTool
  taggerExamples : String → PackFile TaggerExamples
  chunking : String → PackFile ChunkingProfile

/-- `sorted(set(..) - set(allowed))`. -/
def sortedUnknown (names allowed : List String) : List String :=
  ((names.filter (· ∉ allowed)).eraseDups).mergeSort fun a b => a ≤ b

/-- The check of a tool. -/
def checkTool (tags : TagSchema) (tool : PackTool) : Except PackFailure Unit :=
  if tool.defaultLimit > tool.maxLimit then .error (.vertical (.limits tool.name))
  else
    let unknown := sortedUnknown tool.filters tags.names
    if unknown ≠ [] then .error (.vertical (.unknownFilters tool.name unknown)) else .ok ()

/-- `field.check(name, value)`, for the example `i`. -/
def TagField.check (field : TagField) (i : Nat) (name : String) (value : TagValue) :
    Except PackFailure Unit :=
  if field.type = .enum ∧ value ∉ (field.values.getD []).map TagValue.text then
    .error (.vertical (.notOneOf i name value field.values))
  else
    match field.type, value with
    | .date, .text _ | .date, .other _ => .error (.vertical (.notDate i name value))
    | _, _ => .ok ()

/-- The check of an example. -/
def checkExample (tags : TagSchema) (item : TaggerExample × Nat) : Except PackFailure Unit :=
  item.1.tags.forM fun tag =>
    match tags.fields.lookup tag.1 with
    | none => .error (.vertical (.unknownTag item.2 tag.1))
    | some field => field.check item.2 tag.1 tag.2

/-- The check of the rules of a field. -/
def checkRules (item : String × TagField) : Except PackFailure Unit :=
  if item.2.rules = [] then .ok ()
  else if item.2.type ≠ .enum then .error (.vertical (.rulesOutsideEnum item.1))
  else
    let unknown := sortedUnknown (item.2.rules.map Prod.fst) (item.2.values.getD [])
    if unknown ≠ [] then .error (.vertical (.unknownRuleKeys item.1 unknown)) else .ok ()

/-- `load_vertical`. -/
def loadVertical (dir : PackDir) : Except PackFailure Vertical := do
  let manifest ← dir.manifest.load "vertical.yaml"
  let tags ← (dir.tags manifest.tags).load manifest.tags
  let tools ← manifest.tools.mapM fun path => (dir.tool path).load path
  let taggerExamples ← (dir.taggerExamples manifest.taggerExamples).load manifest.taggerExamples
  tools.forM (checkTool tags)
  taggerExamples.examples.zipIdx.forM (checkExample tags)
  tags.fields.forM checkRules
  let chunking ← (dir.chunking manifest.chunking).load manifest.chunking
  return { manifest, chunking, tags, taggerExamples, tools }

/-! ## Discovery -/

/-- `DiscoveryResult`. -/
structure DiscoveryResult where
  packs : UniqueTable (Prod.fst : String × Vertical → String)
  errors : UniqueTable (Prod.fst : String × PackFailure → String)

/-- A result without packs. -/
def DiscoveryResult.empty : DiscoveryResult := ⟨.empty, .empty⟩

/-- `result.packs[name] = vertical`, under the name of the manifest. -/
def DiscoveryResult.found (result : DiscoveryResult) (vertical : Vertical) : DiscoveryResult :=
  { result with packs := result.packs.put (vertical.manifest.name, vertical) }

/-- `result.errors[source] = str(exc)`. -/
def DiscoveryResult.failed (result : DiscoveryResult) (source : String) (e : PackFailure) :
    DiscoveryResult :=
  { result with errors := result.errors.put (source, e) }

/-- A child of the packs' directory: `none` for what is no directory. -/
structure PackChild where
  name : String
  dir : Option PackDir

/-- `load_vertical` of a child, unless the loop of `discover_packs` passes over it: it is no
    directory, or has no `vertical.yaml`. -/
def PackChild.load (child : PackChild) : Option (Except PackFailure Vertical) :=
  child.dir.bind fun dir =>
    match dir.manifest with
    | .missing => none
    | _ => some (loadVertical dir)

/-- The body of the loop of `discover_packs`; only a `VerticalError` is caught. -/
def discoverChild (result : DiscoveryResult) (child : PackChild) :
    Except PackFailure DiscoveryResult :=
  match child.load with
  | none => .ok result
  | some (.ok vertical) => .ok (result.found vertical)
  | some (.error (.vertical e)) => .ok (result.failed child.name (.vertical e))
  | some (.error (.unreadable relative message)) => .error (.unreadable relative message)

/-- `sorted(root.iterdir())`. -/
def sortedChildren (children : List PackChild) : List PackChild :=
  children.mergeSort fun a b => a.name ≤ b.name

/-- `discover_packs`, of the children of the directory if there is one. -/
def discoverPacks (children : Option (List PackChild)) : Except PackFailure DiscoveryResult :=
  match children with
  | none => .ok .empty
  | some children => (sortedChildren children).foldlM discoverChild .empty

/-- An entry point of the group: its name, and the root that it loads to unless it raises. -/
structure PackEntryPoint where
  name : String
  load : Except PackFailure PackDir

/-- The body of the loop of `discover_entry_point_packs`; whatever is raised is caught. -/
def discoverEntryPoint (result : DiscoveryResult) (ep : PackEntryPoint) : DiscoveryResult :=
  match ep.load.bind loadVertical with
  | .ok vertical => result.found vertical
  | .error e => result.failed ep.name e

/-- `discover_entry_point_packs`. -/
def discoverEntryPointPacks (eps : List PackEntryPoint) : DiscoveryResult :=
  eps.foldl discoverEntryPoint .empty

/-- `discover_all_packs`. -/
def discoverAllPacks (eps : List PackEntryPoint) (children : Option (List PackChild)) :
    Except PackFailure DiscoveryResult := do
  let combined := discoverEntryPointPacks eps
  let directory ← discoverPacks children
  return ⟨combined.packs.putAll directory.packs.rows, combined.errors.putAll directory.errors.rows⟩

/-- `resolve_pack`, and `resolve_workspace_pack` of a workspace that is bound to the name, with
    `VERTICAL_PACKS_DIR` set. -/
def resolvePack (eps : List PackEntryPoint) (children : Option (List PackChild))
    (packName : String) : Except PackFailure (Option Vertical) :=
  if packName = "" then .ok none
  else (discoverAllPacks eps children).map fun found => (found.packs.find? packName).map Prod.snd

/-! ## The tools of a pack -/

/-- A property of an `inputSchema`. -/
inductive ToolProperty where
  | query
  | limit (maxLimit defaultLimit : Int)
  /-- `Filter results by '{name}'`, with the `enum` of its values if there is one. -/
  | filter (enum : Option (List String))
  deriving DecidableEq, Repr

/-- The `properties` of an `inputSchema`. -/
abbrev ToolProperties := UniqueTable (Prod.fst : String × ToolProperty → String)

/-- The property of a field that a tool filters by. -/
def TagField.property (field : TagField) : ToolProperty :=
  let values := field.values.getD []
  .filter (if field.type = .enum ∧ values ≠ [] then some values else none)

/-- The body of the loop of `_profile_input_schema`; `fields[name]` may raise a `KeyError`. -/
def addFilterProperty (vertical : Vertical) (properties : ToolProperties) (name : String) :
    Option ToolProperties :=
  (vertical.tags.fields.lookup name).map fun field => properties.put (name, field.property)

/-- `_profile_input_schema`, or `none` when it raises. -/
def profileInputSchema (profile : ToolProfile) (vertical : Vertical) : Option ToolProperties :=
  profile.filters.foldlM (addFilterProperty vertical)
    ((UniqueTable.empty.put ("query", .query)).put
      ("limit", .limit profile.maxLimit profile.defaultLimit))

/-- `build_profile_tools`: the names of the tools with their schemas, or `none` when it raises. -/
def buildProfileTools (vertical : Vertical) (existingNames : List String) :
    Option (List (PackTool × ToolProperties)) :=
  (vertical.tools.filter fun tool => tool.name ∉ existingNames).mapM fun tool =>
    (profileInputSchema tool.toToolProfile vertical).map fun schema => (tool, schema)

/-! ## The rules tagger -/

/-- `_FALLBACK_VALUE`. -/
def fallbackValue : String := "other"

/-- The number of matches of a rule. -/
def ruleScore (haystack : List Char) (patterns : List TagPattern) : Nat :=
  (patterns.map fun pattern => pattern.findall haystack).sum

/-- The body of the loop of `_score_enum_field`. -/
def scoreStep (haystack : List Char) (best : Option String × Nat)
    (rule : String × List TagPattern) : Option String × Nat :=
  let score := ruleScore haystack rule.2
  if score > best.2 then (some rule.1, score) else best

/-- `_score_enum_field`. -/
def scoreEnumField (haystack : List Char) (rules : List (String × List TagPattern)) :
    Option String :=
  let best := rules.foldl (scoreStep haystack) (none, 0)
  if best.2 > 0 then best.1 else none

/-- The value that `RulesTagger.tag` gives a field. -/
def TagField.tag (field : TagField) (name : String) (haystack : List Char)
    (documentMetadata : List (String × String)) : Option String :=
  match field.type with
  | .enum =>
    if field.rules = [] then none
    else
      (scoreEnumField haystack field.rules).or
        (if fallbackValue ∈ field.values.getD [] then some fallbackValue else none)
  | .string | .date => (documentMetadata.lookup name).filter (· ≠ "")

/-- `RulesTagger.tag`. -/
def rulesTags (heading text : String) (schema : TagSchema)
    (documentMetadata : List (String × String)) : List (String × String) :=
  let haystack := heading.toList ++ '\n' :: text.toList
  schema.fields.filterMap fun item =>
    (item.2.tag item.1 haystack documentMetadata).map fun value => (item.1, value)

/-- `_tags_as_weaviate_strings`. -/
def tagsAsWeaviateStrings (tags : List (String × String)) : List String :=
  (tags.mergeSort fun a b => a.1 < b.1 ∨ a.1 = b.1 ∧ a.2 ≤ b.2).map fun tag =>
    tagText tag.1 tag.2

/-- The body of the loop of `tag_chunks`. -/
def tagChunk (schema : TagSchema) (documentMetadata : List (String × String))
    (chunk : StagedChunk) : StagedChunk :=
  let tags := rulesTags chunk.sectionHeading chunk.content schema documentMetadata
  if tags = [] then chunk
  else { chunk with tags := tags, tagsWeaviate := tagsAsWeaviateStrings tags }

/-- `tag_chunks`: what is staged afterwards, for the pack that the name resolves to. -/
def tagChunks (vertical : Option Vertical) (documentMetadata : List (String × String))
    (staged : List StagedChunk) : List StagedChunk :=
  match vertical with
  | none => staged
  | some vertical => staged.map (tagChunk vertical.tags documentMetadata)

end Inherent
