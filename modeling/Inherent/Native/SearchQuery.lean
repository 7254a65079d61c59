import Inherent.Native.Naming
import Inherent.Native.PyStr
import Inherent.Native.TagSearch

/-!
# The text of a search request

`_build_graphql` (`src/services/inh-public-api-svc/src/services/search.py`): the GraphQL
document that a search sends to Weaviate, with the query spliced into the `bm25` or `hybrid`
argument and the `where` clause of `_format_where`.

`F` is the type of Python floats; how they print is a parameter.
-/

namespace Inherent

/-- `search_mode`. -/
inductive SearchMode where
  | semantic
  | hybrid
  | keyword
  deriving DecidableEq, Repr

/-- A `SearchRequest` with its query text; `search` has set `alpha`. -/
structure QueryRequest (F : Type) extends SearchRequest where
  query : String
  searchMode : SearchMode
  alpha : Option F
  query_length : 1 ≤ query.length ∧ query.length ≤ 1000

/-- How Python prints floats: `f"{v:.6f}"` and `f"{v}"`. -/
structure FloatFormat (F : Type) where
  fixed6 : F → String
  plain : F → String

/-! ## `json.dumps` -/

/-- `'{0:04x}'.format(n)`. -/
def hex4 (n : Nat) : List Char :=
  [n / 4096 % 16, n / 256 % 16, n / 16 % 16, n % 16].map Nat.digitChar

/-- One character of a JSON string; `ensure_ascii` escapes all but the printable ASCII. -/
def jsonEscape (c : Char) : List Char :=
  let n := c.toNat
  if c = '"' ∨ c = '\\' then ['\\', c]
  else if c = '\n' then ['\\', 'n']
  else if c = '\r' then ['\\', 'r']
  else if c = '\t' then ['\\', 't']
  else if n = 0x08 then ['\\', 'b']
  else if n = 0x0C then ['\\', 'f']
  else if 0x20 ≤ n ∧ n ≤ 0x7E then [c]
  else if n < 0x10000 then '\\' :: 'u' :: hex4 n
  else
    let v := n - 0x10000
    '\\' :: 'u' :: hex4 (0xD800 + v / 0x400) ++ '\\' :: 'u' :: hex4 (0xDC00 + v % 0x400)

/-- `json.dumps` of a text. -/
def jsonString (text : String) : String :=
  "\"" ++ String.ofList (text.toList.flatMap jsonEscape) ++ "\""

/-- `json.dumps` of a list of texts. -/
def jsonList (texts : List String) : String :=
  "[" ++ ", ".intercalate (texts.map jsonString) ++ "]"

/-! ## The `where` clause -/

/-- `_WHERE_OPERATORS`. -/
inductive WhereOperator where
  | equal
  | containsAny
  | containsAll
  deriving DecidableEq, Repr

/-- The GraphQL enum value. -/
def WhereOperator.text : WhereOperator → String
  | equal => "Equal"
  | containsAny => "ContainsAny"
  | containsAll => "ContainsAll"

/-- The path of a property. -/
def WherePath.names : WherePath → List String
  | documentId => ["document_id"]
  | tags => ["tags"]

/-- `_format_where`. -/
def formatWhere (path : List String) (operator : WhereOperator) (value : FilterValue) : String :=
  let valueLiteral := match value with
    | .one text => jsonString text
    | .many texts => jsonList texts
  "\x7b path: " ++ jsonList path ++ ", operator: " ++ operator.text ++ ", valueText: " ++
    valueLiteral ++ " \x7d"

/-- `where_clause`. -/
def whereClause (request : SearchRequest) : String :=
  let operands := (whereOperands request).map fun operand =>
    formatWhere operand.path.names .containsAny (.many operand.values)
  match operands with
  | [] => ""
  | [operand] => "where: " ++ operand
  | operands =>
    "where: \x7b operator: And, operands: [" ++ ", ".intercalate operands ++ "] \x7d"

/-! ## The document -/

/-- `escaped_query`. -/
def escapedQuery (query : String) : String :=
  String.ofList (PyStr.replaceChar '"' ['\\', '"']
    (PyStr.replaceChar '\\' ['\\', '\\'] query.toList))

/-- `search_args`. -/
def searchArgs {F : Type} (format : FloatFormat F) (request : QueryRequest F)
    (queryVector : Option (List F)) : Except String String :=
  match request.searchMode with
  | .keyword => .ok ("bm25: \x7b query: \"" ++ escapedQuery request.query ++ "\" \x7d")
  | mode =>
    match queryVector with
    | none => .error "query_vector is required for semantic/hybrid search"
    | some vector =>
      let vectorLiteral := "[" ++ ", ".intercalate (vector.map format.fixed6) ++ "]"
      let alpha := request.alpha.elim "None" format.plain
      match mode with
      | .hybrid =>
        .ok ("hybrid: \x7b query: \"" ++ escapedQuery request.query ++ "\", vector: " ++
          vectorLiteral ++ ", alpha: " ++ alpha ++ " \x7d")
      | _ => .ok ("nearVector: \x7b vector: " ++ vectorLiteral ++ " \x7d")

/-- What the document asks of every object. -/
def resultFields : List String :=
  ["document_id", "original_filename", "content", "chunk_index", "start_char", "end_char",
    "content_hash", "source_uri", "source_url", "ingested_at", "content_type", "content_risk",
    "content_risk_reasons", "tags", "section_heading", "reuse_count",
    "_additional \x7b id score certainty distance \x7d"]

/-- The document before the name of the collection. -/
def documentHead : String := "\n        \x7b\n            Get \x7b\n                "

/-- What opens the arguments. -/
def argumentsHead : String := "(\n                    "

/-- The document behind the search argument. -/
def documentTail (settings : SearchSettings) (tenantName : String) (request : SearchRequest) :
    String :=
  "\n                    tenant: \"" ++ tenantName ++
    "\"\n                    " ++ whereClause request ++
    "\n                    limit: " ++ toString (fetchLimit settings request) ++
    "\n                ) \x7b\n                    " ++
    "\n                    ".intercalate resultFields ++
    "\n                \x7d\n            \x7d\n        \x7d\n        "

/-- `_build_graphql`: the document, or the text of the `ValueError`. -/
def buildGraphql {F : Type} (format : FloatFormat F) (settings : SearchSettings)
    (collectionName tenantName : String) (request : QueryRequest F)
    (queryVector : Option (List F)) : Except String String :=
  (searchArgs format request queryVector).map fun args =>
    documentHead ++ collectionName ++ argumentsHead ++ args ++
      documentTail settings tenantName request.toSearchRequest

end Inherent
