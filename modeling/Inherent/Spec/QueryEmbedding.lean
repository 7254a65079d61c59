import Inherent.ForStd.GraphqlLexer
import Inherent.Native.SearchQuery
import Inherent.Spec.StorageNames

/-!
# The query in the text of a search request

The query is spliced between quotes, with a backslash before its quotes and backslashes.  That
is a GraphQL string with the query as its value, unless the query has a control character: a
line end, or any other below the space but the tab.  The literals of the `where` clause go
through `json.dumps`, which escapes those as well (`run_jsonString`).
-/

open Graphql

namespace Inherent

/-- The argument that the query is spliced into. -/
def SearchMode.queryArgument : SearchMode → Option String
  | keyword => some "bm25"
  | hybrid => some "hybrid"
  | semantic => none

/-- The literal of the query. -/
def queryLiteral (query : String) : String := "\"" ++ escapedQuery query ++ "\""

/-- The document up to the literal of the query. -/
def queryPrefix (collectionName argument : String) : String :=
  documentHead ++ collectionName ++ argumentsHead ++ argument ++ ": \x7b query: "

/-- The tokens of that part. -/
def prefixTokens (collectionName argument : String) : List Token :=
  [.punctuator ['{'], .name ['G', 'e', 't'], .punctuator ['{'], .name collectionName.toList,
    .punctuator ['('], .name argument.toList, .punctuator [':'], .punctuator ['{'],
    .name ['q', 'u', 'e', 'r', 'y'], .punctuator [':']]

/-- The document has one string with the query as its value where the argument `query` stands,
    and what comes behind it is read as if it stood alone. -/
structure EmbedsQuery (collectionName argument query document : String) : Prop where
  literal : run .idle (queryLiteral query).toList = some (.idle, [.string query.toList])
  spliced : ∃ after, document = queryPrefix collectionName argument ++ queryLiteral query ++ after ∧
    lex document.toList = (lex after.toList).map
      (prefixTokens collectionName argument ++ .string query.toList :: ·)

/-! ## The literal -/

/-- The two replacements escape every quote and backslash once. -/
theorem toList_escapedQuery (query : String) :
    (escapedQuery query).toList = query.toList.flatMap escapeQuote := by
  rw [escapedQuery, String.toList_ofList, PyStr.replaceChar, PyStr.replaceChar,
    List.flatMap_assoc]
  congr 1
  funext c
  by_cases hslash : c = '\\'
  · subst hslash
    rfl
  · by_cases hquote : c = '"'
    · subst hquote
      rfl
    · simp [escapeQuote, hslash, hquote]

theorem toList_queryLiteral (query : String) :
    (queryLiteral query).toList = quoted query.toList := by
  simp [queryLiteral, toList_escapedQuery, quoted]

/-- The characters that the literal may hold. -/
theorem quotable_iff (c : Char) : quotable c = true ↔ c = '\t' ∨ 0x20 ≤ c.toNat := by
  have hlf : c = '\n' → c.toNat = 10 := fun h => h ▸ rfl
  have hcr : c = '\r' → c.toNat = 13 := fun h => h ▸ rfl
  simp only [quotable, sourceCharacter, lineTerminator, Bool.and_eq_true, Bool.or_eq_true,
    beq_iff_eq, decide_eq_true_eq, Bool.not_eq_true', Bool.or_eq_false_iff, beq_eq_false_iff_ne]
  constructor
  · rintro ⟨((h | h) | h) | h, hnlf, hncr⟩
    · exact Or.inl h
    · exact absurd h hnlf
    · exact absurd h hncr
    · exact Or.inr h
  · rintro (rfl | h)
    · decide
    · refine ⟨Or.inr h, ?_, ?_⟩
      · intro heq
        have hcode := hlf heq
        omega
      · intro heq
        have hcode := hcr heq
        omega

/-! ## The literals of the `where` clause -/

theorem hexValue?_digitChar {n : Nat} (h : n < 16) : hexValue? (Nat.digitChar n) = some n := by
  have hall : ∀ n ∈ List.range 16, hexValue? (Nat.digitChar n) = some n := by decide
  exact hall n (List.mem_range.mpr h)

/-- Four hex digits complete the escape of a code unit. -/
theorem run_hex4 {acc : List Char} {lead : Option Nat} {n : Nat} {s : State} (hn : n < 0x10000)
    (hadd : addCodeUnit acc lead n = some s) :
    run (.unicode acc lead []) (hex4 n) = some (s, []) := by
  have hlt : ∀ m : Nat, m % 16 < 16 := fun m => Nat.mod_lt m (by decide)
  have hvalue : ((n / 4096 % 16 * 16 + n / 256 % 16) * 16 + n / 16 % 16) * 16 + n % 16 = n := by
    omega
  simp only [hex4, List.map_cons, List.map_nil, run, step, hexValue?_digitChar (hlt _),
    Option.bind_some, hvalue, hadd]
  rfl

/-- Every character of a JSON string is read as itself. -/
theorem run_jsonEscape (acc : List Char) (c : Char) :
    run (.string acc) (jsonEscape c) = some (.string (c :: acc), []) := by
  have hchar : Char.ofNat c.toNat = c := Char.ofNat_toNat c
  have hvalid : c.toNat < 0xD800 ∨ 0xDFFF < c.toNat ∧ c.toNat < 0x110000 := c.valid
  unfold jsonEscape
  dsimp only
  split_ifs with hquote hlf hcr htab hbs hff hprint hunit
  · rcases hquote with rfl | rfl <;> rfl
  · subst hlf
    rfl
  · subst hcr
    rfl
  · subst htab
    rfl
  · rw [← hchar, hbs]
    rfl
  · rw [← hchar, hff]
    rfl
  · rw [not_or] at hquote
    have hsource : stringCharacter c = true := by
      simp [stringCharacter, sourceCharacter, lineTerminator, hquote, hlf, hcr, hprint.1]
    simp only [run, step, beq_iff_eq, hquote.1, hquote.2, hsource, if_false, if_true,
      Option.bind_some, Option.map_some, List.append_nil]
  · -- a code unit of its own
    have hescape : run (.string acc) ['\\', 'u'] = some (.unicode acc none [], []) := by rfl
    have hadd : addCodeUnit acc none c.toNat = some (.string (c :: acc)) := by
      have hlead : ¬ (0xD800 ≤ c.toNat ∧ c.toNat ≤ 0xDBFF) := by omega
      have htrail : ¬ (0xDC00 ≤ c.toNat ∧ c.toNat ≤ 0xDFFF) := by omega
      simp only [addCodeUnit, hlead, htrail, if_false, hchar]
    change run (.string acc) (['\\', 'u'] ++ hex4 c.toNat) = _
    rw [run_append hescape, run_hex4 hunit hadd]
    rfl
  · -- a pair of surrogates
    have hescape : run (.string acc) ['\\', 'u'] = some (.unicode acc none [], []) := rfl
    have hescape' : ∀ lead, run (.surrogate acc lead) ['\\', 'u'] =
        some (.unicode acc (some lead) [], []) := fun _ => rfl
    generalize hv : c.toNat - 0x10000 = v
    have hlead : addCodeUnit acc none (0xD800 + v / 0x400) =
        some (.surrogate acc (0xD800 + v / 0x400)) := by
      have hrange : 0xD800 ≤ 0xD800 + v / 0x400 ∧ 0xD800 + v / 0x400 ≤ 0xDBFF := by omega
      simp only [addCodeUnit, if_pos hrange]
    have htrail : addCodeUnit acc (some (0xD800 + v / 0x400)) (0xDC00 + v % 0x400) =
        some (.string (c :: acc)) := by
      have hrange : 0xDC00 ≤ 0xDC00 + v % 0x400 ∧ 0xDC00 + v % 0x400 ≤ 0xDFFF := by omega
      have hcode : 0x10000 + (0xD800 + v / 0x400 - 0xD800) * 0x400 +
          (0xDC00 + v % 0x400 - 0xDC00) = c.toNat := by omega
      simp only [addCodeUnit, if_pos hrange, hcode, hchar]
    change run (.string acc) ((['\\', 'u'] ++ hex4 (0xD800 + v / 0x400)) ++
      (['\\', 'u'] ++ hex4 (0xDC00 + v % 0x400))) = _
    have hunit₁ : 0xD800 + v / 0x400 < 0x10000 := by omega
    have hunit₂ : 0xDC00 + v % 0x400 < 0x10000 := by omega
    rw [List.append_assoc, run_append hescape, run_append (run_hex4 hunit₁ hlead),
      run_append (hescape' _), run_hex4 hunit₂ htrail]
    rfl

/-- No character is written with a quote at its beginning. -/
theorem jsonEscape_head (c : Char) : ∃ d rest, jsonEscape c = d :: rest ∧ d ≠ '"' := by
  unfold jsonEscape
  dsimp only
  -- all begin with a backslash but the printable characters
  split_ifs with hquote
  all_goals refine ⟨_, _, rfl, ?_⟩
  all_goals first | decide | exact (not_or.mp hquote).1

/-- A text that `json.dumps` writes is one string with the text as its value. -/
theorem run_jsonString {text : String} (hne : text ≠ "") :
    run .idle (jsonString text).toList = some (.idle, [.string text.toList]) := by
  have htext : (jsonString text).toList =
      '"' :: (text.toList.flatMap jsonEscape ++ ['"']) := by
    simp [jsonString]
  have hlist : text.toList ≠ [] := by
    intro hnil
    exact hne (String.toList_eq_nil_iff.mp hnil)
  rw [htext]
  exact run_literal hlist fun c _ => ⟨jsonEscape_head c, fun acc => run_jsonEscape acc c⟩

/-! ## The document -/

theorem nameContinue_of_mem_alphabet {c : Char} (hc : c ∈ Base32.alphabet) :
    nameContinue c = true := by
  have hall : Base32.alphabet.all nameContinue = true := by decide
  exact List.all_eq_true.mp hall c hc

/-- The part before the literal ends between two tokens. -/
theorem run_queryPrefix (workspaceId : String) {mode : SearchMode} {argument : String}
    (hmode : mode.queryArgument = some argument) :
    run .idle (queryPrefix (getWorkspaceCollectionName workspaceId) argument).toList =
      some (.idle, prefixTokens (getWorkspaceCollectionName workspaceId) argument) := by
  have hopen : run .idle documentHead.toList =
      some (.idle, [.punctuator ['{'], .name ['G', 'e', 't'], .punctuator ['{']]) := by
    decide +kernel
  have hstart : run .idle workspaceCollectionPrefix.toList =
      some (.name workspaceCollectionPrefix.toList.reverse, []) := by
    decide +kernel
  have hname := run_name
    (fun c hc => nameContinue_of_mem_alphabet ((encodeId_spec workspaceId).1 c hc))
    workspaceCollectionPrefix.toList.reverse
  have hclose : ∀ acc, run (.name acc) argumentsHead.toList =
      some (.idle, [.name acc.reverse, .punctuator ['(']]) := by
    intro acc
    rfl
  -- the argument of the mode is one of two fixed texts
  have hargument : run .idle (argument.toList ++ ": \x7b query: ".toList) =
      some (.idle, [.name argument.toList, .punctuator [':'], .punctuator ['{'],
        .name ['q', 'u', 'e', 'r', 'y'], .punctuator [':']]) := by
    cases mode with
    | semantic => cases hmode
    | keyword =>
      rw [← Option.some.inj hmode]
      decide +kernel
    | hybrid =>
      rw [← Option.some.inj hmode]
      decide +kernel
  simp only [queryPrefix, getWorkspaceCollectionName, String.toList_append, List.append_assoc]
  rw [run_append hopen, run_append hstart, run_append hname, run_append (hclose _), hargument]
  simp only [Option.map_some, List.nil_append, List.reverse_append, List.reverse_reverse,
    prefixTokens, String.toList_append]
  rfl

/-- The search argument begins with the literal of the query. -/
theorem searchArgs_eq {F : Type} {format : FloatFormat F} {request : QueryRequest F}
    {queryVector : Option (List F)} {argument args : String}
    (hmode : request.searchMode.queryArgument = some argument)
    (hargs : searchArgs format request queryVector = .ok args) :
    ∃ close, args = argument ++ ": \x7b query: " ++ queryLiteral request.query ++ close := by
  unfold searchArgs at hargs
  cases hsearch : request.searchMode with
  | semantic =>
    rw [hsearch] at hmode
    cases hmode
  | keyword =>
    rw [hsearch] at hmode
    simp only [hsearch, Except.ok.injEq] at hargs
    have hopen : "bm25: \x7b query: \"" = "bm25" ++ (": \x7b query: " ++ "\"") := by decide
    have hclose : "\" \x7d" = "\"" ++ " \x7d" := by decide
    refine ⟨" \x7d", ?_⟩
    rw [← hargs, ← Option.some.inj hmode, hopen, hclose]
    simp only [queryLiteral, String.append_assoc]
  | hybrid =>
    rw [hsearch] at hmode
    simp only [hsearch] at hargs
    cases queryVector with
    | none => cases hargs
    | some vector =>
      simp only [Except.ok.injEq] at hargs
      have hopen : "hybrid: \x7b query: \"" = "hybrid" ++ (": \x7b query: " ++ "\"") := by decide
      have hclose : "\", vector: " = "\"" ++ ", vector: " := by decide
      refine ⟨", vector: " ++ ("[" ++ ", ".intercalate (vector.map format.fixed6) ++ "]") ++
        ", alpha: " ++ request.alpha.elim "None" format.plain ++ " \x7d", ?_⟩
      rw [← hargs, ← Option.some.inj hmode, hopen, hclose]
      simp only [queryLiteral, String.append_assoc]

section

variable {F : Type} {format : FloatFormat F} {settings : SearchSettings}
  {request : QueryRequest F} {queryVector : Option (List F)} {document argument : String}

/-- The document is the part before the literal, the literal and the rest. -/
theorem exists_after {collectionName tenantName : String}
    (hmode : request.searchMode.queryArgument = some argument)
    (hdocument : buildGraphql format settings collectionName tenantName request queryVector =
      .ok document) :
    ∃ after, document =
      queryPrefix collectionName argument ++ queryLiteral request.query ++ after := by
  unfold buildGraphql at hdocument
  cases hargs : searchArgs format request queryVector with
  | error e =>
    rw [hargs] at hdocument
    cases hdocument
  | ok args =>
    obtain ⟨close, rfl⟩ := searchArgs_eq hmode hargs
    simp only [hargs, Except.map] at hdocument
    refine ⟨close ++ documentTail settings tenantName request.toSearchRequest, ?_⟩
    refine (Except.ok.inj hdocument).symm.trans ?_
    simp only [queryPrefix, String.append_assoc]

variable {workspaceId userId : String}

/-- The query is embedded exactly when it has no control character but tabs. -/
theorem embedsQuery_iff (hmode : request.searchMode.queryArgument = some argument)
    (hdocument : buildGraphql format settings (getWorkspaceCollectionName workspaceId)
      (getUserTenantName userId) request queryVector = .ok document) :
    EmbedsQuery (getWorkspaceCollectionName workspaceId) argument request.query document ↔
      ∀ c ∈ request.query.toList, c = '\t' ∨ 0x20 ≤ c.toNat := by
  have hne : request.query.toList ≠ [] := by
    intro hnil
    have hlen := request.query_length.1
    rw [← String.length_toList, hnil] at hlen
    cases hlen
  constructor
  · intro h c hc
    rw [← quotable_iff]
    by_contra hbad
    have hnone := run_quoted_eq_none hc (Bool.not_eq_true _ ▸ hbad)
    rw [← toList_queryLiteral, h.literal] at hnone
    cases hnone
  · intro h
    have hliteral : run .idle (queryLiteral request.query).toList =
        some (.idle, [.string request.query.toList]) := by
      rw [toList_queryLiteral]
      exact run_quoted hne fun c hc => (quotable_iff c).mpr (h c hc)
    obtain ⟨after, rfl⟩ := exists_after hmode hdocument
    refine ⟨hliteral, after, rfl, ?_⟩
    rw [String.toList_append, String.toList_append, List.append_assoc,
      lex_append (run_queryPrefix workspaceId hmode), lex_append hliteral, Option.map_map]
    congr 1

/-- A request with another control character is no GraphQL document. -/
theorem lex_eq_none_of_control (hmode : request.searchMode.queryArgument = some argument)
    (hdocument : buildGraphql format settings (getWorkspaceCollectionName workspaceId)
      (getUserTenantName userId) request queryVector = .ok document)
    {c : Char} (hc : c ∈ request.query.toList) (hbad : ¬ (c = '\t' ∨ 0x20 ≤ c.toNat)) :
    lex document.toList = none := by
  rw [← quotable_iff, Bool.not_eq_true] at hbad
  obtain ⟨after, rfl⟩ := exists_after hmode hdocument
  rw [String.toList_append, String.toList_append, List.append_assoc,
    lex_append (run_queryPrefix workspaceId hmode), toList_queryLiteral, lex,
    run_append_eq_none (run_quoted_eq_none hc hbad)]
  rfl

end

/-- Settings and floats for a concrete request. -/
def querySettings : SearchSettings where
  enableDiversification := false
  diversificationOverFetchMultiplier := 3
  roundScore := id
  reuseBoost := none

/-- Floats as tenths. -/
def tenths : FloatFormat Nat where
  fixed6 n := "0." ++ toString n ++ "00000"
  plain n := "0." ++ toString n

/-- A request for a query text, in a search mode. -/
def requestFor (query : String) (h : 1 ≤ query.length ∧ query.length ≤ 1000)
    (searchMode : SearchMode) : QueryRequest Nat where
  limit := 10
  minScore := 0
  documentIds := none
  filters := none
  limit_mem := by decide
  query := query
  searchMode := searchMode
  alpha := some 7
  query_length := h

/-- A hybrid search for a text with quotes and backslashes. -/
theorem embedsQuery_quotes : ∃ document,
    buildGraphql tenths querySettings (getWorkspaceCollectionName "ws-1")
      (getUserTenantName "ada") (requestFor "say \"hi\" \\" (by decide) .hybrid)
      (some [1, 2]) = .ok document ∧
    EmbedsQuery (getWorkspaceCollectionName "ws-1") "hybrid" "say \"hi\" \\" document := by
  have hchars : "say \"hi\" \\".toList.all (fun c => c = '\t' ∨ 0x20 ≤ c.toNat) = true := by
    decide
  have hmode : (requestFor "say \"hi\" \\" (by decide) .hybrid).searchMode.queryArgument =
      some "hybrid" := rfl
  obtain ⟨document, hdocument⟩ : ∃ document, buildGraphql tenths querySettings
      (getWorkspaceCollectionName "ws-1") (getUserTenantName "ada")
      (requestFor "say \"hi\" \\" (by decide) .hybrid) (some [1, 2]) = .ok document := ⟨_, rfl⟩
  refine ⟨document, hdocument, (embedsQuery_iff hmode hdocument).mpr ?_⟩
  intro c hc
  exact of_decide_eq_true (List.all_eq_true.mp hchars c hc)

/-- A keyword search for a text of two lines. -/
theorem not_embedsQuery_lines : ∃ document,
    buildGraphql tenths querySettings (getWorkspaceCollectionName "ws-1")
      (getUserTenantName "ada") (requestFor "a\nb" (by decide) .keyword) none = .ok document ∧
    ¬ EmbedsQuery (getWorkspaceCollectionName "ws-1") "bm25" "a\nb" document := by
  refine ⟨_, rfl, ?_⟩
  intro h
  have hnone : run .idle (queryLiteral "a\nb").toList = none := by decide +kernel
  rw [h.literal] at hnone
  cases hnone

end Inherent
