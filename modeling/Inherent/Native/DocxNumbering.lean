import Inherent.Native.PyStr

/-!
# DOCX list numbering

`NumberingScheme` of `src/services/inh-ingestion-svc/src/temporal/activities/docx_numbering.py`,
behind the parsing of `word/numbering.xml`: the definitions are an argument, and the counters of a
walk over the document are a state.
-/

namespace Inherent

/-! ## Rendering a count -/

/-- `_ROMAN_DIGITS`. -/
def romanDigits : List (Nat × String) :=
  [(1000, "M"), (900, "CM"), (500, "D"), (400, "CD"), (100, "C"), (90, "XC"), (50, "L"), (40, "XL"),
    (10, "X"), (9, "IX"), (5, "V"), (4, "IV"), (1, "I")]

/-- The loop of `_to_roman` over the digits. -/
def romanLoop : List (Nat × String) → Nat → String
  | [], _ => ""
  | (value, symbol) :: digits, remaining =>
    String.join (List.replicate (remaining / value) symbol) ++ romanLoop digits (remaining % value)

/-- `_to_roman`. -/
def toRoman (n : ℤ) : String := if n ≤ 0 then toString n else romanLoop romanDigits n.toNat

/-- The loop of `_to_letters`, with the letters that it has appended, the last one first. -/
def lettersLoop (remaining : Nat) (letters : List Char) : List Char :=
  if remaining = 0 then letters
  else lettersLoop ((remaining - 1) / 26) (Char.ofNat ('a'.toNat + (remaining - 1) % 26) :: letters)
termination_by remaining
decreasing_by omega

/-- `_to_letters`. -/
def toLetters (n : ℤ) : String := if n ≤ 0 then toString n else String.ofList (lettersLoop n.toNat [])

/-- `_render_count`. -/
def renderCount (count : ℤ) (numFmt : String) : String :=
  if numFmt = "decimal" then toString count
  else if numFmt = "lowerLetter" then toLetters count
  else if numFmt = "upperLetter" then (toLetters count).toUpper
  else if numFmt = "lowerRoman" then (toRoman count).toLower
  else if numFmt = "upperRoman" then toRoman count
  else toString count

/-! ## The definitions -/

/-- `_LevelDef`. -/
structure LevelDef where
  numFmt : String
  lvlText : String
  start : ℤ
  decimalOverride : Bool
  deriving DecidableEq, Repr

/-- The parsed definitions of a `NumberingScheme`. -/
structure NumberingScheme where
  /-- `_abstract_levels`, by abstract list and level. -/
  abstractLevels : String → ℤ → Option LevelDef
  numToAbstract : String → Option String
  startOverrides : String × ℤ → Option ℤ

/-- The counters of a `NumberingScheme`, by abstract list and level, and the overrides that it has
    applied. -/
structure NumberingState where
  counters : String → ℤ → Option ℤ
  consumedStartOverrides : Finset (String × ℤ)

/-- The state of a new `NumberingScheme`. -/
def NumberingState.initial : NumberingState where
  counters _ _ := none
  consumedStartOverrides := ∅

/-- A call of `marker_for`. -/
structure MarkerCall where
  numId : String
  ilvl : ℤ
  deriving DecidableEq, Repr

namespace NumberingScheme

/-- `_level_def`. -/
def levelDef (scheme : NumberingScheme) (numId : String) (ilvl : ℤ) : Option LevelDef :=
  (scheme.numToAbstract numId).bind fun abstractId => scheme.abstractLevels abstractId ilvl

/-- The override that `marker_for` applies. -/
def unconsumedOverride (scheme : NumberingScheme) (st : NumberingState) (key : String × ℤ) :
    Option ℤ :=
  if key ∈ st.consumedStartOverrides then none else scheme.startOverrides key

/-- The counters of a list behind an item, with the deeper ones dropped. -/
def advanceCounters (counters : ℤ → Option ℤ) (level : LevelDef) (ilvl : ℤ) (override : Option ℤ)
    (l : ℤ) : Option ℤ :=
  if l = ilvl then
    match override with
    | some v => some v
    | none => some ((counters ilvl).getD (level.start - 1) + 1)
  else if l > ilvl then none
  else counters l

/-- The levels that a marker shows, with their counts. -/
def placeholders (scheme : NumberingScheme) (numId : String) (ilvl : ℤ) (level : LevelDef)
    (counters : ℤ → Option ℤ) : List (Nat × LevelDef × ℤ) :=
  (List.range (ilvl + 1).toNat).filterMap fun i : Nat =>
    let ancestor := if (i : ℤ) = ilvl then some level else scheme.levelDef numId i
    ancestor.map fun ancestor => (i, ancestor, (counters i).getD ancestor.start)

/-- The marker text, with the counts in the places of `%1`, `%2` and so on. -/
def renderMarker (level : LevelDef) (counts : List (Nat × LevelDef × ℤ)) : String :=
  counts.foldl (fun text (i, ancestor, count) =>
    let fmt := if level.decimalOverride then "decimal" else ancestor.numFmt
    text.replace ("%" ++ toString (i + 1)) (renderCount count fmt)) level.lvlText

/-- `marker_for`. -/
def markerFor (scheme : NumberingScheme) (st : NumberingState) (call : MarkerCall) :
    NumberingState × Option String :=
  match scheme.numToAbstract call.numId with
  | none => (st, none)
  | some abstractId =>
    match scheme.abstractLevels abstractId call.ilvl with
    | none => (st, none)
    | some level =>
      let key := (call.numId, call.ilvl)
      let override := scheme.unconsumedOverride st key
      let counters := advanceCounters (st.counters abstractId) level call.ilvl override
      let st' : NumberingState :=
        { counters := Function.update st.counters abstractId counters
          consumedStartOverrides :=
            if override.isSome then insert key st.consumedStartOverrides
            else st.consumedStartOverrides }
      if level.numFmt = "bullet" then (st', some "-")
      else
        (st', some (renderMarker level
          (scheme.placeholders call.numId call.ilvl level counters)))

end NumberingScheme

end Inherent

/-!
## Numbering inherited from styles

`resolve_paragraph_num_id_ilvl` of
`src/services/inh-ingestion-svc/src/temporal/activities/docx_numbering.py`.  Every access to
`base_style` makes a proxy object; the loop holds one proxy at a time, and remembers the `id` of
those before it, which are free by then.
-/

namespace Inherent

/-- A `<w:numPr>` element: the values of its `<w:numId>` and `<w:ilvl>`. -/
structure NumPrElement where
  numId : Option String
  ilvl : Option ℤ
  deriving DecidableEq, Repr

/-- A `<w:pPr>` element: its `<w:numPr>`. -/
structure PPrElement where
  numPr : Option NumPrElement
  deriving DecidableEq, Repr

/-- `_direct_num_pr`. -/
def directNumPr : Option PPrElement → Option (String × ℤ)
  | none => none
  | some pPr =>
    match pPr.numPr with
    | none => none
    | some numPr =>
      match numPr.numId with
      | none => none
      | some numId => some (numId, numPr.ilvl.getD 0)

/-- A paragraph with the styles of its document. -/
structure StyledParagraph (S : Type) where
  pPr : Option PPrElement
  style : Option S
  stylePPr : S → Option PPrElement
  baseStyle : S → Option S

/-- The addresses at which a process can hold objects. -/
structure AddressSpace where
  addresses : Set Nat
  nontrivial : addresses.Nontrivial

/-- The ids of the proxies that a walk makes, one after the other.  A proxy is made while the one
    before it is alive; the address of any other may be used again. -/
structure ProxyIds (space : AddressSpace) where
  id : Nat → Nat
  mem_addresses : ∀ n, id n ∈ space.addresses
  live : ∀ n, id n ≠ id (n + 1)

variable {S : Type} {space : AddressSpace}

/-- The loop of `resolve_paragraph_num_id_ilvl` at the proxy `n`; `none` when the fuel is spent. -/
def climbStyles (paragraph : StyledParagraph S) (ids : ProxyIds space) :
    Nat → Nat → Finset Nat → Option S → Option (Option (String × ℤ))
  | 0, _, _, _ => none
  | _ + 1, _, _, none => some none
  | fuel + 1, n, seen, some style =>
    if ids.id n ∈ seen then some none
    else
      match directNumPr (paragraph.stylePPr style) with
      | some found => some (some found)
      | none =>
        climbStyles paragraph ids fuel (n + 1) (insert (ids.id n) seen)
          (paragraph.baseStyle style)

/-- `resolve_paragraph_num_id_ilvl`. -/
def resolveParagraphNumIdIlvl (paragraph : StyledParagraph S) (ids : ProxyIds space)
    (fuel : Nat) : Option (Option (String × ℤ)) :=
  match directNumPr paragraph.pPr with
  | some direct => some (some direct)
  | none => climbStyles paragraph ids fuel 0 ∅ paragraph.style

end Inherent
