import Mathlib

/-!
# Tokens of a GraphQL document

The lexical grammar of the GraphQL specification (October 2021), as an automaton that reads
one character at a time: `run` reads a text from a state, and two texts are read one after the
other (`run_append`).  A string is read back from its quoted characters (`run_quoted`), and a
character that the grammar keeps out of strings stops the automaton (`run_quoted_eq_none`).
-/

namespace Graphql

/-- A lexical token; white space, line ends, commas and comments are none. -/
inductive Token where
  | punctuator (text : List Char)
  | name (text : List Char)
  | number (text : List Char)
  | string (value : List Char)
  /-- A block string, with its raw value. -/
  | blockString (raw : List Char)
  deriving DecidableEq, Repr

/-- Where the automaton is; characters that have been read come last first. -/
inductive State where
  | idle
  | name (acc : List Char)
  | number (acc : List Char)
  /-- Behind one dot, or two. -/
  | dots (n : Nat)
  | comment
  /-- Behind the opening quote of a string. -/
  | opened
  /-- Behind two quotes, which are an empty string or open a block string. -/
  | emptyString
  | string (acc : List Char)
  /-- Behind a backslash. -/
  | escape (acc : List Char)
  /-- Behind a backslash, `u` and some of the four hex digits, which come last first; `lead` is
      the leading surrogate of an escape just before. -/
  | unicode (acc : List Char) (lead : Option Nat) (digits : List Nat)
  /-- Behind the escape of a leading surrogate. -/
  | surrogate (acc : List Char) (lead : Nat)
  /-- Behind that and a backslash. -/
  | surrogateEscape (acc : List Char) (lead : Nat)
  /-- In a block string, with the backslash and quotes that have been read last. -/
  | block (acc pending : List Char)
  deriving DecidableEq, Repr

/-- `SourceCharacter`: tab, line ends and every character from the space on. -/
def sourceCharacter (c : Char) : Bool :=
  c == '\t' || c == '\n' || c == '\r' || 0x20 ≤ c.toNat

/-- `LineTerminator`. -/
def lineTerminator (c : Char) : Bool := c == '\n' || c == '\r'

/-- `NameStart`. -/
def nameStart (c : Char) : Bool := c.isAlpha || c == '_'

/-- `NameContinue`. -/
def nameContinue (c : Char) : Bool := c.isAlphanum || c == '_'

/-- The characters that stand unescaped in a string. -/
def stringCharacter (c : Char) : Bool :=
  sourceCharacter c && !lineTerminator c && c != '"' && c != '\\'

/-- `Punctuator`s of one character. -/
def punctuators : List Char := ['!', '$', '&', '(', ')', ':', '=', '@', '[', ']', '{', '|', '}']

/-- `Ignored` characters outside comments, the byte order mark among them. -/
def ignored (c : Char) : Bool :=
  c == '\t' || c == ' ' || lineTerminator c || c == ',' || c.toNat == 0xFEFF

/-- Drop an optional sign. -/
def dropSign (signs : List Char) : List Char → List Char
  | c :: rest => if c ∈ signs then rest else c :: rest
  | [] => []

/-- `IntValue` or `FloatValue`: an optional `-`, an integer part without leading zeros, and
    an optional fraction and exponent. -/
def isNumber (text : List Char) : Bool :=
  let unsigned := dropSign ['-'] text
  let int := unsigned.takeWhile Char.isDigit
  let rest := unsigned.dropWhile Char.isDigit
  let intOk := int != [] && (int == ['0'] || int.head? != some '0')
  let afterFraction := match rest with
    | '.' :: more =>
      if more.takeWhile Char.isDigit = [] then none else some (more.dropWhile Char.isDigit)
    | more => some more
  let exponentOk := match afterFraction with
    | none => false
    | some [] => true
    | some (c :: more) =>
      let digits := dropSign ['+', '-'] more
      (c == 'e' || c == 'E') && digits != [] && digits.all Char.isDigit
  intOk && exponentOk

/-- The character goes on with the number that has been read so far. -/
def numberContinue (acc : List Char) (c : Char) : Bool :=
  nameContinue c || c == '.' ||
    ((c == '+' || c == '-') && (acc.head? == some 'e' || acc.head? == some 'E'))

/-- The value of a hex digit. -/
def hexValue? (c : Char) : Option Nat :=
  "0123456789abcdef".toList.findIdx? (· == c.toLower)

/-- The character of an escape of one letter. -/
def escapedCharacter? : Char → Option Char
  | '"' => some '"'
  | '\\' => some '\\'
  | '/' => some '/'
  | 'b' => some (Char.ofNat 0x08)
  | 'f' => some (Char.ofNat 0x0C)
  | 'n' => some '\n'
  | 'r' => some '\r'
  | 't' => some '\t'
  | _ => none

/-- The string behind the escape of a code unit: a leading surrogate needs its trailing one. -/
def addCodeUnit (acc : List Char) (lead : Option Nat) (unit : Nat) : Option State :=
  match lead with
  | none =>
    if 0xD800 ≤ unit ∧ unit ≤ 0xDBFF then some (.surrogate acc unit)
    else if 0xDC00 ≤ unit ∧ unit ≤ 0xDFFF then none
    else some (.string (Char.ofNat unit :: acc))
  | some lead =>
    if 0xDC00 ≤ unit ∧ unit ≤ 0xDFFF then
      some (.string (Char.ofNat (0x10000 + (lead - 0xD800) * 0x400 + (unit - 0xDC00)) :: acc))
    else none

/-- A character at the start of a token. -/
def start (c : Char) : Option (State × List Token) :=
  if ignored c then some (.idle, [])
  else if c ∈ punctuators then some (.idle, [.punctuator [c]])
  else if c == '"' then some (.opened, [])
  else if c == '#' then some (.comment, [])
  else if c == '.' then some (.dots 1, [])
  else if nameStart c then some (.name [c], [])
  else if c.isDigit || c == '-' then some (.number [c], [])
  else none

/-- The tokens, then what the character starts. -/
def emit (tokens : List Token) (c : Char) : Option (State × List Token) :=
  (start c).map fun next => (next.1, tokens ++ next.2)

/-- One character: the next state and the tokens that it completes. -/
def step : State → Char → Option (State × List Token)
  | .idle, c => start c
  | .name acc, c =>
    if nameContinue c then some (.name (c :: acc), []) else emit [.name acc.reverse] c
  | .number acc, c =>
    if numberContinue acc c then some (.number (c :: acc), [])
    else if isNumber acc.reverse then emit [.number acc.reverse] c
    else none
  | .dots n, c =>
    if c != '.' then none
    else if n = 2 then some (.idle, [.punctuator ['.', '.', '.']])
    else some (.dots (n + 1), [])
  | .comment, c =>
    if lineTerminator c then some (.idle, [])
    else if sourceCharacter c then some (.comment, [])
    else none
  | .opened, c =>
    if c == '"' then some (.emptyString, [])
    else if c == '\\' then some (.escape [], [])
    else if stringCharacter c then some (.string [c], [])
    else none
  | .emptyString, c =>
    if c == '"' then some (.block [] [], []) else emit [.string []] c
  | .string acc, c =>
    if c == '"' then some (.idle, [.string acc.reverse])
    else if c == '\\' then some (.escape acc, [])
    else if stringCharacter c then some (.string (c :: acc), [])
    else none
  | .escape acc, c =>
    if c == 'u' then some (.unicode acc none [], [])
    else (escapedCharacter? c).map fun d => (.string (d :: acc), [])
  | .unicode acc lead digits, c =>
    (hexValue? c).bind fun v =>
      match digits with
      | [d₃, d₂, d₁] =>
        (addCodeUnit acc lead (((d₁ * 16 + d₂) * 16 + d₃) * 16 + v)).map fun s => (s, [])
      | digits => some (.unicode acc lead (v :: digits), [])
  | .surrogate acc lead, c => if c == '\\' then some (.surrogateEscape acc lead, []) else none
  | .surrogateEscape acc lead, c =>
    if c == 'u' then some (.unicode acc (some lead) [], []) else none
  | .block acc pending, c =>
    if c == '"' then
      if pending = ['"', '"'] then some (.idle, [.blockString acc.reverse])
      else if pending = ['"', '"', '\\'] then some (.block ('"' :: '"' :: '"' :: acc) [], [])
      else some (.block acc ('"' :: pending), [])
    else if c == '\\' then some (.block (pending ++ acc) ['\\'], [])
    else if sourceCharacter c then some (.block (c :: (pending ++ acc)) [], [])
    else none

/-- What the end of the text completes. -/
def finish : State → Option (List Token)
  | .idle => some []
  | .name acc => some [.name acc.reverse]
  | .number acc => if isNumber acc.reverse then some [.number acc.reverse] else none
  | .comment => some []
  | .emptyString => some [.string []]
  | _ => none

/-- Read a text. -/
def run : State → List Char → Option (State × List Token)
  | s, [] => some (s, [])
  | s, c :: cs => (step s c).bind fun next =>
    (run next.1 cs).map fun last => (last.1, next.2 ++ last.2)

/-- The tokens of a document. -/
def lex (text : List Char) : Option (List Token) :=
  (run .idle text).bind fun last => (finish last.1).map fun tokens => last.2 ++ tokens

example : lex "\x7b Get(q: \"a\\\"\\uD83D\\uDE00\", n: -1.5e3) \x7d".toList =
    some [.punctuator ['{'], .name ['G', 'e', 't'], .punctuator ['('], .name ['q'],
      .punctuator [':'], .string ['a', '"', '😀'], .name ['n'], .punctuator [':'],
      .number ['-', '1', '.', '5', 'e', '3'], .punctuator [')'], .punctuator ['}']] := by
  decide +kernel

/-! ## Texts one after the other -/

variable {s s' : State} {tokens : List Token}

@[simp] theorem run_nil (s : State) : run s [] = some (s, []) := rfl

theorem run_cons (s : State) (c : Char) (cs : List Char) :
    run s (c :: cs) = (step s c).bind fun next =>
      (run next.1 cs).map fun last => (last.1, next.2 ++ last.2) := rfl

/-- A text read behind another. -/
theorem run_append {text : List Char} (h : run s text = some (s', tokens)) (rest : List Char) :
    run s (text ++ rest) = (run s' rest).map fun last => (last.1, tokens ++ last.2) := by
  induction text generalizing s tokens with
  | nil =>
    simp only [run_nil, Option.some.injEq, Prod.mk.injEq] at h
    obtain ⟨rfl, rfl⟩ := h
    simp
  | cons c cs ih =>
    rw [run_cons, Option.bind_eq_some_iff] at h
    obtain ⟨next, hnext, h⟩ := h
    rw [Option.map_eq_some_iff] at h
    obtain ⟨last, hlast, heq⟩ := h
    obtain ⟨rfl, rfl⟩ := Prod.mk.inj heq
    rw [List.cons_append, run_cons, hnext, Option.bind_some, ih hlast, Option.map_map]
    congr 1
    funext final
    simp

/-- A text that cannot be read cannot be read with more behind it. -/
theorem run_append_eq_none {text : List Char} (h : run s text = none) (rest : List Char) :
    run s (text ++ rest) = none := by
  induction text generalizing s with
  | nil => cases h
  | cons c cs ih =>
    rw [run_cons, Option.bind_eq_none_iff] at h
    rw [List.cons_append, run_cons, Option.bind_eq_none_iff]
    intro next hnext
    rw [ih (Option.map_eq_none_iff.mp (h next hnext))]
    rfl

/-- The tokens of a document that begins with a text which ends between two tokens. -/
theorem lex_append {text : List Char} (h : run .idle text = some (.idle, tokens))
    (rest : List Char) : lex (text ++ rest) = (lex rest).map (tokens ++ ·) := by
  rw [lex, run_append h, lex]
  cases run .idle rest with
  | none => rfl
  | some last =>
    simp only [Option.map_some, Option.bind_some, Option.map_map]
    congr 1
    funext final
    simp

/-- The rest of a name. -/
theorem run_name {text : List Char} (htext : ∀ c ∈ text, nameContinue c = true)
    (acc : List Char) : run (.name acc) text = some (.name (text.reverse ++ acc), []) := by
  induction text generalizing acc with
  | nil => rfl
  | cons c cs ih =>
    have hstep : step (.name acc) c = some (.name (c :: acc), []) := by
      simp only [step, htext c List.mem_cons_self, if_true]
    rw [run_cons, hstep, Option.bind_some, ih (fun d hd => htext d (List.mem_cons_of_mem _ hd))]
    simp

/-! ## Strings -/

/-- `escape c` is read as the character `c` of a string, also when it stands first. -/
structure Escapes (escape : Char → List Char) (c : Char) : Prop where
  head : ∃ d rest, escape c = d :: rest ∧ d ≠ '"'
  read : ∀ acc, run (.string acc) (escape c) = some (.string (c :: acc), [])

/-- The first character of a string. -/
theorem run_opened {c : Char} (hc : c ≠ '"') (text : List Char) :
    run .opened (c :: text) = run (.string []) (c :: text) := by
  simp only [run, step, beq_iff_eq, hc, if_false]

variable {escape : Char → List Char} {text : List Char}

/-- The escaped characters of a text in a string. -/
theorem run_flatMap (h : ∀ c ∈ text, Escapes escape c) (acc : List Char) :
    run (.string acc) (text.flatMap escape) = some (.string (text.reverse ++ acc), []) := by
  induction text generalizing acc with
  | nil => rfl
  | cons c cs ih =>
    have hc := (h c List.mem_cons_self).read acc
    rw [List.flatMap_cons, run_append hc, ih (fun d hd => h d (List.mem_cons_of_mem _ hd))]
    simp

/-- A nonempty text that is escaped between quotes is one string, and its value is the text. -/
theorem run_literal (hne : text ≠ []) (h : ∀ c ∈ text, Escapes escape c) :
    run .idle ('"' :: (text.flatMap escape ++ ['"'])) = some (.idle, [.string text]) := by
  have hquote : run .idle ['"'] = some (.opened, []) := rfl
  have hopened : run .opened (text.flatMap escape) = run (.string []) (text.flatMap escape) := by
    cases text with
    | nil => exact absurd rfl hne
    | cons c cs =>
      obtain ⟨d, rest, hescape, hd⟩ := (h c List.mem_cons_self).head
      rw [List.flatMap_cons, hescape, List.cons_append, run_opened hd]
  rw [run_flatMap h, List.append_nil] at hopened
  change run .idle (['"'] ++ (text.flatMap escape ++ ['"'])) = _
  rw [run_append hquote, run_append hopened]
  simp only [run, step, List.reverse_reverse, beq_self_eq_true, if_true, Option.bind_some,
    Option.map_some, List.nil_append, List.append_nil]

/-! ## Quoted texts -/

/-- A quote or backslash with a backslash before it, any other character alone. -/
def escapeQuote (c : Char) : List Char := if c = '"' ∨ c = '\\' then ['\\', c] else [c]

/-- A text between quotes. -/
def quoted (text : List Char) : List Char := '"' :: (text.flatMap escapeQuote ++ ['"'])

/-- The characters that a string may hold once its quotes and backslashes are escaped. -/
def quotable (c : Char) : Bool := sourceCharacter c && !lineTerminator c

theorem escapeQuote_head (c : Char) : ∃ d rest, escapeQuote c = d :: rest ∧ d ≠ '"' := by
  unfold escapeQuote
  split
  · exact ⟨_, _, rfl, by decide⟩
  · rename_i hc
    exact ⟨_, _, rfl, (not_or.mp hc).1⟩

/-- One escaped character in a string. -/
theorem run_escapeQuote (acc : List Char) (c : Char) :
    run (.string acc) (escapeQuote c) =
      if quotable c then some (.string (c :: acc), []) else none := by
  unfold escapeQuote
  split
  · rename_i hc
    cases hc with
    | inl hc => subst hc; rfl
    | inr hc => subst hc; rfl
  · rename_i hc
    rw [not_or] at hc
    have hquote : (c != '"') = true := bne_iff_ne.mpr hc.1
    have hslash : (c != '\\') = true := bne_iff_ne.mpr hc.2
    have hchar : stringCharacter c = quotable c := by
      simp only [stringCharacter, quotable, hquote, hslash, Bool.and_true]
    simp only [run, step, beq_iff_eq, hc.1, hc.2, hchar, if_false]
    split <;> rfl

theorem escapes_escapeQuote {c : Char} (h : quotable c = true) : Escapes escapeQuote c where
  head := escapeQuote_head c
  read acc := by rw [run_escapeQuote, if_pos h]

/-- A text between quotes is one string, and its value is the text. -/
theorem run_quoted (hne : text ≠ []) (h : ∀ c ∈ text, quotable c = true) :
    run .idle (quoted text) = some (.idle, [.string text]) :=
  run_literal hne fun c hc => escapes_escapeQuote (h c hc)

/-- A character that no string may hold stops the automaton. -/
theorem run_flatMap_escapeQuote_eq_none {c : Char} (hc : c ∈ text) (hbad : quotable c = false)
    (acc : List Char) : run (.string acc) (text.flatMap escapeQuote) = none := by
  induction text generalizing acc with
  | nil => cases hc
  | cons d cs ih =>
    rw [List.flatMap_cons]
    cases hd : quotable d with
    | false =>
      refine run_append_eq_none ?_ _
      rw [run_escapeQuote, hd]
      rfl
    | true =>
      have hcs : c ∈ cs := by
        cases List.mem_cons.mp hc with
        | inl heq => rw [heq, hd] at hbad; cases hbad
        | inr hcs => exact hcs
      rw [run_append ((escapes_escapeQuote hd).read acc), ih hcs]
      rfl

/-- A text with a character that no string may hold cannot be read between quotes. -/
theorem run_quoted_eq_none {c : Char} (hc : c ∈ text) (hbad : quotable c = false) :
    run .idle (quoted text) = none := by
  have hquote : run .idle ['"'] = some (.opened, []) := rfl
  have hopened : run .opened (text.flatMap escapeQuote) = none := by
    cases text with
    | nil => cases hc
    | cons d cs =>
      obtain ⟨x, rest, hescape, hx⟩ := escapeQuote_head d
      have hnone := run_flatMap_escapeQuote_eq_none hc hbad []
      rw [List.flatMap_cons, hescape, List.cons_append] at hnone ⊢
      rw [run_opened hx, hnone]
  change run .idle (['"'] ++ (text.flatMap escapeQuote ++ ['"'])) = none
  rw [run_append hquote, run_append_eq_none hopened]
  rfl

end Graphql
