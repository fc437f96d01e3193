import Mathlib
import N8n.Library.Text

/-! # `$fromAI` calls

`packages/workflow/src/FromAIParseUtils.ts`: `extractFromAICalls` looks for the
starts of calls by a regular expression, scans every call to its closing
parenthesis and hands the text between to `parseArguments`.

The expression goes on directly behind the start of a call, not behind its end,
and `parseArguments` removes backslashes twice, once as it splits the arguments
and once as it strips their quotes.
-/

namespace N8n.FromAI

open Text

structure FromAIArgument (DefaultValue : Type) where
  key : List Char
  description : Option (List Char)
  type : List Char
  defaultValue : Option DefaultValue
deriving DecidableEq

/-- The white space that `\s` matches and `trim` removes. -/
def isSpace (char : Char) : Bool :=
  char ∈ ['\t', '\n', '\x0b', '\x0c', '\r', ' ', '\u00a0', '\u1680', '\u2000', '\u2001', '\u2002', '\u2003',
    '\u2004', '\u2005', '\u2006', '\u2007', '\u2008', '\u2009', '\u200a', '\u2028', '\u2029', '\u202f',
    '\u205f', '\u3000', '\ufeff']

def trim (text : List Char) : List Char := (text.dropWhile isSpace).rdropWhile isSpace

def backtick : Char := Char.ofNat 96

def quoteChars : List Char := ['"', '\'', backtick]

/-- The state of the loop over the characters of the arguments. -/
structure ArgumentScan where
  args : List (List Char) := []
  currentArg : List Char := []
  /-- The quote the scan is in, if it is in quotes. -/
  quoteChar : Option Char := none
  escapeNext : Bool := false
deriving DecidableEq

def ArgumentScan.step (scan : ArgumentScan) (char : Char) : ArgumentScan :=
  if scan.escapeNext then
    { scan with currentArg := scan.currentArg ++ [char], escapeNext := false }
  else if char = '\\' then { scan with escapeNext := true }
  else if char ∈ quoteChars then
    match scan.quoteChar with
    | none => { scan with quoteChar := some char, currentArg := scan.currentArg ++ [char] }
    | some quote =>
      if char = quote then { scan with quoteChar := none, currentArg := scan.currentArg ++ [char] }
      else { scan with currentArg := scan.currentArg ++ [char] }
  else if char = ',' ∧ scan.quoteChar = none then
    { scan with args := scan.args ++ [trim scan.currentArg], currentArg := [] }
  else { scan with currentArg := scan.currentArg ++ [char] }

/-- Replaces every backslash that stands before the character together with it by the character. -/
def unescapeChar (escaped : Char) : List Char → List Char
  | [] => []
  | [char] => [char]
  | first :: second :: rest =>
    if first = '\\' ∧ second = escaped then escaped :: unescapeChar escaped rest
    else first :: unescapeChar escaped (second :: rest)

/-- Remove surrounding quotes if present. -/
def cleanArg (arg : List Char) : List Char :=
  let trimmed := trim arg
  if ∃ quote ∈ quoteChars, trimmed.head? = some quote ∧ trimmed.getLast? = some quote then
    unescapeChar '\\' (unescapeChar '"' (unescapeChar backtick (unescapeChar '\''
      (trimmed.drop 1).dropLast)))
  else trimmed

def argumentTypes : List (List Char) :=
  ["string".toList, "number".toList, "boolean".toList, "json".toList]

section

variable {DefaultValue : Type} (convert : List Char → DefaultValue)

/-- `convert` stands for the conversion of a text to a truth value, a number or a JSON value. -/
def parseDefaultValue (value : Option (List Char)) : Option DefaultValue :=
  match value with
  | none => none
  | some [] => none
  | some (first :: rest) => some (convert (first :: rest))

/-- `value || fallback` for texts. -/
def orElse (value : Option (List Char)) (fallback : List Char) : List Char :=
  match value with
  | none => fallback
  | some [] => fallback
  | some (first :: rest) => first :: rest

def parseArguments (argsString : List Char) : Except (List Char) (FromAIArgument DefaultValue) :=
  let scan := argsString.foldl ArgumentScan.step {}
  let args := if scan.currentArg = [] then scan.args else scan.args ++ [trim scan.currentArg]
  let cleanArgs := args.map cleanArg
  let type := orElse cleanArgs[2]? "string".toList
  if type.map Char.toLower ∈ argumentTypes then
    .ok {
      key := orElse cleanArgs[0]? []
      description := cleanArgs[1]?
      type := cleanArgs[2]?.getD "string".toList
      defaultValue := parseDefaultValue convert cleanArgs[3]? }
  else .error ("Invalid type: ".toList ++ type)

/-- `/\$fromAI\s*\(\s*/i` at the start of a text: the length of the match. -/
def callStart (text : List Char) : Option Nat :=
  if (text.take 7).map Char.toLower = "$fromai".toList then
    match (text.drop 7).dropWhile isSpace with
    | [] => none
    | first :: arguments =>
      if first = '(' then some (text.length - (arguments.dropWhile isSpace).length) else none
  else none

/-- The loop over the characters of a call, with the quote it is in, the number of open parentheses
and the arguments read so far: the arguments and the parentheses still open at its end. -/
def scanCall : Option Char → Nat → List Char → List Char → List Char × Nat
  | _, 0, argsString, _ => (argsString, 0)
  | _, parenthesesCount, argsString, [] => (argsString, parenthesesCount)
  | some quote, parenthesesCount + 1, argsString, [char] =>
    scanCall (if char = quote then none else some quote) (parenthesesCount + 1) (argsString ++ [char]) []
  | some quote, parenthesesCount + 1, argsString, char :: next :: rest =>
    if char = '\\' then scanCall (some quote) (parenthesesCount + 1) (argsString ++ [char, next]) rest
    else scanCall (if char = quote then none else some quote) (parenthesesCount + 1) (argsString ++ [char])
      (next :: rest)
  | none, parenthesesCount + 1, argsString, char :: rest =>
    if char ∈ quoteChars then scanCall (some char) (parenthesesCount + 1) (argsString ++ [char]) rest
    else if char = '(' then scanCall none (parenthesesCount + 2) (argsString ++ [char]) rest
    else if char = ')' then
      scanCall none parenthesesCount (if parenthesesCount > 0 then argsString ++ [char] else argsString) rest
    else scanCall none (parenthesesCount + 1) (argsString ++ [char]) rest

theorem callStart_pos {text : List Char} {length : Nat} (starts : callStart text = some length) :
    0 < length ∧ length ≤ text.length := by
  rw [callStart] at starts
  split at starts
  · split at starts
    · cases starts
    · rename_i isName first arguments found
      split at starts
      · cases starts
        have atMost : arguments.length + 1 ≤ (text.drop 7).length := by
          have shorter := (@List.dropWhile_suffix _ (text.drop 7) isSpace).length_le
          rw [found, List.length_cons] at shorter
          exact shorter
        have spaces := (@List.dropWhile_suffix _ arguments isSpace).length_le
        rw [List.length_drop] at atMost
        omega
      · cases starts
  · cases starts

/-- The loop over the matches of the pattern, from a place in the text on. -/
def extractFrom (str : List Char) : Except (List Char) (List (FromAIArgument DefaultValue)) :=
  match found : exec callStart str with
  | none => .ok []
  | some (index, length) =>
    let fromStart := str.drop (index + length)
    match scanCall none 1 [] fromStart with
    | (argsString, 0) =>
      match parseArguments convert argsString with
      | .error error => .error ("Failed to parse $fromAI arguments: ".toList ++ argsString ++
          ": Error: ".toList ++ error)
      | .ok parsedArgs =>
        match extractFrom fromStart with
        | .error error => .error error
        | .ok args => .ok (parsedArgs :: args)
    | (_, _ + 1) =>
      .error ("Unbalanced parentheses while parsing $fromAI call: ".toList ++ fromStart)
termination_by str.length
decreasing_by
  have within := (callStart_pos (exec_eq_some found).1).1
  have bound := (callStart_pos (exec_eq_some found).1).2
  rw [List.length_drop] at bound
  simp only [List.length_drop]
  omega

def extractFromAICalls (str : List Char) : Except (List Char) (List (FromAIArgument DefaultValue)) :=
  extractFrom convert str

end

/-! ## Calls as they are written -/

inductive Quote where
  | double
  | single
  | backtick
deriving DecidableEq, Repr

def Quote.char : Quote → Char
  | .double => '"'
  | .single => '\''
  | .backtick => FromAI.backtick

variable (quote : Quote)

theorem Quote.char_mem : quote.char ∈ quoteChars := by
  cases quote <;> decide

theorem Quote.char_ne_backslash : quote.char ≠ '\\' := by
  cases quote <;> decide

theorem Quote.char_not_space : isSpace quote.char = false := by
  cases quote <;> decide

inductive FromAIArgumentType where
  | string
  | number
  | boolean
  | json
deriving DecidableEq, Repr

def FromAIArgumentType.value : FromAIArgumentType → List Char
  | .string => "string".toList
  | .number => "number".toList
  | .boolean => "boolean".toList
  | .json => "json".toList

/-- Every backslash and every quote character of the given kind gets a backslash in front. -/
def escape (quote : Quote) : List Char → List Char
  | [] => []
  | char :: rest =>
    if char = '\\' ∨ char = quote.char then '\\' :: char :: escape quote rest
    else char :: escape quote rest

def quoted (quote : Quote) (text : List Char) : List Char :=
  quote.char :: (escape quote text ++ [quote.char])

/-- A `$fromAI` call, with the kind of quotes of each of its arguments. -/
structure Call where
  key : List Char
  keyQuote : Quote
  description : List Char
  descriptionQuote : Quote
  type : FromAIArgumentType
  typeQuote : Quote
deriving DecidableEq

namespace Call

/-- What stands between the parentheses. -/
def arguments (call : Call) : List Char :=
  quoted call.keyQuote call.key ++ (',' :: ' ' :: (quoted call.descriptionQuote call.description ++
    (',' :: ' ' :: quoted call.typeQuote call.type.value)))

def write (call : Call) : List Char := "$fromAI(".toList ++ (call.arguments ++ [')'])

theorem write_eq (call : Call) : call.write = "$fromAI(".toList ++ (call.arguments ++ [')']) := rfl

def record (DefaultValue : Type) (call : Call) : FromAIArgument DefaultValue where
  key := call.key
  description := some call.description
  type := call.type.value
  defaultValue := none

end Call

/-- Every call after the text in front of it, and the text behind the last call. -/
def writeCalls : List (List Char × Call) → List Char → List Char
  | [], last => last
  | (before, call) :: rest, last => before ++ (call.write ++ writeCalls rest last)

/-! ## Scanning a call -/

attribute [local simp] scanCall

theorem scanCall_close (parenthesesCount : Nat) (argsString rest : List Char) :
    scanCall (some quote.char) (parenthesesCount + 1) argsString (quote.char :: rest) =
      scanCall none (parenthesesCount + 1) (argsString ++ [quote.char]) rest := by
  cases rest with
  | nil => simp
  | cons next rest => rw [scanCall, if_neg quote.char_ne_backslash, if_pos rfl]

theorem scanCall_plain {quote : Quote} {char : Char} (notEscape : char ≠ '\\') (notQuote : char ≠ quote.char)
    (parenthesesCount : Nat) (argsString : List Char) (next : Char) (rest : List Char) :
    scanCall (some quote.char) (parenthesesCount + 1) argsString (char :: next :: rest) =
      scanCall (some quote.char) (parenthesesCount + 1) (argsString ++ [char]) (next :: rest) := by
  rw [scanCall, if_neg notEscape, if_neg notQuote]

variable (text : List Char)

/-- In quotes nothing but the quote itself ends the argument, whatever the text is. -/
theorem scanCall_escape (parenthesesCount : Nat)
    (argsString rest : List Char) :
    scanCall (some quote.char) (parenthesesCount + 1) argsString (escape quote text ++ quote.char :: rest) =
      scanCall none (parenthesesCount + 1) (argsString ++ (escape quote text ++ [quote.char])) rest := by
  induction text generalizing argsString with
  | nil => exact scanCall_close quote parenthesesCount argsString rest
  | cons char text ih =>
    rw [escape]
    split
    · rw [List.cons_append, List.cons_append, scanCall, if_pos rfl, ih]
      simp only [List.append_assoc, List.cons_append, List.nil_append]
    · rename_i plain
      rw [not_or] at plain
      obtain ⟨next, later, isLater⟩ : ∃ next later, escape quote text ++ quote.char :: rest = next :: later :=
        List.exists_cons_of_ne_nil (List.append_ne_nil_of_right_ne_nil _ (List.cons_ne_nil _ _))
      rw [List.cons_append, isLater, scanCall_plain plain.1 plain.2, ← isLater, ih]
      simp only [List.append_assoc, List.cons_append, List.nil_append]

theorem scanCall_quoted (parenthesesCount : Nat)
    (argsString rest : List Char) :
    scanCall none (parenthesesCount + 1) argsString (quoted quote text ++ rest) =
      scanCall none (parenthesesCount + 1) (argsString ++ quoted quote text) rest := by
  rw [quoted, List.cons_append, scanCall, if_pos quote.char_mem, List.append_assoc, List.singleton_append,
    scanCall_escape]
  simp only [List.append_assoc, List.cons_append, List.nil_append]

theorem scanCall_separator (parenthesesCount : Nat) (argsString rest : List Char) :
    scanCall none (parenthesesCount + 1) argsString (',' :: ' ' :: rest) =
      scanCall none (parenthesesCount + 1) (argsString ++ [',', ' ']) rest := by
  rw [scanCall, if_neg (by decide), if_neg (by decide), if_neg (by decide), scanCall, if_neg (by decide),
    if_neg (by decide), if_neg (by decide), List.append_assoc, List.singleton_append]

/-- The scan of a call stops at its own closing parenthesis. -/
theorem scanCall_arguments (call : Call) (rest : List Char) :
    scanCall none 1 [] (call.arguments ++ ')' :: rest) = (call.arguments, 0) := by
  simp only [Call.arguments, List.append_assoc, List.cons_append]
  rw [scanCall_quoted, scanCall_separator, scanCall_quoted, scanCall_separator, scanCall_quoted, scanCall,
    if_neg (by decide), if_neg (by decide), if_pos rfl]
  simp

/-! ## Parsing the arguments -/

/-- The first removal of backslashes: what was escaped stands in the argument as it was. -/
theorem foldl_step_escape (args : List (List Char))
    (currentArg : List Char) :
    (escape quote text).foldl ArgumentScan.step ⟨args, currentArg, some quote.char, false⟩ =
      ⟨args, currentArg ++ text, some quote.char, false⟩ := by
  induction text generalizing currentArg with
  | nil => simp [escape]
  | cons char text ih =>
    rw [escape]
    split
    · simp only [List.foldl_cons, ArgumentScan.step, Bool.false_eq_true, if_false, if_true]
      rw [ih]
      simp
    · rename_i plain
      rw [not_or] at plain
      have step : ArgumentScan.step ⟨args, currentArg, some quote.char, false⟩ char =
          ⟨args, currentArg ++ [char], some quote.char, false⟩ := by
        by_cases isQuote : char ∈ quoteChars
        · simp [ArgumentScan.step, plain.1, plain.2, isQuote]
        · simp [ArgumentScan.step, plain.1, isQuote]
      rw [List.foldl_cons, step, ih]
      simp

theorem foldl_step_quoted (args : List (List Char))
    (currentArg : List Char) :
    (quoted quote text).foldl ArgumentScan.step ⟨args, currentArg, none, false⟩ =
      ⟨args, currentArg ++ (quote.char :: (text ++ [quote.char])), none, false⟩ := by
  have opens : ArgumentScan.step ⟨args, currentArg, none, false⟩ quote.char =
      ⟨args, currentArg ++ [quote.char], some quote.char, false⟩ := by
    simp [ArgumentScan.step, quote.char_ne_backslash, quote.char_mem]
  have closes : ∀ current, ArgumentScan.step ⟨args, current, some quote.char, false⟩ quote.char =
      ⟨args, current ++ [quote.char], none, false⟩ := by
    intro current
    simp [ArgumentScan.step, quote.char_ne_backslash, quote.char_mem]
  rw [quoted, List.foldl_cons, opens, List.foldl_append, foldl_step_escape, List.foldl_cons, List.foldl_nil,
    closes]
  simp

theorem trim_quoted (spaces text : List Char) (areSpaces : ∀ char ∈ spaces, isSpace char = true) :
    trim (spaces ++ quote.char :: (text ++ [quote.char])) = quote.char :: (text ++ [quote.char]) := by
  have front : (spaces ++ quote.char :: (text ++ [quote.char])).dropWhile isSpace =
      quote.char :: (text ++ [quote.char]) := by
    rw [List.dropWhile_append_of_pos areSpaces, List.dropWhile_cons_of_neg]
    rw [quote.char_not_space]
    exact Bool.false_ne_true
  have back : quote.char :: (text ++ [quote.char]) = (quote.char :: text) ++ [quote.char] := rfl
  rw [trim, front, back, List.rdropWhile_concat_neg _ _ _ (by rw [quote.char_not_space]; exact Bool.false_ne_true)]

/-- The second removal of backslashes. -/
def unescapeTwice (text : List Char) : List Char :=
  unescapeChar '\\' (unescapeChar '"' (unescapeChar backtick (unescapeChar '\'' text)))

theorem cleanArg_quoted :
    cleanArg (quote.char :: (text ++ [quote.char])) = unescapeTwice text := by
  have trimmed : trim (quote.char :: (text ++ [quote.char])) = quote.char :: (text ++ [quote.char]) :=
    trim_quoted quote [] text (by simp)
  have last : (quote.char :: (text ++ [quote.char])).getLast? = some quote.char := by
    rw [← List.cons_append, List.getLast?_concat]
  rw [cleanArg, trimmed, if_pos ⟨quote.char, quote.char_mem, rfl, last⟩]
  simp [unescapeTwice]

theorem unescapeTwice_type (type : FromAIArgumentType) : unescapeTwice type.value = type.value := by
  cases type <;> decide

theorem type_valid (type : FromAIArgumentType) : type.value.map Char.toLower ∈ argumentTypes := by
  cases type <;> decide

theorem orElse_some_nil : orElse (some text) [] = text := by
  cases text <;> rfl

theorem orElse_type (type : FromAIArgumentType) : orElse (some type.value) "string".toList = type.value := by
  cases type <;> rfl

def Call.parsed (DefaultValue : Type) (call : Call) : FromAIArgument DefaultValue where
  key := unescapeTwice call.key
  description := some (unescapeTwice call.description)
  type := call.type.value
  defaultValue := none

theorem parseArguments_arguments {DefaultValue : Type} (convert : List Char → DefaultValue) (call : Call) :
    parseArguments convert call.arguments = .ok (call.parsed DefaultValue) := by
  have separator : ∀ args currentArg, ArgumentScan.step (ArgumentScan.step ⟨args, currentArg, none, false⟩ ',') ' ' =
      ⟨args ++ [trim currentArg], [' '], none, false⟩ := by
    intro args currentArg
    simp [ArgumentScan.step, show ',' ∉ quoteChars by decide, show ' ' ∉ quoteChars by decide]
  have trimmed : ∀ (quote : Quote) text, trim ([] ++ quote.char :: (text ++ [quote.char])) =
      quote.char :: (text ++ [quote.char]) := fun quote text => trim_quoted quote [] text (by simp)
  have trimmedSpace : ∀ (quote : Quote) text, trim ([' '] ++ quote.char :: (text ++ [quote.char])) =
      quote.char :: (text ++ [quote.char]) :=
        fun quote text => trim_quoted quote [' '] text (List.forall_mem_singleton.mpr rfl)
  have scanned : call.arguments.foldl ArgumentScan.step {} =
      ⟨[call.keyQuote.char :: (call.key ++ [call.keyQuote.char]),
        call.descriptionQuote.char :: (call.description ++ [call.descriptionQuote.char])],
        [' '] ++ call.typeQuote.char :: (call.type.value ++ [call.typeQuote.char]), none, false⟩ := by
    rw [Call.arguments, List.foldl_append, foldl_step_quoted, List.foldl_cons, List.foldl_cons, separator,
      List.foldl_append, foldl_step_quoted, List.foldl_cons, List.foldl_cons, separator, foldl_step_quoted,
      trimmed, trimmedSpace]
    rfl
  rw [parseArguments, scanned]
  dsimp only
  rw [if_neg (List.append_ne_nil_of_left_ne_nil (List.cons_ne_nil _ _) _), trimmedSpace]
  simp only [List.cons_append, List.nil_append, List.map_cons, List.map_nil, cleanArg_quoted,
    List.getElem?_cons_succ, List.getElem?_cons_zero, unescapeTwice_type, orElse_type, orElse_some_nil,
    if_pos (type_valid call.type)]
  rfl

/-! ## When removing backslashes a second time changes nothing -/

theorem unescapeChar_cases (escaped : Char) (text : List Char) :
    unescapeChar escaped text = text ∧ ¬ ['\\', escaped] <:+: text ∨
      (unescapeChar escaped text).length < text.length ∧ ['\\', escaped] <:+: text := by
  induction text using unescapeChar.induct escaped with
  | case1 => exact .inl ⟨rfl, by simp⟩
  | case2 char => exact .inl ⟨rfl, fun inside => by simpa using inside.length_le⟩
  | case3 first second rest pair ih =>
    obtain ⟨rfl, rfl⟩ := pair
    refine .inr ⟨?_, ⟨[], rest, rfl⟩⟩
    rw [unescapeChar, if_pos ⟨rfl, rfl⟩]
    cases ih with
    | inl same => rw [same.1]; simp
    | inr shorter =>
      simp only [List.length_cons]
      omega
  | case4 first second rest noPair ih =>
    rw [unescapeChar, if_neg noPair]
    cases ih with
    | inl same =>
      refine .inl ⟨by rw [same.1], fun inside => ?_⟩
      cases List.infix_cons_iff.mp inside with
      | inl isPrefix =>
        simp only [List.cons_prefix_cons] at isPrefix
        exact noPair ⟨isPrefix.1.symm, isPrefix.2.1.symm⟩
      | inr inRest => exact same.2 inRest
    | inr shorter =>
      refine .inr ⟨?_, shorter.2.trans (List.suffix_cons first (second :: rest)).isInfix⟩
      simp only [List.length_cons] at shorter ⊢
      omega

theorem unescapeChar_length_le (escaped : Char) (text : List Char) :
    (unescapeChar escaped text).length ≤ text.length := by
  cases unescapeChar_cases escaped text with
  | inl same => rw [same.1]
  | inr shorter => exact Nat.le_of_lt shorter.1

/-- No backslash is directly followed by a backslash or a quote character. -/
def NoEscapes (text : List Char) : Prop := ∀ char ∈ '\\' :: quoteChars, ¬ ['\\', char] <:+: text

theorem unescapeTwice_eq_iff : unescapeTwice text = text ↔ NoEscapes text := by
  constructor
  · intro same char member inside
    -- the first pair found makes the text shorter for good
    have shorter : ∀ escaped, ['\\', escaped] <:+: text → unescapeChar escaped text ≠ text := by
      intro escaped inside equal
      cases unescapeChar_cases escaped text with
      | inl unchanged => exact unchanged.2 inside
      | inr shorter => rw [equal] at shorter; omega
    have lengths := congrArg List.length same
    rw [unescapeTwice] at lengths
    have afterSingle := unescapeChar_length_le '\'' text
    have afterBacktick := unescapeChar_length_le backtick (unescapeChar '\'' text)
    have afterDouble := unescapeChar_length_le '"' (unescapeChar backtick (unescapeChar '\'' text))
    have afterBackslash :=
      unescapeChar_length_le '\\' (unescapeChar '"' (unescapeChar backtick (unescapeChar '\'' text)))
    have sameSingle : unescapeChar '\'' text = text := by
      cases unescapeChar_cases '\'' text with
      | inl unchanged => exact unchanged.1
      | inr less => omega
    rw [sameSingle] at lengths afterBacktick afterDouble afterBackslash
    have sameBacktick : unescapeChar backtick text = text := by
      cases unescapeChar_cases backtick text with
      | inl unchanged => exact unchanged.1
      | inr less => omega
    rw [sameBacktick] at lengths afterDouble afterBackslash
    have sameDouble : unescapeChar '"' text = text := by
      cases unescapeChar_cases '"' text with
      | inl unchanged => exact unchanged.1
      | inr less => omega
    rw [sameDouble] at lengths
    have sameBackslash : unescapeChar '\\' text = text := by
      cases unescapeChar_cases '\\' text with
      | inl unchanged => exact unchanged.1
      | inr less => omega
    simp only [quoteChars, List.mem_cons, List.not_mem_nil, or_false] at member
    rcases member with rfl | rfl | rfl | rfl
    · exact shorter _ inside sameBackslash
    · exact shorter _ inside sameDouble
    · exact shorter _ inside sameSingle
    · exact shorter _ inside sameBacktick
  · intro noEscapes
    have same : ∀ char ∈ '\\' :: quoteChars, unescapeChar char text = text := by
      intro char member
      cases unescapeChar_cases char text with
      | inl unchanged => exact unchanged.1
      | inr shorter => exact absurd shorter.2 (noEscapes char member)
    rw [unescapeTwice, same '\'' (by decide), same backtick (by decide), same '"' (by decide),
      same '\\' (by decide)]

/-! ## Where calls start -/

/-- What the pattern needs to see of a call: the name in any case, spaces and the parenthesis. -/
structure IsCallStart (start : List Char) : Prop where
  shape : ∃ name spaces, start = name ++ (spaces ++ ['(']) ∧ name.map Char.toLower = "$fromai".toList ∧
    ∀ char ∈ spaces, isSpace char = true

theorem eq_dollar_of_toLower {char : Char} (lower : char.toLower = '$') : char = '$' := by
  rw [Char.toLower] at lower
  split at lower
  · rename_i upper
    have values := congrArg Char.val lower
    simp only [Char.reduceVal] at values
    have sum : char.val + 32 = 36 := values
    grind
  · exact lower

variable {text : List Char}

theorem callStart_isSome_iff :
    (callStart text).isSome = true ↔ ∃ start, IsCallStart start ∧ start <+: text := by
  constructor
  · intro starts
    rw [callStart] at starts
    split at starts
    · rename_i isName
      split at starts
      · cases starts
      · rename_i first arguments found
        split at starts
        · rename_i parenthesis
          refine ⟨text.take 7 ++ ((text.drop 7).takeWhile isSpace ++ ['(']),
            ⟨_, _, rfl, isName, fun char member => List.mem_takeWhile_imp member⟩, arguments, ?_⟩
          rw [List.append_assoc, List.append_assoc, List.singleton_append, ← parenthesis, ← found,
            List.takeWhile_append_dropWhile, List.take_append_drop]
        · cases starts
    · cases starts
  · rintro ⟨start, ⟨name, spaces, rfl, isName, areSpaces⟩, rest, rfl⟩
    have nameLength : name.length = 7 := by
      have lengths := congrArg List.length isName
      rw [List.length_map] at lengths
      exact lengths
    have split : name ++ (spaces ++ ['(']) ++ rest = name ++ (spaces ++ '(' :: rest) := by simp
    have notSpace : ¬ isSpace '(' = true := by decide
    rw [split, callStart, ← nameLength, List.take_left, if_pos isName, List.drop_left,
      List.dropWhile_append_of_pos areSpaces, List.dropWhile_cons_of_neg notSpace]
    dsimp only
    rw [if_pos rfl]
    rfl

namespace IsCallStart

variable {start : List Char}

theorem plain (isStart : IsCallStart start) {char : Char} (member : char ∈ start) :
    char ∉ '\\' :: quoteChars := by
  obtain ⟨name, spaces, rfl, isName, areSpaces⟩ := isStart.shape
  intro special
  have lower : char.toLower = char ∧ char ∉ "$fromai".toList ∧ isSpace char = false ∧ char ≠ '(' := by
    simp only [quoteChars, List.mem_cons, List.not_mem_nil, or_false] at special
    rcases special with rfl | rfl | rfl | rfl <;> decide
  obtain ⟨unchanged, notInName, notSpace, notParenthesis⟩ := lower
  cases List.mem_append.mp member with
  | inl inName =>
    have lowered : char.toLower ∈ name.map Char.toLower := List.mem_map_of_mem inName
    rw [isName, unchanged] at lowered
    exact notInName lowered
  | inr inRest =>
    cases List.mem_append.mp inRest with
    | inl inSpaces => rw [areSpaces char inSpaces] at notSpace; cases notSpace
    | inr isParenthesis => exact notParenthesis (List.mem_singleton.mp isParenthesis)

theorem dollar (isStart : IsCallStart start) : ∃ rest, start = '$' :: rest ∧ '$' ∉ rest := by
  obtain ⟨name, spaces, rfl, isName, areSpaces⟩ := isStart.shape
  cases name with
  | nil => cases isName
  | cons first name =>
    rw [List.map_cons] at isName
    obtain ⟨firstLower, restLower⟩ := List.cons.inj (show _ = '$' :: "fromai".toList from isName)
    refine ⟨name ++ (spaces ++ ['(']), by rw [eq_dollar_of_toLower firstLower, List.cons_append], ?_⟩
    intro member
    cases List.mem_append.mp member with
    | inl inName =>
      have lowered : '$'.toLower ∈ name.map Char.toLower := List.mem_map_of_mem inName
      rw [restLower] at lowered
      exact absurd lowered (by decide)
    | inr inRest =>
      cases List.mem_append.mp inRest with
      | inl inSpaces => exact absurd (areSpaces _ inSpaces) (by decide)
      | inr isParenthesis => exact absurd (List.mem_singleton.mp isParenthesis) (by decide)

end IsCallStart

theorem callStart_of_ne {first : Char} (notDollar : first ≠ '$') (rest : List Char) :
    callStart (first :: rest) = none := by
  by_contra succeeds
  obtain ⟨start, isStart, isPrefix⟩ := callStart_isSome_iff.mp (Option.isSome_iff_ne_none.mpr succeeds)
  obtain ⟨later, rfl, _⟩ := isStart.dollar
  rw [List.cons_prefix_cons] at isPrefix
  exact notDollar isPrefix.1.symm

theorem matchesWithin_of_no_dollar (noDollar : '$' ∉ text) (after : List Char) :
    matchesWithin callStart text after = 0 := by
  induction text with
  | nil => rfl
  | cons first rest ih =>
    rw [List.mem_cons, not_or] at noDollar
    rw [matchesWithin, List.cons_append, callStart_of_ne (Ne.symm noDollar.1), ih noDollar.2]
    rfl

/-- A start of a call does not reach from a text into a call behind it. -/
theorem matchesWithin_before_call (text more : List Char) :
    matchesWithin callStart text ('$' :: more) = matchesWithin callStart text [] := by
  induction text with
  | nil => rfl
  | cons first rest ih =>
    rw [matchesWithin, matchesWithin, ih, List.append_nil]
    congr 2
    rw [eq_iff_iff, callStart_isSome_iff, callStart_isSome_iff]
    constructor
    · rintro ⟨start, isStart, isPrefix⟩
      refine ⟨start, isStart, ?_⟩
      have shorter : start.length ≤ (first :: rest).length := by
        by_contra longer
        -- the dollar sign of the call would be inside the start
        obtain ⟨later, rfl, noDollar⟩ := isStart.dollar
        obtain ⟨tail, whole⟩ := isPrefix
        have restPrefix : rest ++ ['$'] <+: later := by
          refine @List.prefix_of_prefix_length_le _ _ _ (rest ++ '$' :: more) ⟨more, by simp⟩ ⟨tail, ?_⟩ ?_
          · exact (List.cons.inj whole).2
          · simp only [List.length_cons] at longer
            simp only [List.length_append, List.length_singleton]
            omega
        exact noDollar (restPrefix.subset (by simp))
      exact List.prefix_of_prefix_length_le isPrefix (List.prefix_append _ _) shorter
    · rintro ⟨start, isStart, isPrefix⟩
      exact ⟨start, isStart, isPrefix.trans (List.prefix_append _ _)⟩

theorem prefix_escape_iff {quote : Quote} {start : List Char}
    (plain : ∀ char ∈ start, char ∉ '\\' :: quoteChars) (text more : List Char) :
    start <+: escape quote text ++ quote.char :: more ↔ start <+: text := by
  induction start generalizing text with
  | nil => simp
  | cons first start ih =>
    have firstPlain := plain first List.mem_cons_self
    rw [List.mem_cons, not_or] at firstPlain
    have notQuote : first ≠ quote.char := fun same => firstPlain.2 (same ▸ quote.char_mem)
    have plainRest : ∀ char ∈ start, char ∉ '\\' :: quoteChars :=
      fun char member => plain char (List.mem_cons_of_mem _ member)
    cases text with
    | nil => simp [escape, notQuote]
    | cons char text =>
      rw [escape]
      split
      · rename_i special
        have different : first ≠ char := by
          rintro rfl
          cases special with
          | inl isBackslash => exact firstPlain.1 isBackslash
          | inr isQuote => exact notQuote isQuote
        simp [firstPlain.1, different]
      · rw [List.cons_append, List.cons_prefix_cons, List.cons_prefix_cons, ih plainRest]

/-- Quoting hides no start of a call and makes none. -/
theorem matchesWithin_escape (text more : List Char) :
    matchesWithin callStart (escape quote text) (quote.char :: more) = matchesWithin callStart text [] := by
  induction text with
  | nil => rfl
  | cons char text ih =>
    have sameHere : (callStart (escape quote (char :: text) ++ quote.char :: more)).isSome =
        (callStart (char :: text)).isSome := by
      rw [Bool.eq_iff_iff, callStart_isSome_iff, callStart_isSome_iff]
      refine exists_congr fun start => and_congr_right fun isStart => ?_
      exact prefix_escape_iff (fun _ => isStart.plain) (char :: text) more
    rw [escape] at sameHere ⊢
    split at sameHere
    · rename_i special
      have notDollar : char ≠ '$' := by
        rintro rfl
        cases special with
        | inl isBackslash => exact absurd isBackslash (by decide)
        | inr isQuote => exact absurd isQuote (by cases quote <;> decide)
      rw [if_pos special, matchesWithin, matchesWithin, matchesWithin, ih, List.cons_append,
        List.cons_append, callStart_of_ne (by decide), callStart_of_ne notDollar, List.cons_append,
        callStart_of_ne notDollar]
      simp
    · rename_i plain
      rw [if_neg plain, matchesWithin, matchesWithin, ih, sameHere, List.append_nil]

def callStarts (text : List Char) : Nat := matchesWithin callStart text []

theorem matchesWithin_quoted (text after : List Char) :
    matchesWithin callStart (quoted quote text) after = callStarts text := by
  have notDollar : quote.char ≠ '$' := by cases quote <;> decide
  have closing : matchesWithin callStart [quote.char] after = 0 :=
    matchesWithin_of_no_dollar (fun member => notDollar (List.mem_singleton.mp member).symm) after
  rw [quoted, matchesWithin, List.cons_append, callStart_of_ne notDollar, matchesWithin_append,
    List.singleton_append, matchesWithin_escape, closing]
  simp [callStarts]

theorem callStarts_type (type : FromAIArgumentType) : callStarts type.value = 0 :=
  matchesWithin_of_no_dollar (by cases type <;> decide) []

/-- Behind its start a call has as many further starts as its key and its description. -/
theorem matchesWithin_arguments (call : Call) (after : List Char) :
    matchesWithin callStart (call.arguments ++ [')']) after =
      callStarts call.key + callStarts call.description := by
  have separator : ∀ text after, matchesWithin callStart (',' :: ' ' :: text) after =
      matchesWithin callStart text after := by
    intro text after
    rw [matchesWithin, List.cons_append, callStart_of_ne (by decide), matchesWithin, List.cons_append,
      callStart_of_ne (by decide)]
    simp
  simp only [Call.arguments, List.append_assoc, List.cons_append]
  rw [matchesWithin_append, matchesWithin_quoted, separator, matchesWithin_append, matchesWithin_quoted,
    separator, matchesWithin_append, matchesWithin_quoted, callStarts_type,
    matchesWithin_of_no_dollar (by decide)]
  omega

theorem callStart_write (call : Call) (rest : List Char) :
    callStart ("$fromAI(".toList ++ (call.arguments ++ rest)) = some 8 := by
  have split : "$fromAI(".toList ++ (call.arguments ++ rest) =
      '$' :: 'f' :: 'r' :: 'o' :: 'm' :: 'A' :: 'I' :: '(' :: (call.arguments ++ rest) := rfl
  have noSpace : (call.arguments ++ rest).dropWhile isSpace = call.arguments ++ rest := by
    rw [Call.arguments, quoted, List.cons_append, List.cons_append, List.dropWhile_cons_of_neg]
    rw [call.keyQuote.char_not_space]
    exact Bool.false_ne_true
  have isName : (List.take 7 ('$' :: 'f' :: 'r' :: 'o' :: 'm' :: 'A' :: 'I' :: '(' ::
      (call.arguments ++ rest))).map Char.toLower = "$fromai".toList := by
    rw [show List.take 7 ('$' :: 'f' :: 'r' :: 'o' :: 'm' :: 'A' :: 'I' :: '(' :: (call.arguments ++ rest)) =
      ['$', 'f', 'r', 'o', 'm', 'A', 'I'] from rfl]
    decide
  rw [split, callStart, if_pos isName]
  have parenthesis : (List.drop 7 ('$' :: 'f' :: 'r' :: 'o' :: 'm' :: 'A' :: 'I' :: '(' ::
      (call.arguments ++ rest))).dropWhile isSpace = '(' :: (call.arguments ++ rest) :=
    List.dropWhile_cons_of_neg (by decide)
  rw [parenthesis]
  dsimp only
  rw [if_pos rfl, noSpace]
  simp only [List.length_cons, Option.some.injEq]
  omega

/-- A match begins with the only dollar sign in it. -/
theorem matchesWithin_of_callStart {length : Nat} (starts : callStart text = some length) :
    matchesWithin callStart (text.take length) (text.drop length) = 1 := by
  obtain ⟨positive, within⟩ := callStart_pos starts
  have whole : text.take length ++ text.drop length = text := List.take_append_drop length text
  rw [callStart] at starts
  split at starts
  · rename_i isName
    split at starts
    · cases starts
    · rename_i first arguments found
      split at starts
      · rename_i parenthesis
        have matchedIs : text.take length =
            text.take 7 ++ ((text.drop 7).takeWhile isSpace ++ ['(']) ++ arguments.takeWhile isSpace := by
          have parts : text = text.take 7 ++ ((text.drop 7).takeWhile isSpace ++ ['(']) ++
              arguments.takeWhile isSpace ++ arguments.dropWhile isSpace := by
            simp only [List.append_assoc, List.takeWhile_append_dropWhile]
            rw [List.singleton_append, ← parenthesis, ← found, List.takeWhile_append_dropWhile,
              List.take_append_drop]
          have lengthIs := Option.some.inj starts
          have lengths := congrArg List.length parts
          rw [List.length_append] at lengths
          have matchedLength : length = (text.take 7 ++ ((text.drop 7).takeWhile isSpace ++ ['(']) ++
              arguments.takeWhile isSpace).length := by omega
          generalize text.take 7 ++ ((text.drop 7).takeWhile isSpace ++ ['(']) ++
            arguments.takeWhile isSpace = matched at parts matchedLength
          rw [parts, matchedLength, List.take_left]
        have isStart : IsCallStart (text.take 7 ++ ((text.drop 7).takeWhile isSpace ++ ['('])) :=
          ⟨_, _, rfl, isName, fun char member => List.mem_takeWhile_imp member⟩
        obtain ⟨later, isLater, noDollar⟩ := isStart.dollar
        have here : (callStart text).isSome = true := by
          refine callStart_isSome_iff.mpr ⟨_, isStart, ?_⟩
          exact (List.prefix_append _ (arguments.takeWhile isSpace)).trans (matchedIs ▸ List.take_prefix length text)
        rw [matchedIs, isLater] at whole ⊢
        rw [List.cons_append, matchesWithin, ← List.cons_append, whole, if_pos here,
          matchesWithin_of_no_dollar]
        intro member
        cases List.mem_append.mp member with
        | inl inLater => exact noDollar inLater
        | inr inSpaces => exact absurd (List.mem_takeWhile_imp inSpaces) (by decide)
      · cases starts
  · cases starts

/-! ## The loop over the calls -/

section

variable {DefaultValue : Type} (convert : List Char → DefaultValue)

/-- What is recorded behind the start of a call, given what the loop records from there on. -/
def recordCall (fromStart : List Char) (later : Except (List Char) (List (FromAIArgument DefaultValue))) :
    Except (List Char) (List (FromAIArgument DefaultValue)) :=
  match scanCall none 1 [] fromStart with
  | (argsString, 0) =>
    match parseArguments convert argsString with
    | .error error => .error ("Failed to parse $fromAI arguments: ".toList ++ argsString ++
        ": Error: ".toList ++ error)
    | .ok parsedArgs =>
      match later with
      | .error error => .error error
      | .ok args => .ok (parsedArgs :: args)
  | (_, _ + 1) =>
    .error ("Unbalanced parentheses while parsing $fromAI call: ".toList ++ fromStart)

variable {str : List Char}

theorem extractFrom_of_none (noCall : exec callStart str = none) :
    extractFrom convert str = .ok [] := by
  rw [extractFrom]
  split
  · rfl
  · rename_i found
    rw [noCall] at found
    cases found

theorem extractFrom_of_some {index length : Nat} (found : exec callStart str = some (index, length)) :
    extractFrom convert str = recordCall convert (str.drop (index + length))
      (extractFrom convert (str.drop (index + length))) := by
  conv => lhs; rw [extractFrom]
  split
  · rename_i noCall
    rw [noCall] at found
    cases found
  · rename_i index' length' found'
    rw [found] at found'
    cases found'
    rfl

theorem extractFrom_append {before : List Char} (after : List Char)
    (noCall : matchesWithin callStart before after = 0) :
    extractFrom convert (before ++ after) = extractFrom convert after := by
  have shifted := exec_append noCall
  cases found : exec callStart after with
  | none =>
    rw [found, Option.map_none] at shifted
    rw [extractFrom_of_none convert shifted, extractFrom_of_none convert found]
  | some result =>
    obtain ⟨index, length⟩ := result
    rw [found, Option.map_some] at shifted
    rw [extractFrom_of_some convert shifted, extractFrom_of_some convert found, Nat.add_assoc,
      List.drop_length_add_append]

theorem recordCall_inv {fromStart : List Char}
    {later : Except (List Char) (List (FromAIArgument DefaultValue))} {args : List (FromAIArgument DefaultValue)}
    (returns : recordCall convert fromStart later = .ok args) :
    ∃ parsedArgs rest, later = .ok rest ∧ args = parsedArgs :: rest := by
  rw [recordCall] at returns
  split at returns
  · split at returns
    · cases returns
    · split at returns
      · cases returns
      · cases returns
        exact ⟨_, _, rfl, rfl⟩
  · cases returns

theorem length_of_extractFrom {args : List (FromAIArgument DefaultValue)}
    (returns : extractFrom convert str = .ok args) : args.length = callStarts str := by
  induction sized : str.length using Nat.strongRecOn generalizing str args with
  | ind size ih =>
    subst sized
    cases found : exec callStart str with
    | none =>
      rw [extractFrom_of_none convert found] at returns
      cases returns
      exact (matchesWithin_of_exec_none found).symm
    | some result =>
      obtain ⟨index, length⟩ := result
      rw [extractFrom_of_some convert found] at returns
      obtain ⟨parsedArgs, rest, laterReturns, rfl⟩ := recordCall_inv convert returns
      have starts := (exec_eq_some found).1
      obtain ⟨positive, within⟩ := callStart_pos starts
      rw [List.length_drop] at within
      have shorter : (str.drop (index + length)).length < str.length := by
        rw [List.length_drop]
        omega
      have further := ih _ shorter laterReturns rfl
      have atMatch := matchesWithin_of_callStart starts
      rw [List.drop_drop] at atMatch
      have pieces : callStarts str = matchesWithin callStart (str.take index) (str.drop index) +
          (matchesWithin callStart ((str.drop index).take length) (str.drop (index + length)) +
            callStarts (str.drop (index + length))) := by
        have parts : str = str.take index ++ ((str.drop index).take length ++ str.drop (index + length)) := by
          rw [← List.drop_drop, List.take_append_drop, List.take_append_drop]
        conv => lhs; rw [parts]
        rw [callStarts, matchesWithin_append, matchesWithin_append, List.append_nil, List.append_nil,
          ← List.drop_drop, List.take_append_drop]
        rfl
      rw [pieces, matchesWithin_of_exec found, atMatch, List.length_cons, further]
      omega

/-- The starts of calls in the written text, apart from those of the written calls. -/
def strayStarts (written : List Char × Call) : Nat :=
  callStarts written.1 + (callStarts written.2.key + callStarts written.2.description)

theorem matchesWithin_before_write (before : List Char) (call : Call) (rest : List Char) :
    matchesWithin callStart before (call.write ++ rest) = callStarts before := by
  have startsWithDollar : call.write ++ rest = '$' :: ("fromAI(".toList ++ (call.arguments ++ [')'] ++ rest)) := by
    rw [Call.write_eq, List.append_assoc]
    rfl
  rw [startsWithDollar]
  exact matchesWithin_before_call before _

theorem callStarts_writeCalls (calls : List (List Char × Call)) (last : List Char) :
    callStarts (writeCalls calls last) = calls.length + ((calls.map strayStarts).sum + callStarts last) := by
  induction calls with
  | nil => simp [writeCalls]
  | cons written rest ih =>
    obtain ⟨before, call⟩ := written
    have start : matchesWithin callStart "$fromAI(".toList (call.arguments ++ [')'] ++ writeCalls rest last) = 1 := by
      have here := callStart_write call ([')'] ++ writeCalls rest last)
      rw [show "$fromAI(".toList = '$' :: "fromAI(".toList from rfl] at here ⊢
      rw [matchesWithin, List.append_assoc, here, matchesWithin_of_no_dollar (by decide)]
      rfl
    have beforeCall := matchesWithin_before_write before call (writeCalls rest last)
    have theCall : callStarts (call.write ++ writeCalls rest last) =
        1 + (callStarts call.key + callStarts call.description + callStarts (writeCalls rest last)) := by
      rw [callStarts, Call.write_eq, List.append_assoc, matchesWithin_append, matchesWithin_append, List.append_nil,
        start, matchesWithin_arguments]
      rfl
    rw [writeCalls, callStarts, matchesWithin_append, List.append_nil, beforeCall, List.map_cons, List.sum_cons,
      List.length_cons, strayStarts]
    change callStarts before + callStarts (call.write ++ writeCalls rest last) = _
    rw [theCall, ih]
    dsimp only
    omega

theorem extractFrom_call (call : Call) (rest : List Char)
    (noKey : callStarts call.key = 0) (noDescription : callStarts call.description = 0) :
    extractFrom convert (call.write ++ rest) =
      match extractFrom convert rest with
      | .error error => .error error
      | .ok args => .ok (call.parsed DefaultValue :: args) := by
  have whole : call.write ++ rest = "$fromAI(".toList ++ (call.arguments ++ ([')'] ++ rest)) := by
    simp only [Call.write_eq, List.append_assoc]
  have found : exec callStart (call.write ++ rest) = some (0, 8) := by
    rw [whole]
    exact exec_of_match (callStart_write call _)
  have fromStart : (call.write ++ rest).drop (0 + 8) = call.arguments ++ ([')'] ++ rest) := by
    rw [whole]
    rfl
  have behind : extractFrom convert (call.arguments ++ ([')'] ++ rest)) = extractFrom convert rest := by
    rw [← List.append_assoc]
    refine extractFrom_append convert rest ?_
    rw [matchesWithin_arguments, noKey, noDescription]
  rw [extractFrom_of_some convert found, fromStart, behind, recordCall, List.singleton_append,
    scanCall_arguments]
  dsimp only
  rw [parseArguments_arguments]

theorem extractFrom_writeCalls {calls : List (List Char × Call)} {last : List Char}
    (noStrays : ∀ written ∈ calls, strayStarts written = 0) (noLast : callStarts last = 0) :
    extractFrom convert (writeCalls calls last) =
      .ok (calls.map fun written => written.2.parsed DefaultValue) := by
  induction calls with
  | nil =>
    have nothing := extractFrom_append convert [] noLast
    rw [List.append_nil] at nothing
    rw [writeCalls, nothing]
    exact extractFrom_of_none convert rfl
  | cons written rest ih =>
    obtain ⟨before, call⟩ := written
    have strays := noStrays (before, call) List.mem_cons_self
    simp only [strayStarts, Nat.add_eq_zero_iff] at strays
    obtain ⟨noBefore, noKey, noDescription⟩ := strays
    have beforeCall : matchesWithin callStart before (call.write ++ writeCalls rest last) = 0 :=
      (matchesWithin_before_write before call _).trans noBefore
    rw [writeCalls, extractFrom_append convert _ beforeCall, extractFrom_call convert call _ noKey noDescription,
      ih fun other member => noStrays other (List.mem_cons_of_mem _ member)]
    rfl

theorem parsed_eq_record_iff (call : Call) : call.parsed DefaultValue = call.record DefaultValue ↔
    NoEscapes call.key ∧ NoEscapes call.description := by
  rw [Call.parsed, Call.record, FromAIArgument.mk.injEq, Option.some.injEq, unescapeTwice_eq_iff,
    unescapeTwice_eq_iff]
  simp

/-- Written calls come back as exactly one record each, in order and with their key, description and
type, if and only if no call starts in the texts around them, in a key or in a description, and no key
and no description has a backslash directly before a backslash or a quote character. -/
theorem extractFromAICalls_writeCalls_iff (calls : List (List Char × Call)) (last : List Char) :
    extractFromAICalls convert (writeCalls calls last) =
        .ok (calls.map fun written => written.2.record DefaultValue) ↔
      (∀ written ∈ calls, callStarts written.1 = 0 ∧
        (callStarts written.2.key = 0 ∧ callStarts written.2.description = 0) ∧
          NoEscapes written.2.key ∧ NoEscapes written.2.description) ∧ callStarts last = 0 := by
  rw [extractFromAICalls]
  constructor
  · intro returns
    have counted := length_of_extractFrom convert returns
    rw [callStarts_writeCalls, List.length_map] at counted
    have noLast : callStarts last = 0 := by omega
    have noStrays : ∀ written ∈ calls, strayStarts written = 0 := by
      have noSum : (calls.map strayStarts).sum = 0 := by omega
      intro written member
      exact List.sum_eq_zero_iff_forall_eq_nat.mp noSum _ (List.mem_map_of_mem member)
    rw [extractFrom_writeCalls convert noStrays noLast] at returns
    have same := List.map_inj_left.mp (Except.ok.inj returns)
    refine ⟨fun written member => ?_, noLast⟩
    have strays := noStrays written member
    simp only [strayStarts, Nat.add_eq_zero_iff] at strays
    exact ⟨strays.1, strays.2, (parsed_eq_record_iff written.2).mp (same written member)⟩
  · rintro ⟨conditions, noLast⟩
    have noStrays : ∀ written ∈ calls, strayStarts written = 0 := by
      intro written member
      obtain ⟨noBefore, ⟨noKey, noDescription⟩, _⟩ := conditions written member
      rw [strayStarts, noBefore, noKey, noDescription]
    rw [extractFrom_writeCalls convert noStrays noLast]
    refine congrArg Except.ok (List.map_congr_left fun written member => ?_)
    exact (parsed_eq_record_iff written.2).mpr (conditions written member).2.2

end

/-! A description that speaks of a call yields a record of its own. -/

namespace DescribedCall

def call : Call where
  key := "k".toList
  keyQuote := .double
  description := "see $fromAI('x')".toList
  descriptionQuote := .double
  type := .string
  typeQuote := .double

theorem not_extracted : extractFromAICalls (fun text => text) (writeCalls [([], call)] []) ≠
    .ok ([([], call)].map fun written : List Char × Call => written.2.record (List Char)) := by
  intro returns
  have counted := length_of_extractFrom _ returns
  have starts : callStarts (writeCalls [([], call)] []) = 2 := by decide
  rw [starts] at counted
  cases counted

end DescribedCall

end N8n.FromAI
