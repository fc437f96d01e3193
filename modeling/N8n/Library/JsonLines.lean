import N8n.Library.JsonText

/-! # Files with a JSON text in every line

A text that `stringify` writes has no line feed and no carriage return, so one
line feed behind each text separates them.  A reader that also ends lines at
U+2028 and U+2029 cuts the texts whose strings have such a character.  What is
read from the pieces has no field with a name of words: the reader takes the
strings of the value for structure and its structure for strings.
-/

namespace Json

/-! ## Lines -/

def isLineEnd (char : Char) : Bool := char == '\n' || char == '\r' || char == '\u2028' || char == '\u2029'

/-- A carriage return and the line feed behind it end one line. -/
def joinLineEnds : List Char → List Char
  | '\r' :: '\n' :: rest => '\n' :: joinLineEnds rest
  | char :: rest => char :: joinLineEnds rest
  | [] => []

/-- What stands behind the last line end is a line when it is not empty. -/
def lines (text : List Char) : List (List Char) :=
  let pieces := (joinLineEnds text).splitOnP isLineEnd
  if pieces.getLast? = some [] then pieces.dropLast else pieces

def fileText (values : List Value) : List Char := values.flatMap fun value => stringify value ++ ['\n']

def pieces (value : Value) : List (List Char) := (stringify value).splitOnP isLineEnd

/-- The reader of the lines does not see the text as one line. -/
def isCut (value : Value) : Bool := (stringify value).any isLineEnd

variable {value : Value}

theorem pieces_of_not_isCut (uncut : isCut value = false) : pieces value = [stringify value] :=
  List.splitOnP_eq_singleton (by simpa [isCut] using uncut)

/-! ## Inside and outside of strings -/

/-- The characters that stand outside of strings in a text that was written. -/
def isOutside (char : Char) : Bool := isScalarChar char || (Punctuation.ofChar? char).isSome

inductive Phase
  | outside
  | inside
  | escaped
deriving DecidableEq

namespace Phase

/-- Follows a text that was written; other texts have no next phase. -/
def step : Phase → Char → Option Phase
  | outside, char =>
    if char = '"' then some inside
    else if isOutside char then some outside
    else none
  | inside, char =>
    if char = '"' then some outside
    else if char = '\\' then some escaped
    else if isControl char then none
    else some inside
  | escaped, char => if isLineEnd char then none else some inside

def scan (phase : Phase) (text : List Char) : Option Phase := text.foldlM step phase

@[simp] theorem scan_nil (phase : Phase) : phase.scan [] = some phase := rfl

@[simp] theorem scan_cons (phase : Phase) (char : Char) (text : List Char) :
    phase.scan (char :: text) = (phase.step char).bind fun next => next.scan text := by
  simp [scan]

theorem scan_append (phase : Phase) (before after : List Char) :
    phase.scan (before ++ after) = (phase.scan before).bind fun next => next.scan after := by
  simp [scan, List.foldlM_append]

theorem step_of_isLineEnd {phase next : Phase} {char : Char} (isEnd : isLineEnd char = true)
    (steps : phase.step char = some next) : phase = inside ∧ next = inside := by
  simp only [isLineEnd, Bool.or_eq_true, beq_iff_eq] at isEnd
  rcases isEnd with ((rfl | rfl) | rfl) | rfl <;> revert steps <;> cases phase <;> cases next <;> decide

theorem not_mem_of_scan {phase last : Phase} {text : List Char} (scans : phase.scan text = some last) :
    '\r' ∉ text := by
  induction text generalizing phase with
  | nil => exact List.not_mem_nil
  | cons char text ih =>
    rw [scan_cons, Option.bind_eq_some_iff] at scans
    obtain ⟨next, steps, behind⟩ := scans
    have notHere : '\r' ≠ char := by
      rintro rfl
      revert steps
      cases phase <;> cases next <;> decide
    simp [notHere, ih behind]

theorem scan_escape (char : Char) : inside.scan (escape char) = some inside := by
  have hexDigits : ∀ digit < 16, inside.step (Nat.digitChar digit) = some inside := by decide
  unfold escape
  split
  case h_8 notQuote notBackslash _ _ _ _ _ =>
    have isNotQuote : char ≠ '"' := notQuote
    have isNotBackslash : char ≠ '\\' := notBackslash
    by_cases control : isControl char = true
    · have small : char.toNat < 32 := by simpa [isControl] using control
      have first := hexDigits (char.toNat / 16) (by omega)
      have second := hexDigits (char.toNat % 16) (by omega)
      have opening : inside.scan ['\\', 'u', '0', '0'] = some inside := by decide
      have isSplit : ['\\', 'u', '0', '0', Nat.digitChar (char.toNat / 16), Nat.digitChar (char.toNat % 16)] =
        ['\\', 'u', '0', '0'] ++ [Nat.digitChar (char.toNat / 16), Nat.digitChar (char.toNat % 16)] := rfl
      rw [if_pos control, isSplit, scan_append, opening]
      simp [first, second]
    · simp [control, step, isNotQuote, isNotBackslash]
  all_goals decide

theorem scan_escapes (content : List Char) : inside.scan (content.flatMap escape) = some inside := by
  induction content with
  | nil => rfl
  | cons char content ih =>
    simp [scan_append, scan_escape, ih]

theorem scan_scalar {text : List Char} (allScalar : ∀ char ∈ text, isScalarChar char = true) :
    outside.scan text = some outside := by
  induction text with
  | nil => rfl
  | cons char text ih =>
    have isScalar := allScalar char List.mem_cons_self
    have notQuote : char ≠ '"' := by
      rintro rfl
      revert isScalar
      decide
    have others : ∀ other ∈ text, isScalarChar other = true := fun other member =>
      allScalar other (List.mem_cons_of_mem _ member)
    simp [step, notQuote, isOutside, isScalar, ih others]

theorem scan_token (token : Token) : outside.scan token.text = some outside := by
  cases token with
  | punctuation mark => cases mark <;> decide
  | scalar value => exact scan_scalar fun _ => Scalar.isScalarChar_of_mem_text
  | string content =>
    have quote : outside.step '"' = some inside := rfl
    have closing : inside.step '"' = some outside := rfl
    simp [Token.text, quote, closing, scan_append, scan_escapes]

theorem scan_stringify (value : Value) : outside.scan (stringify value) = some outside := by
  rw [stringify]
  induction tokens value with
  | nil => rfl
  | cons token more ih => simp [scan_append, scan_token, ih]

end Phase

theorem not_mem_stringify (value : Value) : '\r' ∉ stringify value :=
  Phase.not_mem_of_scan (Phase.scan_stringify value)

variable {text : List Char}

theorem joinLineEnds_of_not_mem (absent : '\r' ∉ text) : joinLineEnds text = text := by
  induction text with
  | nil => rfl
  | cons char text ih =>
    rw [List.mem_cons, not_or] at absent
    have noReturn : ∀ rest, char = '\r' → text = '\n' :: rest → False := fun _ isReturn _ => absent.1 isReturn.symm
    rw [joinLineEnds, ih absent.2]
    exact noReturn

theorem splitOnP_fileText (values : List Value) :
    (fileText values).splitOnP isLineEnd = values.flatMap pieces ++ [[]] := by
  induction values with
  | nil => rfl
  | cons value values ih =>
    have isEnd : isLineEnd '\n' = true := by decide
    have isText : fileText (value :: values) = stringify value ++ '\n' :: fileText values := by
      simp [fileText]
    rw [isText, List.splitOnP_append_cons _ _ isEnd, ih]
    simp [pieces]

theorem lines_fileText (values : List Value) : lines (fileText values) = values.flatMap pieces := by
  have noReturn : '\r' ∉ fileText values := by
    simp [fileText, not_mem_stringify]
  simp [lines, joinLineEnds_of_not_mem noReturn, splitOnP_fileText]

/-! ## The first piece of a cut text

The reader of the piece is inside of strings where the writer was, and the piece ends there.
-/

def LexState.phase : LexState → Phase
  | between | inScalar _ => .outside
  | inString _ | inUnicode _ _ => .inside
  | afterBackslash _ => .escaped

variable {char : Char} {emitted : List Token} {next : LexState}

/-- A token begins with a quote, or it is no string. -/
theorem start_cases (starts : start char = some (emitted, next)) :
    char = '"' ∧ emitted = [] ∧ next = .inString [] ∨
      char ≠ '"' ∧ char ≠ '\\' ∧ (∀ content, Token.string content ∉ emitted) ∧
        (next = .between ∨ next = .inScalar [char]) := by
  have notBackslash : char ≠ '\\' := by
    rintro rfl
    rw [show start '\\' = none from rfl] at starts
    cases starts
  unfold start at starts
  split at starts
  next isSpace =>
    cases starts
    have notQuote : char ≠ '"' := by
      rintro rfl
      revert isSpace
      decide
    exact .inr ⟨notQuote, notBackslash, by simp, .inl rfl⟩
  split at starts
  next isQuote => cases starts; exact .inl ⟨isQuote, rfl, rfl⟩
  next notQuote =>
    split at starts
    · cases starts
      exact .inr ⟨notQuote, notBackslash, by simp, .inr rfl⟩
    · simp only [Option.map_eq_some_iff, Prod.mk.injEq] at starts
      obtain ⟨mark, _, rfl, rfl⟩ := starts
      exact .inr ⟨notQuote, notBackslash, by simp, .inl rfl⟩

theorem step_inScalar_cases (steps : (LexState.inScalar text).step char = some (emitted, next)) :
    isScalarChar char = true ∧ emitted = [] ∧ next = .inScalar (text ++ [char]) ∨
      ∃ value more, start char = some (more, next) ∧ emitted = .scalar value :: more := by
  rw [LexState.step] at steps
  split at steps
  next isScalar => cases steps; exact .inl ⟨isScalar, rfl, rfl⟩
  next =>
    split at steps
    next => cases steps
    next value isRead =>
      simp only [Option.map_eq_some_iff, Prod.mk.injEq] at steps
      obtain ⟨⟨more, next⟩, starts, rfl, rfl⟩ := steps
      exact .inr ⟨value, more, starts, rfl⟩

theorem notQuote_of_isScalarChar (isScalar : isScalarChar char = true) :
    char ≠ '"' ∧ char ≠ '\\' := by
  constructor <;> rintro rfl <;> revert isScalar <;> decide

theorem start_phase {phase : Phase} (starts : start char = some (emitted, next))
    (steps : Phase.outside.step char = some phase) :
    phase = next.phase := by
  rcases start_cases starts with ⟨rfl, _, rfl⟩ | ⟨notQuote, _, _, rfl | rfl⟩
  · simpa [Phase.step, LexState.phase] using steps.symm
  all_goals
    rw [Phase.step, if_neg notQuote] at steps
    split at steps <;> cases steps
    rfl

/-- The reader and the writer stay together. -/
theorem step_phase {state next : LexState} {phase : Phase} (reads : state.step char = some (emitted, next))
    (steps : state.phase.step char = some phase) :
    phase = next.phase := by
  cases state with
  | between => exact start_phase reads steps
  | inScalar text =>
    rcases step_inScalar_cases reads with ⟨isScalar, _, rfl⟩ | ⟨_, _, starts, _⟩
    · rw [LexState.phase, Phase.step, if_neg (notQuote_of_isScalarChar isScalar).1] at steps
      split at steps <;> cases steps
      rfl
    · exact start_phase starts steps
  | inString content =>
    rw [LexState.step] at reads
    rw [LexState.phase, Phase.step] at steps
    split at reads
    next isQuote => cases reads; rw [if_pos isQuote] at steps; cases steps; rfl
    next notQuote =>
    rw [if_neg notQuote] at steps
    split at reads
    next isBackslash => cases reads; rw [if_pos isBackslash] at steps; cases steps; rfl
    next notBackslash =>
    rw [if_neg notBackslash] at steps
    split at reads <;> cases reads
    split at steps <;> cases steps
    rfl
  | afterBackslash content =>
    rw [LexState.step] at reads
    rw [LexState.phase, Phase.step] at steps
    split at steps <;> cases steps
    split at reads
    · cases reads
      rfl
    · simp only [Option.map_eq_some_iff, Prod.mk.injEq] at reads
      obtain ⟨_, _, _, rfl⟩ := reads
      rfl
  | inUnicode content digits =>
    rw [LexState.step] at reads
    rw [LexState.phase, Phase.step] at steps
    split at reads
    next => cases reads
    next digit isDigit =>
    have notQuote : char ≠ '"' := by rintro rfl; revert isDigit; simp [show hexValue '"' = none from rfl]
    have notBackslash : char ≠ '\\' := by rintro rfl; revert isDigit; simp [show hexValue '\\' = none from rfl]
    rw [if_neg notQuote, if_neg notBackslash] at steps
    split at steps <;> cases steps
    split at reads
    · cases reads
      rfl
    · simp only [Option.map_eq_some_iff, Prod.mk.injEq] at reads
      obtain ⟨_, _, _, rfl⟩ := reads
      rfl

variable {last : Phase}

theorem lexFrom_eq_none {state : LexState} (scans : state.phase.scan text = some last) (unfinished : last ≠ .outside) :
    lexFrom state text = none := by
  induction text generalizing state with
  | nil =>
    cases scans
    cases state <;> first | rfl | exact absurd rfl unfinished
  | cons char text ih =>
    rw [Phase.scan_cons, Option.bind_eq_some_iff] at scans
    obtain ⟨phase, steps, behind⟩ := scans
    rw [lexFrom_cons]
    cases reads : state.step char with
    | none => rfl
    | some result =>
      obtain ⟨emitted, next⟩ := result
      rw [step_phase reads steps] at behind
      simp [ih behind]

/-! ## The other pieces

The reader of the piece is outside of strings where the writer was inside, and the other way
round.  A backslash would bring them together, but it is no token and stands only in strings.
-/

def Inverted : LexState → Phase → Prop
  | .between, .inside | .inScalar _, .inside => True
  | .inString content, .outside => ∀ char ∈ content, isOutside char = true
  | _, _ => False

/-- Every string among the tokens was structure. -/
def OutsideStrings (tokens : List Token) : Prop :=
  ∀ content, Token.string content ∈ tokens → ∀ char ∈ content.toList, isOutside char = true

theorem start_inverted {phase : Phase} (starts : start char = some (emitted, next))
    (steps : Phase.inside.step char = some phase) :
    Inverted next phase ∧ OutsideStrings emitted := by
  rcases start_cases starts with ⟨rfl, rfl, rfl⟩ | ⟨notQuote, notBackslash, noString, isNext⟩
  · cases steps
    exact ⟨by simp [Inverted], by simp [OutsideStrings]⟩
  · rw [Phase.step, if_neg notQuote, if_neg notBackslash] at steps
    split at steps <;> cases steps
    refine ⟨?_, fun content member => absurd member (noString content)⟩
    rcases isNext with rfl | rfl <;> trivial

theorem step_inverted {state next : LexState} {phase nextPhase : Phase} (inverted : Inverted state phase)
    (reads : state.step char = some (emitted, next)) (steps : phase.step char = some nextPhase) :
    Inverted next nextPhase ∧ OutsideStrings emitted := by
  cases state with
  | between =>
    cases phase <;> try exact inverted.elim
    exact start_inverted reads steps
  | inScalar text =>
    cases phase <;> try exact inverted.elim
    rcases step_inScalar_cases reads with ⟨isScalar, rfl, rfl⟩ | ⟨value, more, starts, rfl⟩
    · obtain ⟨notQuote, notBackslash⟩ := notQuote_of_isScalarChar isScalar
      rw [Phase.step, if_neg notQuote, if_neg notBackslash] at steps
      split at steps <;> cases steps
      exact ⟨trivial, by simp [OutsideStrings]⟩
    · obtain ⟨kept, strings⟩ := start_inverted starts steps
      refine ⟨kept, fun content member => strings content ?_⟩
      simpa using member
  | inString content =>
    cases phase <;> try exact inverted.elim
    rw [LexState.step] at reads
    rw [Phase.step] at steps
    split at reads
    next isQuote =>
      cases reads
      rw [if_pos isQuote] at steps
      cases steps
      exact ⟨trivial, by simpa [OutsideStrings, Inverted] using inverted⟩
    next notQuote =>
    rw [if_neg notQuote] at steps
    split at steps <;> cases steps
    next isStructure =>
    have notBackslash : char ≠ '\\' := by rintro rfl; revert isStructure; decide
    rw [if_neg notBackslash] at reads
    split at reads <;> cases reads
    refine ⟨fun other member => ?_, by simp [OutsideStrings]⟩
    rcases List.mem_append.mp member with before | here
    · exact inverted other before
    · rw [List.mem_singleton.mp here]
      exact isStructure
  | afterBackslash content => exact inverted.elim
  | inUnicode content digits => exact inverted.elim

variable {tokens : List Token}

theorem outsideStrings_of_lexFrom {state : LexState} {phase last : Phase} (inverted : Inverted state phase)
    (reads : lexFrom state text = some tokens) (scans : phase.scan text = some last) : OutsideStrings tokens := by
  induction text generalizing state phase tokens with
  | nil =>
    cases state with
    | between => cases reads; simp [OutsideStrings]
    | inScalar text =>
      simp only [lexFrom, LexState.finish, Option.map_eq_some_iff] at reads
      obtain ⟨value, _, rfl⟩ := reads
      simp [OutsideStrings]
    | inString _ => cases reads
    | afterBackslash _ => cases reads
    | inUnicode _ _ => cases reads
  | cons char text ih =>
    rw [Phase.scan_cons, Option.bind_eq_some_iff] at scans
    obtain ⟨nextPhase, steps, behind⟩ := scans
    rw [lexFrom_cons, Option.bind_eq_some_iff] at reads
    obtain ⟨⟨emitted, next⟩, stepReads, restReads⟩ := reads
    rw [Option.map_eq_some_iff] at restReads
    obtain ⟨more, restReads, rfl⟩ := restReads
    obtain ⟨kept, strings⟩ := step_inverted inverted stepReads steps
    intro content member
    rcases List.mem_append.mp member with here | later
    · exact strings content here
    · exact ih kept restReads behind content later

/-! ## The fields of a piece -/

def Frame.names : Frame → List String
  | inArray _ => []
  | inObject done key => key :: done.map Prod.fst

def Mode.names : Mode → List String
  | .value | .firstItem | .firstKey => []
  | .nextKey done => done.map Prod.fst
  | .colon done key => key :: done.map Prod.fst
  | .after complete => complete.keys

/-- The names of the fields that values under construction have. -/
def Builder.names (builder : Builder) : List String :=
  builder.mode.names ++ builder.stack.flatMap Frame.names

variable {stack : List Frame} {token : Token} {builder : Builder} {name : String}

theorem mem_names_of_beginValue (begins : Builder.beginValue stack token = some builder)
    (member : name ∈ builder.names) :
    name ∈ stack.flatMap Frame.names := by
  unfold Builder.beginValue at begins
  split at begins <;> cases begins <;> simpa [Builder.names, Mode.names, Value.keys] using member

theorem mem_names_of_beginField {done : List (String × Value)}
    (begins : Builder.beginField stack done token = some builder) (member : name ∈ builder.names) :
    name ∈ done.map Prod.fst ∨ name ∈ stack.flatMap Frame.names ∨ token = .string name := by
  unfold Builder.beginField at begins
  split at begins
  next key =>
    cases begins
    simp only [Builder.names, Mode.names, List.cons_append, List.mem_cons, List.mem_append] at member
    rcases member with rfl | before | below
    · exact .inr (.inr rfl)
    · exact .inl before
    · exact .inr (.inl below)
  next => cases begins

theorem mem_names_of_close (closes : Builder.close value stack token = some builder) (member : name ∈ builder.names) :
    name ∈ stack.flatMap Frame.names := by
  unfold Builder.close at closes
  split at closes <;> cases closes <;>
    simp_all [Builder.names, Mode.names, Frame.names, Value.keys] <;> grind

theorem mem_names_of_step {builder next : Builder} (steps : builder.step token = some next)
    (member : name ∈ next.names) :
    name ∈ builder.names ∨ token = .string name := by
  obtain ⟨stack, mode⟩ := builder
  cases mode with
  | value => exact .inl (mem_names_of_beginValue steps member)
  | firstItem =>
    simp only [Builder.step] at steps
    split at steps
    · cases steps
      exact .inl member
    · have below := mem_names_of_beginValue steps member
      rw [List.flatMap_cons, Frame.names, List.nil_append] at below
      exact .inl (List.mem_append_right _ below)
  | firstKey =>
    simp only [Builder.step] at steps
    split at steps
    · cases steps
      exact .inl member
    · rcases mem_names_of_beginField steps member with nothing | below | isName
      · cases nothing
      · exact .inl below
      · exact .inr isName
  | nextKey done =>
    rcases mem_names_of_beginField steps member with before | below | isName
    · exact .inl (List.mem_append_left _ before)
    · exact .inl (List.mem_append_right _ below)
    · exact .inr isName
  | colon done key =>
    simp only [Builder.step] at steps
    split at steps <;> cases steps
    exact .inl member
  | after value =>
    exact .inl (List.mem_append_right _ (mem_names_of_close steps member))

theorem mem_names_of_foldlM {builder last : Builder} (runs : tokens.foldlM Builder.step builder = some last)
    (member : name ∈ last.names) :
    name ∈ builder.names ∨ Token.string name ∈ tokens := by
  induction tokens generalizing builder with
  | nil => cases runs; exact .inl member
  | cons token tokens ih =>
    rw [List.foldlM_cons, Option.bind_eq_bind, Option.bind_eq_some_iff] at runs
    obtain ⟨next, steps, behind⟩ := runs
    rcases ih behind with before | later
    · rcases mem_names_of_step steps before with here | rfl
      · exact .inl here
      · exact .inr List.mem_cons_self
    · exact .inr (List.mem_cons_of_mem _ later)

theorem string_mem_of_mem_keys (builds : build tokens = some value) (member : name ∈ value.keys) :
    Token.string name ∈ tokens := by
  rw [build, Option.bind_eq_bind, Option.bind_eq_some_iff] at builds
  obtain ⟨last, runs, isResult⟩ := builds
  have memberLast : name ∈ last.names := by
    unfold Builder.result? at isResult
    split at isResult <;> cases isResult
    simpa [Builder.names, Mode.names] using member
  rcases mem_names_of_foldlM runs memberLast with nothing | inTokens
  · simp [Builder.initial, Builder.names, Mode.names] at nothing
  · exact inTokens

/-- What can be read of a text has no fields with names of words. -/
def Nameless (text : List Char) : Prop :=
  ∀ value, parse text = some value → ∀ name ∈ value.keys, ∀ char ∈ name.toList, isOutside char = true

theorem nameless_of_outsideStrings (strings : ∀ tokens, lex text = some tokens → OutsideStrings tokens) :
    Nameless text := by
  intro value parses name member
  rw [parse, Option.bind_eq_bind, Option.bind_eq_some_iff] at parses
  obtain ⟨tokens, isLexed, isBuilt⟩ := parses
  exact strings tokens isLexed name (string_mem_of_mem_keys isBuilt member)

theorem exists_lineEnd (cut : text.any isLineEnd = true) :
    ∃ before lineEnd rest, text = before ++ lineEnd :: rest ∧ isLineEnd lineEnd = true ∧
      ∀ char ∈ before, isLineEnd char = false := by
  have found : (text.find? isLineEnd).isSome := by simpa [List.find?_isSome] using cut
  obtain ⟨lineEnd, isFound⟩ := Option.isSome_iff_exists.mp found
  obtain ⟨isEnd, before, rest, isText, noneBefore⟩ := List.find?_eq_some_iff_append.mp isFound
  exact ⟨before, lineEnd, rest, isText, isEnd, by simpa using noneBefore⟩

theorem scan_at_lineEnd {phase last : Phase} {before rest : List Char} {lineEnd : Char}
    (scans : phase.scan (before ++ lineEnd :: rest) = some last) (isEnd : isLineEnd lineEnd = true) :
    phase.scan before = some .inside ∧ Phase.inside.scan rest = some last := by
  rw [Phase.scan_append, Option.bind_eq_some_iff] at scans
  obtain ⟨middle, first, second⟩ := scans
  rw [Phase.scan_cons, Option.bind_eq_some_iff] at second
  obtain ⟨next, steps, second⟩ := second
  obtain ⟨rfl, rfl⟩ := Phase.step_of_isLineEnd isEnd steps
  exact ⟨first, second⟩

theorem nameless_of_scan (scans : Phase.inside.scan text = some last) :
    Nameless text := by
  have inverted : Inverted .between .inside := trivial
  exact nameless_of_outsideStrings fun _ reads => outsideStrings_of_lexFrom inverted reads scans

/-- The induction is on the length: behind a line end stands a shorter text, again in a string. -/
theorem nameless_of_inside (text : List Char) {piece : List Char} (scans : Phase.inside.scan text = some last)
    (isPiece : piece ∈ text.splitOnP isLineEnd) : Nameless piece := by
  by_cases cut : text.any isLineEnd = true
  · obtain ⟨before, lineEnd, rest, isText, isEnd, noneBefore⟩ := exists_lineEnd cut
    rw [isText] at scans
    rw [isText, List.splitOnP_append_cons _ _ isEnd, List.splitOnP_eq_singleton noneBefore] at isPiece
    obtain ⟨first, second⟩ := scan_at_lineEnd scans isEnd
    rcases List.mem_append.mp isPiece with here | behind
    · rw [List.mem_singleton.mp here]
      exact nameless_of_scan first
    · have shorter : rest.length < text.length := by rw [isText]; simp; omega
      exact nameless_of_inside rest second behind
  · have noEnd : ∀ char ∈ text, isLineEnd char = false := by simpa using cut
    rw [List.splitOnP_eq_singleton noEnd, List.mem_singleton] at isPiece
    rw [isPiece]
    exact nameless_of_scan scans
termination_by text.length

/-- The pieces of a cut text say nothing under a name of words. -/
theorem nameless_of_isCut {piece : List Char} (cut : isCut value = true) (isPiece : piece ∈ pieces value) :
    Nameless piece := by
  obtain ⟨before, lineEnd, rest, isText, isEnd, noneBefore⟩ := exists_lineEnd cut
  have scans := Phase.scan_stringify value
  rw [isText] at scans
  rw [pieces, isText, List.splitOnP_append_cons _ _ isEnd, List.splitOnP_eq_singleton noneBefore] at isPiece
  obtain ⟨first, second⟩ := scan_at_lineEnd scans isEnd
  rcases List.mem_append.mp isPiece with here | behind
  · rw [List.mem_singleton.mp here]
    have unread : lex before = none := lexFrom_eq_none first (by decide)
    refine nameless_of_outsideStrings fun tokens reads => ?_
    rw [unread] at reads
    cases reads
  · exact nameless_of_inside rest second behind

end Json
