import Mathlib.Data.List.Basic

/-! # JSON texts

Values, their text as `JSON.stringify` writes it, and the reader of a text.  A
text is written in two steps, value to tokens and tokens to characters, and read
back in the same two: `lex` is a machine over characters, `build` one over
tokens.  `parse_stringify` is the round trip.

A number is kept as the text that stands for it.
-/

namespace Json

/-! ## Values -/

/-- The characters that numbers and the words `null`, `true` and `false` are made of. -/
def isScalarChar (char : Char) : Bool := "0123456789+-.eEtruefalsn".toList.contains char

def digits (text : List Char) : Option (List Char) :=
  match text.span Char.isDigit with
  | ([], _) => none
  | (_, rest) => some rest

def unsigned : List Char → List Char
  | '-' :: rest => rest
  | text => text

/-- There are no leading zeros. -/
def integerPart : List Char → Option (List Char)
  | '0' :: rest => some rest
  | text => digits text

def fraction : List Char → Option (List Char)
  | '.' :: rest => digits rest
  | text => some text

def exponent : List Char → Option (List Char)
  | 'e' :: '+' :: rest | 'e' :: '-' :: rest | 'E' :: '+' :: rest | 'E' :: '-' :: rest => digits rest
  | 'e' :: rest | 'E' :: rest => digits rest
  | text => some text

def isNumber (text : List Char) : Bool :=
  text.all isScalarChar && (integerPart (unsigned text) >>= fraction >>= exponent) == some []

structure Number where
  text : List Char
  wellFormed : isNumber text = true
deriving DecidableEq

inductive Scalar
  | null
  | bool (value : Bool)
  | number (value : Number)
deriving DecidableEq

inductive Value
  | scalar (value : Scalar)
  | string (content : String)
  | array (items : List Value)
  | object (fields : List (String × Value))

namespace Scalar

def text : Scalar → List Char
  | null => "null".toList
  | bool true => "true".toList
  | bool false => "false".toList
  | number value => value.text

def read (text : List Char) : Option Scalar :=
  if text = "null".toList then some null
  else if text = "true".toList then some (bool true)
  else if text = "false".toList then some (bool false)
  else if wellFormed : isNumber text = true then some (number ⟨text, wellFormed⟩)
  else none

theorem read_text (scalar : Scalar) : read scalar.text = some scalar := by
  cases scalar with
  | null => rfl
  | bool value => cases value <;> rfl
  | number value =>
    obtain ⟨text, wellFormed⟩ := value
    have notWord {word : List Char} (isWord : isNumber word = false) : text ≠ word := by
      intro same
      rw [same, isWord] at wellFormed
      cases wellFormed
    have notNull : text ≠ "null".toList := notWord (by decide)
    have notTrue : text ≠ "true".toList := notWord (by decide)
    have notFalse : text ≠ "false".toList := notWord (by decide)
    rw [Scalar.text, read, if_neg notNull, if_neg notTrue, if_neg notFalse, dif_pos wellFormed]

theorem isScalarChar_of_mem_text {scalar : Scalar} {char : Char} (member : char ∈ scalar.text) :
    isScalarChar char = true := by
  have allScalar : scalar.text.all isScalarChar = true := by
    cases scalar with
    | null => decide
    | bool value => cases value <;> decide
    | number value => exact (Bool.and_eq_true_iff.mp value.wellFormed).1
  exact List.all_eq_true.mp allScalar char member

theorem text_ne_nil (scalar : Scalar) : scalar.text ≠ [] := by
  cases scalar with
  | null => decide
  | bool value => cases value <;> decide
  | number value =>
    intro isEmpty
    have wellFormed := value.wellFormed
    rw [show value.text = [] from isEmpty] at wellFormed
    revert wellFormed
    decide

end Scalar

namespace Value

def lastField? (name : String) : List (String × Value) → Option Value
  | [] => none
  | (key, value) :: rest => (lastField? name rest).or (if key = name then some value else none)

/-- A property of the value; `none` is `undefined`. -/
def field? (name : String) : Value → Option Value
  | object fields => lastField? name fields
  | _ => none

def keys : Value → List String
  | object fields => fields.map Prod.fst
  | _ => []

def truthy : Value → Bool
  | scalar .null | scalar (.bool false) => false
  | scalar (.bool true) => true
  | scalar (.number value) =>
    let mantissa := value.text.takeWhile fun char => char != 'e' && char != 'E'
    mantissa.any fun char => char.isDigit && char != '0'
  | string content => content != ""
  | array _ | object _ => true

mutual

/-- The value as a property key. -/
def toText : Value → String
  | scalar value => String.ofList value.text
  | string content => content
  | array items => ",".intercalate (itemTexts items)
  | object _ => "[object Object]"

/-- An array leaves `null` items empty in its text. -/
def itemTexts : List Value → List String
  | [] => []
  | scalar .null :: rest => "" :: itemTexts rest
  | item :: rest => toText item :: itemTexts rest

end

variable {name : String}

theorem lastField?_eq_none {fields : List (String × Value)} (absent : name ∉ fields.map Prod.fst) :
    lastField? name fields = none := by
  induction fields with
  | nil => rfl
  | cons field rest ih =>
    obtain ⟨key, value⟩ := field
    simp only [List.map_cons, List.mem_cons, not_or] at absent
    simp [lastField?, ih absent.2, Ne.symm absent.1]

theorem field?_eq_none {value : Value} (absent : name ∉ value.keys) :
    value.field? name = none := by
  cases value with
  | object fields => exact lastField?_eq_none absent
  | _ => rfl

theorem lastField?_append (name : String) (first second : List (String × Value)) :
    lastField? name (first ++ second) = (lastField? name second).or (lastField? name first) := by
  induction first with
  | nil => simp [lastField?]
  | cons field rest ih =>
    obtain ⟨key, value⟩ := field
    rw [List.cons_append, lastField?, lastField?, ih, Option.or_assoc]

theorem lastField?_filter (name removed : String) (fields : List (String × Value)) :
    lastField? name (fields.filter fun field => field.1 ≠ removed) =
      if name = removed then none else lastField? name fields := by
  induction fields with
  | nil => simp [lastField?]
  | cons field rest ih =>
    obtain ⟨key, value⟩ := field
    rw [List.filter_cons]
    by_cases same : name = removed
    · simp only [same, if_true] at ih ⊢
      split
      next kept => rw [lastField?, ih, Option.none_or, if_neg (of_decide_eq_true kept)]
      next => exact ih
    · rw [if_neg same] at ih ⊢
      split
      next => rw [lastField?, lastField?, ih]
      next dropped =>
        have isRemoved : key = removed := by simpa using dropped
        rw [lastField?, ih, isRemoved, if_neg (Ne.symm same), Option.or_none]

theorem mem_of_lastField? {fields : List (String × Value)} {value : Value}
    (found : lastField? name fields = some value) : (name, value) ∈ fields := by
  induction fields with
  | nil => cases found
  | cons field rest ih =>
    obtain ⟨key, other⟩ := field
    rw [lastField?, Option.or_eq_some_iff] at found
    obtain later | ⟨_, here⟩ := found
    · exact List.mem_cons_of_mem _ (ih later)
    · obtain ⟨rfl, same⟩ := Option.ite_none_right_eq_some.mp here
      exact Option.some.inj same ▸ List.mem_cons_self

theorem field?_ne_self (value : Value) (name : String) : value.field? name ≠ some value := by
  intro found
  cases value with
  | object fields =>
    have smaller := List.sizeOf_lt_of_mem (mem_of_lastField? found)
    simp only [Prod.mk.sizeOf_spec, object.sizeOf_spec] at smaller
    omega
  | _ => cases found

end Value

/-! ## Tokens -/

inductive Punctuation
  | openObject
  | closeObject
  | openArray
  | closeArray
  | comma
  | colon
deriving DecidableEq

def Punctuation.char : Punctuation → Char
  | openObject => '{'
  | closeObject => '}'
  | openArray => '['
  | closeArray => ']'
  | comma => ','
  | colon => ':'

def Punctuation.ofChar? : Char → Option Punctuation
  | '{' => some openObject
  | '}' => some closeObject
  | '[' => some openArray
  | ']' => some closeArray
  | ',' => some comma
  | ':' => some colon
  | _ => none

inductive Token
  | punctuation (mark : Punctuation)
  | scalar (value : Scalar)
  | string (content : String)
deriving DecidableEq

mutual

def tokens : Value → List Token
  | .scalar value => [.scalar value]
  | .string content => [.string content]
  | .array items => .punctuation .openArray :: (itemTokens items ++ [.punctuation .closeArray])
  | .object fields => .punctuation .openObject :: (fieldTokens fields ++ [.punctuation .closeObject])

def itemTokens : List Value → List Token
  | [] => []
  | [item] => tokens item
  | item :: next :: rest => tokens item ++ .punctuation .comma :: itemTokens (next :: rest)

def fieldTokens : List (String × Value) → List Token
  | [] => []
  | [(key, value)] => .string key :: .punctuation .colon :: tokens value
  | (key, value) :: next :: rest =>
    .string key :: .punctuation .colon :: (tokens value ++ .punctuation .comma :: fieldTokens (next :: rest))

end

/-- Besides quotes and backslashes, these are the only characters that a text must escape. -/
def isControl (char : Char) : Bool := char.toNat < 32

def escape (char : Char) : List Char :=
  match char with
  | '"' => ['\\', '"']
  | '\\' => ['\\', '\\']
  | '\x08' => ['\\', 'b']
  | '\t' => ['\\', 't']
  | '\n' => ['\\', 'n']
  | '\x0c' => ['\\', 'f']
  | '\r' => ['\\', 'r']
  | char =>
    if isControl char then
      ['\\', 'u', '0', '0', Nat.digitChar (char.toNat / 16), Nat.digitChar (char.toNat % 16)]
    else [char]

def Token.text : Token → List Char
  | .punctuation mark => [mark.char]
  | .scalar value => value.text
  | .string content => '"' :: (content.toList.flatMap escape ++ ['"'])

def stringify (value : Value) : List Char := (tokens value).flatMap Token.text

/-! ## From characters to tokens -/

def isSpace (char : Char) : Bool := char == ' ' || char == '\t' || char == '\n' || char == '\r'

/-- Where the reader of a text stands, with what it has of an unfinished token. -/
inductive LexState
  | between
  | inScalar (text : List Char)
  | inString (content : List Char)
  | afterBackslash (content : List Char)
  | inUnicode (content : List Char) (digits : List Nat)

def start (char : Char) : Option (List Token × LexState) :=
  if isSpace char then some ([], .between)
  else if char = '"' then some ([], .inString [])
  else if isScalarChar char then some ([], .inScalar [char])
  else (Punctuation.ofChar? char).map fun mark => ([.punctuation mark], .between)

def unescape : Char → Option Char
  | '"' => some '"'
  | '\\' => some '\\'
  | '/' => some '/'
  | 'b' => some '\x08'
  | 'f' => some '\x0c'
  | 'n' => some '\n'
  | 'r' => some '\r'
  | 't' => some '\t'
  | _ => none

def hexValue (char : Char) : Option Nat :=
  if char.isDigit then some (char.toNat - '0'.toNat)
  else if 'a' ≤ char ∧ char ≤ 'f' then some (char.toNat - 'a'.toNat + 10)
  else if 'A' ≤ char ∧ char ≤ 'F' then some (char.toNat - 'A'.toNat + 10)
  else none

/-- The character of an escape; halves of a surrogate pair are not characters. -/
def charOfDigits (digits : List Nat) : Option Char :=
  let code := digits.foldl (fun sum digit => 16 * sum + digit) 0
  if code.isValidChar then some (Char.ofNat code) else none

def LexState.step : LexState → Char → Option (List Token × LexState)
  | between, char => start char
  | inScalar text, char =>
    if isScalarChar char then some ([], inScalar (text ++ [char]))
    else
      match Scalar.read text with
      | none => none
      | some value => (start char).map fun (tokens, state) => (.scalar value :: tokens, state)
  | inString content, char =>
    if char = '"' then some ([.string (String.ofList content)], between)
    else if char = '\\' then some ([], afterBackslash content)
    else if isControl char then none
    else some ([], inString (content ++ [char]))
  | afterBackslash content, char =>
    if char = 'u' then some ([], inUnicode content [])
    else (unescape char).map fun char => ([], inString (content ++ [char]))
  | inUnicode content digits, char =>
    match hexValue char with
    | none => none
    | some digit =>
      if digits.length < 3 then some ([], inUnicode content (digits ++ [digit]))
      else (charOfDigits (digits ++ [digit])).map fun char => ([], inString (content ++ [char]))

def LexState.finish : LexState → Option (List Token)
  | between => some []
  | inScalar text => (Scalar.read text).map fun value => [.scalar value]
  | inString _ | afterBackslash _ | inUnicode _ _ => none

def lexFrom (state : LexState) : List Char → Option (List Token)
  | [] => state.finish
  | char :: rest =>
    match state.step char with
    | none => none
    | some (emitted, next) => (lexFrom next rest).map (emitted ++ ·)

def lex (text : List Char) : Option (List Token) := lexFrom .between text

@[simp] theorem lexFrom_cons (state : LexState) (char : Char) (rest : List Char) :
    lexFrom state (char :: rest) =
      (state.step char).bind fun (emitted, next) => (lexFrom next rest).map (emitted ++ ·) := by
  rw [lexFrom]
  cases state.step char <;> rfl

theorem hexValue_digitChar : ∀ digit < 16, hexValue (Nat.digitChar digit) = some digit := by decide

theorem charOfDigits_of_isControl {char : Char} (control : isControl char = true) :
    charOfDigits [0, 0, char.toNat / 16, char.toNat % 16] = some char := by
  have small : char.toNat < 32 := by simpa [isControl] using control
  have code : 16 * (char.toNat / 16) + char.toNat % 16 = char.toNat := Nat.div_add_mod _ _
  simp only [charOfDigits, List.foldl_cons, List.foldl_nil, Nat.mul_zero, Nat.zero_add, code]
  rw [if_pos (.inl (by omega)), Char.ofNat_toNat]

theorem lexFrom_escape (content : List Char) (char : Char) (rest : List Char) :
    lexFrom (.inString content) (escape char ++ rest) = lexFrom (.inString (content ++ [char])) rest := by
  unfold escape
  split
  case h_8 notQuote notBackslash _ _ _ _ _ =>
    by_cases control : isControl char = true
    · have small : char.toNat < 32 := by simpa [isControl] using control
      have first := hexValue_digitChar (char.toNat / 16) (by omega)
      have second := hexValue_digitChar (char.toNat % 16) (by omega)
      have zero : hexValue '0' = some 0 := by decide
      simp [control, LexState.step, first, second, zero, charOfDigits_of_isControl control,
        Function.comp_def]
    · have isNotQuote : char ≠ '"' := notQuote
      have isNotBackslash : char ≠ '\\' := notBackslash
      simp [control, LexState.step, isNotQuote, isNotBackslash]
  all_goals simp [LexState.step, unescape, Function.comp_def]

theorem lexFrom_escapes (content more rest : List Char) :
    lexFrom (.inString content) (more.flatMap escape ++ rest) = lexFrom (.inString (content ++ more)) rest := by
  induction more generalizing content with
  | nil => simp
  | cons char more ih =>
    rw [List.flatMap_cons, List.append_assoc, lexFrom_escape, ih, List.append_assoc]
    rfl

theorem lexFrom_string (content : String) (rest : List Char) :
    lexFrom .between ((Token.string content).text ++ rest) =
      (lexFrom .between rest).map (Token.string content :: ·) := by
  have opening : start '"' = some ([], .inString []) := rfl
  have body := lexFrom_escapes [] content.toList ('"' :: rest)
  simp only [Token.text, List.cons_append, List.append_assoc, lexFrom_cons, LexState.step, opening,
    Option.bind_some, List.nil_append, body]
  simp [Function.comp_def]

theorem lexFrom_punctuation (mark : Punctuation) (rest : List Char) :
    lexFrom .between ((Token.punctuation mark).text ++ rest) =
      (lexFrom .between rest).map (Token.punctuation mark :: ·) := by
  have opening : start mark.char = some ([.punctuation mark], .between) := by cases mark <;> rfl
  simp [Token.text, LexState.step, opening]

/-- The text goes on with something that ends a scalar. -/
def EndsScalar (rest : List Char) : Prop := ∀ char ∈ rest.head?, isScalarChar char = false

theorem lexFrom_inScalar {text more rest : List Char} (allScalar : ∀ char ∈ more, isScalarChar char = true) :
    lexFrom (.inScalar text) (more ++ rest) = lexFrom (.inScalar (text ++ more)) rest := by
  induction more generalizing text with
  | nil => simp
  | cons char more ih =>
    have isScalar := allScalar char List.mem_cons_self
    have others : ∀ other ∈ more, isScalarChar other = true := fun other member =>
      allScalar other (List.mem_cons_of_mem _ member)
    simp [LexState.step, isScalar, ih others]

theorem start_of_isScalarChar {char : Char} (isScalar : isScalarChar char = true) :
    start char = some ([], .inScalar [char]) := by
  have notSpace : isSpace char = false := by
    by_contra space
    simp only [isSpace, Bool.not_eq_false, Bool.or_eq_true, beq_iff_eq] at space
    rcases space with ((rfl | rfl) | rfl) | rfl <;> revert isScalar <;> decide
  have notQuote : char ≠ '"' := by
    rintro rfl
    revert isScalar
    decide
  simp [start, notSpace, notQuote, isScalar]

theorem lexFrom_scalar (scalar : Scalar) {rest : List Char} (ends : EndsScalar rest) :
    lexFrom .between ((Token.scalar scalar).text ++ rest) =
      (lexFrom .between rest).map (Token.scalar scalar :: ·) := by
  obtain ⟨first, more, isText⟩ := List.exists_cons_of_ne_nil scalar.text_ne_nil
  have allScalar : ∀ char ∈ first :: more, isScalarChar char = true := fun char member =>
    Scalar.isScalarChar_of_mem_text (isText ▸ member)
  have firstScalar := allScalar first List.mem_cons_self
  have moreScalar : ∀ char ∈ more, isScalarChar char = true := fun char member =>
    allScalar char (List.mem_cons_of_mem _ member)
  have readBack : Scalar.read (first :: more) = some scalar := isText ▸ scalar.read_text
  have body : lexFrom (.inScalar [first]) (more ++ rest) = lexFrom (.inScalar (first :: more)) rest :=
    lexFrom_inScalar moreScalar
  simp only [Token.text, isText, List.cons_append, lexFrom_cons, LexState.step, start_of_isScalarChar firstScalar,
    Option.bind_some, body, List.nil_append, Option.map_id']
  cases rest with
  | nil => simp [lexFrom, LexState.finish, readBack]
  | cons char rest =>
    have notScalar : isScalarChar char = false := ends char rfl
    simp only [lexFrom_cons, LexState.step, notScalar, readBack]
    cases start char <;> simp [Function.comp_def]

theorem endsScalar_punctuation (mark : Punctuation) (rest : List Char) :
    EndsScalar ((Token.punctuation mark).text ++ rest) := by
  have notScalar : isScalarChar mark.char = false := by cases mark <;> decide
  simp [EndsScalar, Token.text, notScalar]

mutual

theorem lexFrom_tokens (value : Value) {rest : List Char} (ends : EndsScalar rest) :
    lexFrom .between ((tokens value).flatMap Token.text ++ rest) =
      (lexFrom .between rest).map (tokens value ++ ·) := by
  match value with
  | .scalar value =>
    simpa [tokens] using lexFrom_scalar value ends
  | .string content =>
    simpa [tokens] using lexFrom_string content rest
  | .array items =>
    have closing := lexFrom_punctuation .closeArray rest
    have body := lexFrom_itemTokens items (endsScalar_punctuation .closeArray rest)
    simp only [tokens, List.flatMap_cons, List.flatMap_append, List.flatMap_nil, List.append_nil,
      List.append_assoc, lexFrom_punctuation, body, closing]
    simp [Function.comp_def]
  | .object fields =>
    have closing := lexFrom_punctuation .closeObject rest
    have body := lexFrom_fieldTokens fields (endsScalar_punctuation .closeObject rest)
    simp only [tokens, List.flatMap_cons, List.flatMap_append, List.flatMap_nil, List.append_nil,
      List.append_assoc, lexFrom_punctuation, body, closing]
    simp [Function.comp_def]

theorem lexFrom_itemTokens (items : List Value) {rest : List Char} (ends : EndsScalar rest) :
    lexFrom .between ((itemTokens items).flatMap Token.text ++ rest) =
      (lexFrom .between rest).map (itemTokens items ++ ·) := by
  match items with
  | [] => simp [itemTokens]
  | [item] => exact lexFrom_tokens item ends
  | item :: next :: more =>
    have others := lexFrom_itemTokens (next :: more) ends
    have separator := lexFrom_punctuation .comma ((itemTokens (next :: more)).flatMap Token.text ++ rest)
    have first := lexFrom_tokens item
      (endsScalar_punctuation .comma ((itemTokens (next :: more)).flatMap Token.text ++ rest))
    simp only [itemTokens, List.flatMap_append, List.flatMap_cons, List.append_assoc, first, separator, others]
    simp [Function.comp_def]

theorem lexFrom_fieldTokens (fields : List (String × Value)) {rest : List Char} (ends : EndsScalar rest) :
    lexFrom .between ((fieldTokens fields).flatMap Token.text ++ rest) =
      (lexFrom .between rest).map (fieldTokens fields ++ ·) := by
  match fields with
  | [] => simp [fieldTokens]
  | [(key, value)] =>
    have body := lexFrom_tokens value ends
    simp only [fieldTokens, List.flatMap_cons, List.append_assoc, lexFrom_string, lexFrom_punctuation, body]
    simp [Function.comp_def]
  | (key, value) :: next :: more =>
    have others := lexFrom_fieldTokens (next :: more) ends
    have separator := lexFrom_punctuation .comma ((fieldTokens (next :: more)).flatMap Token.text ++ rest)
    have body := lexFrom_tokens value
      (endsScalar_punctuation .comma ((fieldTokens (next :: more)).flatMap Token.text ++ rest))
    simp only [fieldTokens, List.flatMap_cons, List.flatMap_append, List.append_assoc, lexFrom_string,
      lexFrom_punctuation, body, separator, others]
    simp [Function.comp_def]

end

theorem lex_stringify (value : Value) : lex (stringify value) = some (tokens value) := by
  have nothingBehind : EndsScalar [] := by simp [EndsScalar]
  simpa [lex, stringify, lexFrom, LexState.finish] using lexFrom_tokens value nothingBehind

/-! ## From tokens to a value -/

inductive Frame
  | inArray (done : List Value)
  | inObject (done : List (String × Value)) (key : String)

inductive Mode
  | value
  | firstItem
  | firstKey
  | nextKey (done : List (String × Value))
  | colon (done : List (String × Value)) (key : String)
  | after (value : Value)

structure Builder where
  stack : List Frame
  mode : Mode

namespace Builder

def initial : Builder := ⟨[], .value⟩

def beginValue (stack : List Frame) : Token → Option Builder
  | .scalar value => some ⟨stack, .after (.scalar value)⟩
  | .string content => some ⟨stack, .after (.string content)⟩
  | .punctuation .openArray => some ⟨stack, .firstItem⟩
  | .punctuation .openObject => some ⟨stack, .firstKey⟩
  | .punctuation _ => none

def beginField (stack : List Frame) (done : List (String × Value)) : Token → Option Builder
  | .string key => some ⟨stack, .colon done key⟩
  | _ => none

def close (value : Value) : List Frame → Token → Option Builder
  | .inArray done :: stack, .punctuation .comma => some ⟨.inArray (done ++ [value]) :: stack, .value⟩
  | .inArray done :: stack, .punctuation .closeArray => some ⟨stack, .after (.array (done ++ [value]))⟩
  | .inObject done key :: stack, .punctuation .comma => some ⟨stack, .nextKey (done ++ [(key, value)])⟩
  | .inObject done key :: stack, .punctuation .closeObject =>
    some ⟨stack, .after (.object (done ++ [(key, value)]))⟩
  | _, _ => none

def step (builder : Builder) (token : Token) : Option Builder :=
  match builder.mode with
  | .value => beginValue builder.stack token
  | .firstItem =>
    if token = .punctuation .closeArray then some ⟨builder.stack, .after (.array [])⟩
    else beginValue (.inArray [] :: builder.stack) token
  | .firstKey =>
    if token = .punctuation .closeObject then some ⟨builder.stack, .after (.object [])⟩
    else beginField builder.stack [] token
  | .nextKey done => beginField builder.stack done token
  | .colon done key =>
    if token = .punctuation .colon then some ⟨.inObject done key :: builder.stack, .value⟩ else none
  | .after value => close value builder.stack token

def result? : Builder → Option Value
  | ⟨[], .after value⟩ => some value
  | _ => none

end Builder

def build (tokens : List Token) : Option Value := tokens.foldlM Builder.step .initial >>= Builder.result?

def parse (text : List Char) : Option Value := lex text >>= build

theorem foldlM_step_append (before after : List Token) (builder : Builder) :
    (before ++ after).foldlM Builder.step builder =
      (before.foldlM Builder.step builder).bind fun builder => after.foldlM Builder.step builder := by
  simp [List.foldlM_append]

theorem itemTokens_eq_cons (item : Value) (more : List Value) :
    ∃ first others, itemTokens (item :: more) = first :: others ∧ first ≠ .punctuation .closeArray := by
  cases more <;> cases item <;> simp [itemTokens, tokens]

theorem fieldTokens_eq_cons (key : String) (value : Value) (more : List (String × Value)) :
    ∃ others, fieldTokens ((key, value) :: more) = .string key :: others := by
  cases more <;> simp [fieldTokens]

mutual

theorem foldlM_tokens (value : Value) (stack : List Frame) :
    (tokens value).foldlM Builder.step ⟨stack, .value⟩ = some ⟨stack, .after value⟩ := by
  match value with
  | .scalar value => rfl
  | .string content => rfl
  | .array [] => rfl
  | .array (item :: more) =>
    have body := foldlM_itemTokens (item :: more) [] stack (List.cons_ne_nil _ _)
    obtain ⟨first, others, isTokens, notClosing⟩ := itemTokens_eq_cons item more
    simp only [isTokens, List.cons_append, List.foldlM_cons, Builder.step, List.nil_append] at body
    simpa only [tokens, isTokens, List.cons_append, List.foldlM_cons, Builder.step, Builder.beginValue,
      Option.bind_eq_bind, Option.bind_some, if_neg notClosing] using body
  | .object [] => rfl
  | .object ((key, value) :: more) =>
    have body := foldlM_fieldTokens ((key, value) :: more) [] stack (List.cons_ne_nil _ _)
    obtain ⟨others, isTokens⟩ := fieldTokens_eq_cons key value more
    simp only [isTokens, List.cons_append, List.foldlM_cons, Builder.step, List.nil_append] at body
    simpa [tokens, isTokens, Builder.step, Builder.beginValue] using body

theorem foldlM_itemTokens (items done : List Value) (stack : List Frame) (notEmpty : items ≠ []) :
    (itemTokens items ++ [Token.punctuation .closeArray]).foldlM Builder.step ⟨.inArray done :: stack, .value⟩ =
      some ⟨stack, .after (.array (done ++ items))⟩ := by
  match items with
  | [] => exact absurd rfl notEmpty
  | [item] =>
    have body := foldlM_tokens item (.inArray done :: stack)
    simp [itemTokens, body, Builder.step, Builder.close]
  | item :: next :: more =>
    have body := foldlM_tokens item (.inArray done :: stack)
    have others := foldlM_itemTokens (next :: more) (done ++ [item]) stack (List.cons_ne_nil _ _)
    rw [List.append_assoc, List.singleton_append] at others
    rw [itemTokens, List.append_assoc, foldlM_step_append, body]
    exact others

theorem foldlM_fieldTokens (fields done : List (String × Value)) (stack : List Frame) (notEmpty : fields ≠ []) :
    (fieldTokens fields ++ [Token.punctuation .closeObject]).foldlM Builder.step ⟨stack, .nextKey done⟩ =
      some ⟨stack, .after (.object (done ++ fields))⟩ := by
  match fields with
  | [] => exact absurd rfl notEmpty
  | [(key, value)] =>
    have body := foldlM_tokens value (.inObject done key :: stack)
    simp [fieldTokens, body, Builder.step, Builder.beginField, Builder.close]
  | (key, value) :: next :: more =>
    have body := foldlM_tokens value (.inObject done key :: stack)
    have others := foldlM_fieldTokens (next :: more) (done ++ [(key, value)]) stack (List.cons_ne_nil _ _)
    have opened : ∀ behind, (fieldTokens ((key, value) :: next :: more) ++ behind).foldlM Builder.step
        ⟨stack, .nextKey done⟩ = (tokens value ++ .punctuation .comma :: (fieldTokens (next :: more) ++ behind)).foldlM
          Builder.step ⟨.inObject done key :: stack, .value⟩ := by
      intro behind
      simp [fieldTokens, Builder.step, Builder.beginField]
    rw [List.append_assoc, List.singleton_append] at others
    rw [opened, foldlM_step_append, body]
    exact others

end

theorem parse_stringify (value : Value) : parse (stringify value) = some value := by
  simp [parse, lex_stringify, build, Builder.initial, foldlM_tokens, Builder.result?]

end Json
