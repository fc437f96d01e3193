import N8n.Library.Text

/-! # Splitting an expression into chunks

`packages/workflow/src/Extensions/ExpressionParser.ts`: `splitExpression` cuts an
expression at its brackets into texts and codes, `joinExpression` puts the chunks
together again.

What stands behind the last bracket is pushed only if there is something behind
it: brackets at the very end open a code that is dropped, and an escaped bracket
at the very end drops the chunk it stands in.  `Restorable` says when nothing
gets lost.
-/

namespace N8n.Expression

open Text

inductive ExpressionChunk where
  | text (text : List Char)
  | code (text : List Char) (hasClosingBrackets : Bool)
deriving DecidableEq, Repr

/-- `(?<escape>\\|)(?<brackets>…)` at the start of a text, for brackets of the given kind: whether
the match is escaped. -/
def bracketsHere (bracket : Char) (text : List Char) : Option Bool :=
  if ['\\', bracket, bracket] <+: text then some true
  else if [bracket, bracket] <+: text then some false
  else none

def OPEN_BRACKET : List Char → Option (Nat × Bool) := exec (bracketsHere '{')

def CLOSE_BRACKET : List Char → Option (Nat × Bool) := exec (bracketsHere '}')

def escapeCode (text : List Char) : List Char := replaceFirst ['\\', '}', '}'] ['}', '}'] text

/-- The bracket the scan looks for next. -/
inductive SearchingFor where
  | openBracket
  | closeBracket
deriving DecidableEq, Repr

def SearchingFor.bracket : SearchingFor → Char
  | .openBracket => '{'
  | .closeBracket => '}'

def SearchingFor.activeRegex : SearchingFor → List Char → Option (Nat × Bool)
  | .openBracket => OPEN_BRACKET
  | .closeBracket => CLOSE_BRACKET

theorem activeRegex_eq (searchingFor : SearchingFor) :
    searchingFor.activeRegex = exec (bracketsHere searchingFor.bracket) := by
  cases searchingFor <;> rfl

/-- The chunk that is pushed for what has been read since the last bracket. -/
def SearchingFor.chunk (searchingFor : SearchingFor) (buffer : List Char) (hasClosingBrackets : Bool) :
    ExpressionChunk :=
  match searchingFor with
  | .openBracket => .text buffer
  | .closeBracket => .code (escapeCode buffer) hasClosingBrackets

def SearchingFor.other : SearchingFor → SearchingFor
  | .openBracket => .closeBracket
  | .closeBracket => .openBracket

/-- The loop, at the point where `expr` is left to read: the chunks it still pushes. -/
def splitFrom (searchingFor : SearchingFor) (buffer expr : List Char) : List ExpressionChunk :=
  if expr = [] then []
  else
    match searchingFor.activeRegex expr with
    | none => [searchingFor.chunk (buffer ++ expr) false]
    | some (index, true) =>
      splitFrom searchingFor (buffer ++ expr.take (index + 3)) (expr.drop (index + 3))
    | some (index, false) =>
      searchingFor.chunk (buffer ++ expr.take index) true ::
        splitFrom searchingFor.other [] (expr.drop (index + 2))
termination_by expr.length
decreasing_by
  all_goals
    have notEmpty : expr.length ≠ 0 := fun isEmpty => ‹¬ expr = []› (List.length_eq_zero_iff.mp isEmpty)
    simp only [List.length_drop]
    omega

def splitExpression (expression : List Char) : List ExpressionChunk :=
  splitFrom .openBracket [] expression

/-- Expressions only have closing brackets escaped. -/
def escapeTmplExpression (part : List Char) : List Char := replaceFirst ['}', '}'] ['\\', '}', '}'] part

def ExpressionChunk.join : ExpressionChunk → List Char
  | .code part hasClosingBrackets =>
    ['{', '{'] ++ escapeTmplExpression part ++ (if hasClosingBrackets then ['}', '}'] else [])
  | .text part => part

def joinExpression (parts : List ExpressionChunk) : List Char := parts.flatMap ExpressionChunk.join

@[simp] theorem joinExpression_nil : joinExpression [] = [] := rfl

@[simp] theorem joinExpression_cons (chunk : ExpressionChunk) (parts : List ExpressionChunk) :
    joinExpression (chunk :: parts) = chunk.join ++ joinExpression parts := rfl

theorem splitFrom_nil (searchingFor : SearchingFor) (buffer : List Char) :
    splitFrom searchingFor buffer [] = [] := by
  rw [splitFrom, if_pos rfl]

/-! ## Which expressions are restored

`Restorable` reads the expression once, character by character.  Within a code
it remembers whether a bracket was escaped already and, as long as none was,
whether the last character was a closing brace. -/

inductive Reading where
  | text
  | code (afterBrace : Bool)
  | escapedCode
deriving DecidableEq, Repr

def Reading.searchingFor : Reading → SearchingFor
  | .text => .openBracket
  | .code _ => .closeBracket
  | .escapedCode => .closeBracket

/-- After a character that is not part of brackets. -/
def Reading.after (character : Char) : Reading → Reading
  | .code _ => .code (character = '}')
  | reading => reading

def Reading.afterEscaped : Reading → Reading
  | .text => .text
  | .code _ => .escapedCode
  | .escapedCode => .escapedCode

def Reading.afterBrackets : Reading → Reading
  | .text => .code false
  | .code _ => .text
  | .escapedCode => .text

/-- No brackets that open a code and no escaped brackets stand at the very end, and the first escaped
brackets of a code do not follow a closing brace. -/
def Restorable (reading : Reading) (expr : List Char) : Prop :=
  match expr with
  | [] => True
  | first :: rest =>
    match bracketsHere reading.searchingFor.bracket (first :: rest) with
    | none => Restorable (reading.after first) rest
    | some true =>
      reading ≠ .code true ∧ (first :: rest).drop 3 ≠ [] ∧
        Restorable reading.afterEscaped ((first :: rest).drop 3)
    | some false =>
      (reading = .text → (first :: rest).drop 2 ≠ []) ∧
        Restorable reading.afterBrackets ((first :: rest).drop 2)
termination_by expr.length
decreasing_by all_goals simp only [List.length_drop, List.length_cons]; omega

/-- Whether the character before the place reached is a closing brace. -/
def Reading.afterAll (reading : Reading) (before : List Char) : Reading :=
  before.foldl (fun reading character => reading.after character) reading

@[simp] theorem Reading.searchingFor_after (character : Char) (reading : Reading) :
    (reading.after character).searchingFor = reading.searchingFor := by
  cases reading <;> rfl

@[simp] theorem Reading.afterEscaped_after (character : Char) (reading : Reading) :
    (reading.after character).afterEscaped = reading.afterEscaped := by
  cases reading <;> rfl

@[simp] theorem Reading.afterBrackets_after (character : Char) (reading : Reading) :
    (reading.after character).afterBrackets = reading.afterBrackets := by
  cases reading <;> rfl

variable {bracket : Char}

theorem bracketsHere_eq_true {text : List Char} (here : bracketsHere bracket text = some true) :
    text = '\\' :: bracket :: bracket :: text.drop 3 := by
  rw [bracketsHere] at here
  split at here
  · rename_i isPrefix
    obtain ⟨rest, rfl⟩ := isPrefix
    rfl
  · split at here <;> cases here

theorem bracketsHere_eq_false {text : List Char}
    (here : bracketsHere bracket text = some false) : text = bracket :: bracket :: text.drop 2 := by
  rw [bracketsHere] at here
  split at here
  · cases here
  · split at here
    · rename_i isPrefix
      obtain ⟨rest, rfl⟩ := isPrefix
      rfl
    · cases here

theorem bracketsHere_ne_none {text : List Char} (isPrefix : [bracket, bracket] <+: text) :
    bracketsHere bracket text ≠ none := by
  rw [bracketsHere, if_pos isPrefix]
  split <;> exact Option.some_ne_none _

variable {expr : List Char}

theorem not_infix_take {index : Nat} {escaped : Bool}
    (result : exec (bracketsHere bracket) expr = some (index, escaped)) :
    ¬ [bracket, bracket] <:+: expr.take index := by
  rintro ⟨before, after, isTake⟩
  have smaller : before.length < index := by
    have sameLength := congrArg List.length isTake
    simp only [List.length_append, List.length_cons, List.length_nil, List.length_take] at sameLength
    omega
  have noMatch := (exec_eq_some result).2 before.length smaller
  refine absurd noMatch (bracketsHere_ne_none ?_)
  have isExpr : expr = before ++ ([bracket, bracket] ++ (after ++ expr.drop index)) := by
    calc expr = expr.take index ++ expr.drop index := (List.take_append_drop index expr).symm
      _ = before ++ ([bracket, bracket] ++ (after ++ expr.drop index)) := by
        rw [← isTake]; simp only [List.append_assoc]
  rw [isExpr, List.drop_left]
  exact List.prefix_append _ _

theorem exec_eq_none (result : exec (bracketsHere bracket) expr = none) :
    ¬ [bracket, bracket] <:+: expr := by
  induction expr with
  | nil =>
    intro inside
    cases List.infix_nil.mp inside
  | cons first rest ih =>
    intro inside
    cases here : bracketsHere bracket (first :: rest) with
    | some escaped => rw [exec_of_match here] at result; cases result
    | none =>
      rw [exec_cons_of_none here, Option.map_eq_none_iff] at result
      cases List.infix_cons_iff.mp inside with
      | inl isPrefix => exact bracketsHere_ne_none isPrefix here
      | inr inRest => exact ih result inRest

variable {reading : Reading}

theorem restorable_of_exec_none
    (result : exec (bracketsHere reading.searchingFor.bracket) expr = none) : Restorable reading expr := by
  induction expr generalizing reading with
  | nil =>
    rw [Restorable]
    trivial
  | cons first rest ih =>
    cases here : bracketsHere reading.searchingFor.bracket (first :: rest) with
    | some escaped => rw [exec_of_match here] at result; cases result
    | none =>
      rw [exec_cons_of_none here, Option.map_eq_none_iff] at result
      rw [Restorable, here]
      exact ih (by rwa [Reading.searchingFor_after])

theorem restorable_of_exec_escaped {index : Nat}
    (result : exec (bracketsHere reading.searchingFor.bracket) expr = some (index, true)) :
    Restorable reading expr ↔ reading.afterAll (expr.take index) ≠ .code true ∧
      expr.drop (index + 3) ≠ [] ∧ Restorable reading.afterEscaped (expr.drop (index + 3)) := by
  induction expr generalizing reading index with
  | nil => cases result
  | cons first rest ih =>
    cases here : bracketsHere reading.searchingFor.bracket (first :: rest) with
    | some escaped =>
      rw [exec_of_match here] at result
      cases result
      rw [Restorable, here]
      rfl
    | none =>
      rw [exec_cons_of_none here] at result
      simp only [Option.map_eq_some_iff, Prod.mk.injEq, Prod.exists] at result
      obtain ⟨before, _, inRest, rfl, rfl⟩ := result
      rw [Restorable, here]
      have further := @ih (reading.after first) before (by rwa [Reading.searchingFor_after])
      rw [Reading.afterEscaped_after] at further
      exact further

theorem restorable_of_exec_brackets {index : Nat}
    (result : exec (bracketsHere reading.searchingFor.bracket) expr = some (index, false)) :
    Restorable reading expr ↔ (reading = .text → expr.drop (index + 2) ≠ []) ∧
      Restorable reading.afterBrackets (expr.drop (index + 2)) := by
  induction expr generalizing reading index with
  | nil => cases result
  | cons first rest ih =>
    cases here : bracketsHere reading.searchingFor.bracket (first :: rest) with
    | some escaped =>
      rw [exec_of_match here] at result
      cases result
      rw [Restorable, here]
    | none =>
      rw [exec_cons_of_none here] at result
      simp only [Option.map_eq_some_iff, Prod.mk.injEq, Prod.exists] at result
      obtain ⟨before, _, inRest, rfl, rfl⟩ := result
      rw [Restorable, here]
      have further := @ih (reading.after first) before (by rwa [Reading.searchingFor_after])
      have sameText : reading.after first = .text ↔ reading = .text := by cases reading <;> simp [Reading.after]
      rw [Reading.afterBrackets_after, sameText] at further
      exact further

/-! ## What a code chunk looks like after unescaping and escaping -/

theorem no_escaped_earlier {before after : List Char} (plain : ¬ ['}', '}'] <:+: before)
    {start rest : List Char} (isBefore : before = start ++ rest) (notEmpty : rest ≠ []) :
    ¬ ['\\', '}', '}'] <+: rest ++ (['\\', '}', '}'] ++ after) := by
  intro isPrefix
  match rest, notEmpty with
  | [_], _ => simp at isPrefix
  | [_, _], _ => simp at isPrefix
  | _ :: second :: third :: rest, _ =>
    simp only [List.cons_append, List.cons_prefix_cons] at isPrefix
    obtain ⟨rfl, rfl, rfl, _⟩ := isPrefix
    exact plain ⟨start ++ ['\\'], rest, by simp [isBefore]⟩

theorem escapeCode_escaped {before : List Char} (plain : ¬ ['}', '}'] <:+: before) (after : List Char) :
    escapeCode (before ++ (['\\', '}', '}'] ++ after)) = before ++ (['}', '}'] ++ after) :=
  replaceFirst_append fun _ _ isBefore notEmpty => no_escaped_earlier plain isBefore notEmpty

/-- The first closing brackets are escaped again where they were escaped before, unless the character
before them is a brace too. -/
theorem escapeTmplExpression_brackets {before : List Char} (plain : ¬ ['}', '}'] <:+: before)
    (noBrace : before.getLast? ≠ some '}') (after : List Char) :
    escapeTmplExpression (before ++ (['}', '}'] ++ after)) = before ++ (['\\', '}', '}'] ++ after) := by
  refine replaceFirst_append fun start rest isBefore notEmpty isPrefix => ?_
  match rest, notEmpty with
  | [last], _ =>
    simp only [List.cons_append, List.nil_append, List.cons_prefix_cons] at isPrefix
    exact noBrace (by rw [isBefore, List.getLast?_concat, ← isPrefix.1])
  | first :: second :: rest, _ =>
    simp only [List.cons_append, List.cons_prefix_cons] at isPrefix
    obtain ⟨rfl, rfl, _⟩ := isPrefix
    exact plain ⟨start, rest, by simp [isBefore]⟩

theorem escaped_twice_iff {before : List Char} (plain : ¬ ['}', '}'] <:+: before) (after : List Char) :
    (escapeTmplExpression (escapeCode (before ++ (['\\', '}', '}'] ++ after))) =
        before ++ (['\\', '}', '}'] ++ after) ↔ before.getLast? ≠ some '}') ∧
      (escapeTmplExpression (escapeCode (before ++ (['\\', '}', '}'] ++ after)))).length =
        (before ++ (['\\', '}', '}'] ++ after)).length := by
  rw [escapeCode_escaped plain]
  by_cases brace : before.getLast? = some '}'
  · -- the brackets found are the brace and the first bracket
    obtain ⟨earlier, rfl⟩ : ∃ earlier, before = earlier ++ ['}'] := by
      refine ⟨before.dropLast, ?_⟩
      have notEmpty : before ≠ [] := by
        rintro rfl
        cases brace
      have last := List.getLast?_eq_some_getLast notEmpty
      rw [brace] at last
      calc before = before.dropLast ++ [before.getLast notEmpty] := (List.dropLast_append_getLast notEmpty).symm
        _ = before.dropLast ++ ['}'] := by rw [← Option.some.inj last]
    have plainEarlier : ¬ ['}', '}'] <:+: earlier := fun inside =>
      plain (inside.trans (List.prefix_append earlier ['}']).isInfix)
    have noBrace : earlier.getLast? ≠ some '}' := by
      intro alsoBrace
      obtain ⟨front, rfl⟩ := List.getLast?_eq_some_iff.mp alsoBrace
      exact plain ⟨front, [], by simp⟩
    have regrouped : earlier ++ ['}'] ++ (['}', '}'] ++ after) = earlier ++ (['}', '}'] ++ ('}' :: after)) := by
      simp
    rw [regrouped, escapeTmplExpression_brackets plainEarlier noBrace]
    constructor
    · simp
    · simp
  · rw [escapeTmplExpression_brackets plain brace]
    exact ⟨⟨fun _ => brace, fun _ => rfl⟩, rfl⟩

theorem escape_plain {text : List Char} (plain : ¬ ['}', '}'] <:+: text) :
    escapeTmplExpression (escapeCode text) = text := by
  have noEscaped : ¬ ['\\', '}', '}'] <:+: text := fun inside =>
    plain (List.IsInfix.trans ⟨['\\'], [], rfl⟩ inside)
  rw [escapeCode, replaceFirst_of_not_infix noEscaped, escapeTmplExpression, replaceFirst_of_not_infix plain]

theorem afterAll_code (before : List Char) (afterBrace : Bool) :
    (Reading.code afterBrace).afterAll before =
      .code (before.getLast?.elim afterBrace fun last => last = '}') := by
  induction before generalizing afterBrace with
  | nil => rfl
  | cons first rest ih =>
    have step : (Reading.code afterBrace).afterAll (first :: rest) =
        (Reading.code (first = '}')).afterAll rest := rfl
    rw [step, ih]
    cases rest with
    | nil => rfl
    | cons second rest =>
      simp [List.getLast?_cons_cons, List.getLast?_eq_some_getLast (List.cons_ne_nil second rest)]

theorem afterAll_of_not_code (notCode : ∀ afterBrace, reading ≠ .code afterBrace)
    (before : List Char) : reading.afterAll before = reading := by
  induction before with
  | nil => rfl
  | cons first rest ih =>
    have step : reading.after first = reading := by
      cases reading with
      | text => rfl
      | code afterBrace => exact absurd rfl (notCode afterBrace)
      | escapedCode => rfl
    rw [Reading.afterAll, List.foldl_cons, step]
    exact ih

/-! ## The loop -/

def SearchingFor.opened : SearchingFor → List Char
  | .openBracket => []
  | .closeBracket => ['{', '{']

/-- What has been read of the chunk at hand.  `kept` says whether the chunk comes back whole however
it goes on. -/
inductive Fits : SearchingFor → List Char → Reading → Prop → Prop where
  | text (buffer : List Char) : Fits .openBracket buffer .text True
  | code : Fits .closeBracket [] (.code false) True
  | escapedCode {buffer : List Char} {kept : Prop}
      (restored : ∀ more, escapeTmplExpression (escapeCode (buffer ++ more)) = buffer ++ more ↔ kept)
      (sameLength : ∀ more,
        (escapeTmplExpression (escapeCode (buffer ++ more))).length = (buffer ++ more).length) :
      Fits .closeBracket buffer .escapedCode kept

variable {searchingFor : SearchingFor}

theorem Fits.searchingFor_eq {buffer : List Char}
    {kept : Prop} (fits : Fits searchingFor buffer reading kept) : reading.searchingFor = searchingFor := by
  cases fits <;> rfl

theorem Fits.closes {buffer : List Char} {kept : Prop}
    (fits : Fits searchingFor buffer reading kept) (notText : reading ≠ .text) :
    searchingFor = .closeBracket ∧ reading.afterBrackets = .text := by
  cases fits with
  | text => exact absurd rfl notText
  | code => exact ⟨rfl, rfl⟩
  | escapedCode => exact ⟨rfl, rfl⟩

theorem Fits.chunk {buffer more : List Char} {kept : Prop}
    (fits : Fits searchingFor buffer reading kept)
    (plain : ¬ [searchingFor.bracket, searchingFor.bracket] <:+: more) (hasClosingBrackets : Bool) :
    ∃ part, (searchingFor.chunk (buffer ++ more) hasClosingBrackets).join = searchingFor.opened ++ part ++
        (if searchingFor = .closeBracket ∧ hasClosingBrackets = true then ['}', '}'] else []) ∧
      part.length = (buffer ++ more).length ∧ (part = buffer ++ more ↔ kept) := by
  cases fits with
  | text => exact ⟨buffer ++ more, by simp [SearchingFor.chunk, SearchingFor.opened, ExpressionChunk.join],
      rfl, iff_of_true rfl trivial⟩
  | code =>
    refine ⟨more, ?_, rfl, iff_of_true rfl trivial⟩
    simp [SearchingFor.chunk, SearchingFor.opened, ExpressionChunk.join, escape_plain plain]
  | escapedCode restored sameLength =>
    refine ⟨escapeTmplExpression (escapeCode (buffer ++ more)), ?_, sameLength more, restored more⟩
    simp [SearchingFor.chunk, SearchingFor.opened, ExpressionChunk.join]

theorem Fits.escaped {buffer before : List Char}
    {kept : Prop} (fits : Fits searchingFor buffer reading kept)
    (plain : ¬ [searchingFor.bracket, searchingFor.bracket] <:+: before) :
    Fits searchingFor (buffer ++ (before ++ ['\\', searchingFor.bracket, searchingFor.bracket]))
      reading.afterEscaped (kept ∧ reading.afterAll before ≠ .code true) := by
  cases fits with
  | text =>
    have notCode : Reading.text.afterAll before ≠ .code true := by
      rw [afterAll_of_not_code fun _ equal => by cases equal]
      exact Reading.noConfusion
    have same : (True ∧ Reading.text.afterAll before ≠ .code true) = True := by simp [notCode]
    rw [same]
    exact .text _
  | code =>
    have brace : (True ∧ (Reading.code false).afterAll before ≠ .code true) ↔ before.getLast? ≠ some '}' := by
      rw [afterAll_code]
      cases before.getLast? <;> simp
    refine .escapedCode (fun more => ?_) fun more => ?_
    · rw [brace, List.nil_append, List.append_assoc]
      exact (escaped_twice_iff plain more).1
    · rw [List.nil_append, List.append_assoc]
      exact (escaped_twice_iff plain more).2
  | escapedCode restored sameLength =>
    have notCode : Reading.escapedCode.afterAll before ≠ .code true := by
      rw [afterAll_of_not_code fun _ equal => by cases equal]
      exact Reading.noConfusion
    refine .escapedCode (fun more => ?_) fun more => ?_
    · rw [List.append_assoc]
      exact (restored _).trans ⟨fun isKept => ⟨isKept, notCode⟩, And.left⟩
    · rw [List.append_assoc]
      exact sameLength _

theorem take_eq_append {expr : List Char} {index : Nat} {brackets : List Char}
    (tail : expr.drop index = brackets ++ expr.drop (index + brackets.length)) :
    expr.take (index + brackets.length) = expr.take index ++ brackets := by
  rw [List.take_add, tail, List.take_left]

/-- What is joined of the chunks the loop still pushes equals what it has read of the chunk at hand and
what is left, if and only if the chunk comes back whole and the rest is restorable. -/
theorem joinExpression_splitFrom {buffer expr : List Char}
    {kept : Prop} (fits : Fits searchingFor buffer reading kept) (notEmpty : expr ≠ []) :
    joinExpression (splitFrom searchingFor buffer expr) = searchingFor.opened ++ buffer ++ expr ↔
      kept ∧ Restorable reading expr := by
  induction sized : expr.length using Nat.strongRecOn generalizing searchingFor buffer expr reading kept with
  | ind size ih =>
    subst sized
    have bracketIs : reading.searchingFor.bracket = searchingFor.bracket := by rw [fits.searchingFor_eq]
    rw [splitFrom, if_neg notEmpty, activeRegex_eq]
    cases result : exec (bracketsHere searchingFor.bracket) expr with
    | none =>
      -- the last chunk, without closing brackets
      have plain := exec_eq_none result
      obtain ⟨part, joined, _, same⟩ := fits.chunk plain false
      have restorable : Restorable reading expr := restorable_of_exec_none (bracketIs ▸ result)
      simp only [joinExpression_cons, joinExpression_nil, List.append_nil, joined, Bool.false_eq_true,
        and_false, if_false, List.append_assoc, List.append_cancel_left_eq]
      rw [same]
      exact ⟨fun isKept => ⟨isKept, restorable⟩, And.left⟩
    | some found =>
      obtain ⟨index, escaped⟩ := found
      have plain := not_infix_take result
      have here := (exec_eq_some result).1
      have shorter : ∀ {length : Nat}, 0 < length → (expr.drop (index + length)).length < expr.length := by
        intro length positive
        have someLength := List.length_pos_iff.mpr notEmpty
        rw [List.length_drop]
        omega
      cases escaped with
      | true =>
        have tail := bracketsHere_eq_true here
        rw [List.drop_drop] at tail
        have taken : expr.take (index + 3) =
            expr.take index ++ ['\\', searchingFor.bracket, searchingFor.bracket] :=
          @take_eq_append expr index ['\\', searchingFor.bracket, searchingFor.bracket] tail
        have fitsNext := fits.escaped plain
        rw [restorable_of_exec_escaped (bracketIs ▸ result)]
        dsimp only
        by_cases atEnd : expr.drop (index + 3) = []
        · -- the loop ends without pushing the chunk
          rw [atEnd, splitFrom_nil]
          simp [notEmpty]
        · rw [taken]
          have further := ih _ (shorter (by omega)) fitsNext atEnd rfl
          have whole : searchingFor.opened ++ buffer ++ expr = searchingFor.opened ++
              (buffer ++ (expr.take index ++ ['\\', searchingFor.bracket, searchingFor.bracket])) ++
                expr.drop (index + 3) := by
            rw [← taken]
            simp only [List.append_assoc, List.take_append_drop]
          rw [whole, further]
          simp only [atEnd, ne_eq, not_false_eq_true, true_and, and_assoc]
      | false =>
        have tail := bracketsHere_eq_false here
        rw [List.drop_drop] at tail
        obtain ⟨part, joined, sameLength, same⟩ := fits.chunk plain true
        rw [restorable_of_exec_brackets (bracketIs ▸ result)]
        dsimp only
        rw [joinExpression_cons, joined]
        have whole : expr = expr.take index ++
            (searchingFor.bracket :: searchingFor.bracket :: expr.drop (index + 2)) := by
          rw [← tail, List.take_append_drop]
        by_cases inText : reading = .text
        · subst inText
          cases fits
          have partIs := same.mpr trivial
          have regrouped : buffer ++ expr = part ++ (['{', '{'] ++ expr.drop (index + 2)) := by
            rw [partIs, List.append_assoc]
            exact congrArg (buffer ++ ·) whole
          simp only [SearchingFor.opened, List.nil_append, reduceCtorEq, false_and, if_false, List.append_nil,
            SearchingFor.other, regrouped, List.append_cancel_left_eq, true_and, forall_const,
            Reading.afterBrackets]
          by_cases atEnd : expr.drop (index + 2) = []
          · -- the brackets stand at the very end: no chunk is pushed for them
            rw [atEnd, splitFrom_nil]
            simp
          · have further := ih _ (shorter (by omega)) Fits.code atEnd rfl
            simp only [SearchingFor.opened, List.append_nil, true_and] at further
            rw [further]
            exact ⟨fun restorable => ⟨atEnd, restorable⟩, And.right⟩
        · obtain ⟨isClose, backToText⟩ := fits.closes inText
          subst isClose
          -- both sides are as long, so the part and the rest are compared one by one
          have regrouped : SearchingFor.closeBracket.opened ++ buffer ++ expr =
              SearchingFor.closeBracket.opened ++ ((buffer ++ expr.take index) ++
                (['}', '}'] ++ expr.drop (index + 2))) := by
            rw [List.append_assoc, List.append_assoc]
            exact congrArg (fun rest => SearchingFor.closeBracket.opened ++ (buffer ++ rest)) whole
          have further : joinExpression (splitFrom .openBracket [] (expr.drop (index + 2))) =
              expr.drop (index + 2) ↔ Restorable .text (expr.drop (index + 2)) := by
            by_cases atEnd : expr.drop (index + 2) = []
            · rw [atEnd, splitFrom_nil, Restorable]
              exact iff_of_true rfl trivial
            · have further := ih _ (shorter (by omega)) (Fits.text []) atEnd rfl
              simpa only [SearchingFor.opened, List.nil_append, true_and] using further
          rw [regrouped, backToText]
          simp only [SearchingFor.other, and_self, if_true, List.append_assoc, List.append_cancel_left_eq,
            inText, false_implies, true_and]
          constructor
          · intro equal
            rw [← List.append_assoc buffer] at equal
            obtain ⟨partIs, restIs⟩ := List.append_inj equal sameLength
            exact ⟨same.mp partIs, further.mp (List.append_cancel_left restIs)⟩
          · rintro ⟨isKept, restorable⟩
            rw [same.mpr isKept, further.mpr restorable, List.append_assoc]

/-- Joining the chunks of an expression gives the expression back if and only if no brackets that open a
code and no escaped brackets stand at its very end and in no code the first escaped brackets directly
follow a closing brace. -/
theorem joinExpression_splitExpression_iff (expression : List Char) :
    joinExpression (splitExpression expression) = expression ↔ Restorable .text expression := by
  by_cases isEmpty : expression = []
  · rw [isEmpty, splitExpression, splitFrom_nil, Restorable]
    exact iff_of_true rfl trivial
  · have whole := joinExpression_splitFrom (Fits.text []) isEmpty
    rw [splitExpression]
    simpa only [SearchingFor.opened, List.nil_append, true_and] using whole

/-- `a{{`: the code that is opened has no character left, and no chunk is pushed for it. -/
theorem joinExpression_splitExpression_ne :
    splitExpression ['a', '{', '{'] = [.text ['a']] ∧
      joinExpression (splitExpression ['a', '{', '{']) ≠ ['a', '{', '{'] := by
  have chunks : splitExpression ['a', '{', '{'] = [.text ['a']] := by
    rw [splitExpression, splitFrom, if_neg (by decide)]
    have found : SearchingFor.openBracket.activeRegex ['a', '{', '{'] = some (1, false) := by decide
    rw [found]
    exact congrArg (ExpressionChunk.text ['a'] :: ·) (splitFrom_nil _ _)
  rw [chunks]
  exact ⟨rfl, by decide⟩

end N8n.Expression
