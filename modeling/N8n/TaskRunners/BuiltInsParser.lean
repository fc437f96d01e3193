import Mathlib.Data.List.Basic
import Mathlib.Data.List.Perm.Basic
import N8n.Library.Loop

/-! # Built-ins that code uses

`packages/@n8n/task-runner/src/js-task-runner/built-ins-parser`.  The analysis
walks the syntax tree of a code node and marks the data that the code needs.
The tree is that of `acorn` and the order of the visits that of `acorn-walk`,
for expressions made of identifiers, literals, template literals, calls, member
accesses and assignments.
-/

namespace N8n.TaskRunners

/-- `value` of a literal; of the types other than string the source text is kept. -/
inductive LiteralValue where
  | string (value : String)
  | boolean (value : Bool)
  | null
  | number (raw : String)
  | regExp (raw : String)
  | bigint (raw : String)
deriving DecidableEq, Repr

/-- `memberExpression` is `object.property`, `computedMemberExpression` is `object[property]`. -/
inductive Expression where
  | identifier (name : String)
  | literal (value : LiteralValue)
  | templateLiteral (expressions : List Expression)
  | callExpression (callee : Expression) (arguments : List Expression)
  | memberExpression (object : Expression) (property : String)
  | computedMemberExpression (object property : Expression)
  | assignmentExpression (left right : Expression)

namespace Expression

def isIdentifier : Expression → Bool
  | .identifier _ => true
  | _ => false

def isDollar : Expression → Bool
  | .identifier name => name = "$"
  | _ => false

end Expression

structure VariableDeclarator where
  id : String
  init : Option Expression

inductive Statement where
  | expressionStatement (expression : Expression)
  | variableDeclaration (declarations : List VariableDeclarator)

/-- The statements in the body of `VmCodeWrapper`. -/
abbrev Program := List Statement

/-! ## The state -/

structure BuiltInsParserState where
  neededNodeNames : List String := []
  needsAllNodes : Bool := false
  needs_env : Bool := false
  needs_input : Bool := false
  needs_execution : Bool := false
  needs_prevNode : Bool := false
deriving DecidableEq, Repr

namespace BuiltInsParserState

def markNeedsAllNodes (state : BuiltInsParserState) : BuiltInsParserState :=
  { state with needsAllNodes := true, needs_input := true, neededNodeNames := [] }

def markNodeAsNeeded (state : BuiltInsParserState) (nodeName : String) : BuiltInsParserState :=
  if state.needsAllNodes then
    state
  else if nodeName ∈ state.neededNodeNames then
    state
  else
    { state with neededNodeNames := state.neededNodeNames ++ [nodeName] }

def markEnvAsNeeded (state : BuiltInsParserState) : BuiltInsParserState := { state with needs_env := true }

def markInputAsNeeded (state : BuiltInsParserState) : BuiltInsParserState := { state with needs_input := true }

def markExecutionAsNeeded (state : BuiltInsParserState) : BuiltInsParserState := { state with needs_execution := true }

def markPrevNodeAsNeeded (state : BuiltInsParserState) : BuiltInsParserState := { state with needs_prevNode := true }

def Has (state : BuiltInsParserState) (nodeName : String) : Prop :=
  nodeName ∈ state.neededNodeNames ∨ state.needsAllNodes = true

end BuiltInsParserState

/-! ## The visitors -/

/-- What a visitor reads of `ancestors[ancestors.length - 2]`. -/
inductive DirectParent where
  | memberExpression (property : String)
  | computedMemberExpression (property : Expression)
  | variableDeclarator
  | assignmentExpression
  | other

inductive Visit where
  | callExpression (callee : Expression) (arguments : List Expression) (directParent : DirectParent)
  | identifier (name : String)

namespace BuiltInsParser

open BuiltInsParserState

def isPairedItemProperty : LiteralValue → Bool
  | .string property => property = "item" || property = "pairedItem" || property = "itemMatching"
  | _ => false

def handlePrevNodeCall (state : BuiltInsParserState) : DirectParent → BuiltInsParserState
  | .computedMemberExpression (.literal value) =>
    if isPairedItemProperty value then state.markNeedsAllNodes else state
  | .computedMemberExpression (.identifier _) => state.markNeedsAllNodes
  | .computedMemberExpression _ => state
  | .memberExpression property =>
    if isPairedItemProperty (.string property) then state.markNeedsAllNodes else state
  | .variableDeclarator | .assignmentExpression => state.markNeedsAllNodes
  | .other => state.markNeedsAllNodes

def visitCallExpression (state : BuiltInsParserState) (callee : Expression) (arguments : List Expression)
    (directParent : DirectParent) : BuiltInsParserState :=
  if callee.isDollar then
    match arguments with
    | [] => state
    | .literal (.string nodeName) :: _ => handlePrevNodeCall (state.markNodeAsNeeded nodeName) directParent
    | .literal _ :: _ => state
    | _ :: _ => state.markNeedsAllNodes
  else
    state

def visitIdentifier (state : BuiltInsParserState) (name : String) : BuiltInsParserState :=
  if name = "$env" then
    state.markEnvAsNeeded
  else if name = "$item" then
    state.markNeedsAllNodes
  else if name = "$input" ∨ name = "$json" ∨ name = "items" ∨ name = "item" then
    state.markInputAsNeeded
  else if name = "$node" then
    state.markNeedsAllNodes
  else if name = "$execution" then
    state.markExecutionAsNeeded
  else if name = "$prevNode" then
    state.markPrevNodeAsNeeded
  else
    state

def visit (state : BuiltInsParserState) : Visit → BuiltInsParserState
  | .callExpression callee arguments directParent => visitCallExpression state callee arguments directParent
  | .identifier name => visitIdentifier state name

/-! ## The walk -/

mutual

/-- The visits below and at an expression.  A node is visited after its children; the property of a member access is
walked when it is computed. -/
def walk (directParent : DirectParent) : Expression → List Visit
  | .identifier name => [.identifier name]
  | .literal _ => []
  | .templateLiteral expressions => walkAll expressions
  | .callExpression callee arguments =>
    walk .other callee ++ walkAll arguments ++ [.callExpression callee arguments directParent]
  | .memberExpression object property => walk (.memberExpression property) object
  | .computedMemberExpression object property =>
    walk (.computedMemberExpression property) object ++ walk (.computedMemberExpression property) property
  -- an identifier that is assigned to is a `VariablePattern`, which no visitor sees
  | .assignmentExpression left right =>
    (if left.isIdentifier then [] else walk .assignmentExpression left) ++ walk .assignmentExpression right

def walkAll : List Expression → List Visit
  | [] => []
  | expression :: rest => walk .other expression ++ walkAll rest

end

def walkStatement : Statement → List Visit
  | .expressionStatement expression => walk .other expression
  | .variableDeclaration declarations =>
    declarations.flatMap fun declarator => declarator.init.elim [] (walk .variableDeclarator)

def walkProgram (program : Program) : List Visit := program.flatMap walkStatement

def identifyBuiltInsByWalkingAst (program : Program) : BuiltInsParserState := (walkProgram program).foldl visit {}

end BuiltInsParser

/-! ## What the code can reach -/

/-- How the value of `$("N")` is used.  `computedProperty` is an access `object[property]` of which it is the object,
with a property that is neither a literal nor an identifier, or the property. -/
inductive Usage where
  | property (name : LiteralValue)
  | variableProperty
  | computedProperty
  | other
deriving DecidableEq

inductive DataUse where
  | nodeCall (nodeName : String) (usage : Usage)
  /-- A call of `$` whose argument is not a literal. -/
  | dynamicCall
  /-- `$` that is not called. -/
  | dollar
  /-- `$item` and `$node`. -/
  | legacy
deriving DecidableEq

def accessUsage : Expression → Usage
  | .literal name => .property name
  | .identifier _ => .variableProperty
  | _ => .computedProperty

def callUse (usage : Usage) : List Expression → List DataUse
  | .literal (.string nodeName) :: _ => [.nodeCall nodeName usage]
  | [] | .literal _ :: _ => []
  | _ :: _ => [.dynamicCall]

def identifierUse (name : String) : List DataUse :=
  if name = "$" then [.dollar] else if name = "$item" ∨ name = "$node" then [.legacy] else []

mutual

/-- The uses of node data in an expression whose own value is used in the given way. -/
def Expression.uses (usage : Usage) : Expression → List DataUse
  | .identifier name => identifierUse name
  | .literal _ => []
  | .templateLiteral expressions => usesOfAll expressions
  | .callExpression callee arguments =>
    if callee.isDollar then
      usesOfAll arguments ++ callUse usage arguments
    else
      callee.uses .other ++ usesOfAll arguments
  | .memberExpression object property => object.uses (.property (.string property))
  | .computedMemberExpression object property => object.uses (accessUsage property) ++ property.uses .computedProperty
  | .assignmentExpression left right => (if left.isIdentifier then [] else left.uses .other) ++ right.uses .other

def usesOfAll : List Expression → List DataUse
  | [] => []
  | expression :: rest => expression.uses .other ++ usesOfAll rest

end

def Statement.uses : Statement → List DataUse
  | .expressionStatement expression => expression.uses .other
  | .variableDeclaration declarations => declarations.flatMap fun declarator => declarator.init.elim [] (·.uses .other)

def usesOfProgram (program : Program) : List DataUse := program.flatMap Statement.uses

namespace DataUse

open BuiltInsParser

/-- The data that the use reaches is not known from the text. -/
def ReachesAll : DataUse → Prop
  | .nodeCall _ (.property name) => isPairedItemProperty name = true
  | .nodeCall _ _ | .dynamicCall | .dollar => True
  | .legacy => False

/-- A handle in an access by any expression that is not a literal or an identifier, and `$` itself as a value. -/
def overlooked : DataUse → Bool
  | .nodeCall _ .computedProperty | .dollar => true
  | _ => false

/-- The uses that make the analysis ask for all nodes. -/
def marksAll : DataUse → Bool
  | .nodeCall _ (.property name) => isPairedItemProperty name
  | .nodeCall _ .variableProperty | .nodeCall _ .other | .dynamicCall | .legacy => true
  | .nodeCall _ .computedProperty | .dollar => false

def nodeName? : DataUse → Option String
  | .nodeCall nodeName _ => some nodeName
  | _ => none

theorem reachesAll_iff (use : DataUse) (notLegacy : use ≠ .legacy) :
    use.ReachesAll ↔ use.overlooked = true ∨ use.marksAll = true := by
  cases use with
  | nodeCall nodeName usage => cases usage <;> simp [ReachesAll, overlooked, marksAll]
  | dynamicCall => simp [ReachesAll, marksAll]
  | dollar => simp [ReachesAll, overlooked]
  | legacy => exact absurd rfl notLegacy

end DataUse

def Covers (state : BuiltInsParserState) (program : Program) : Prop :=
  ((∃ use ∈ usesOfProgram program, use.ReachesAll) → state.needsAllNodes = true) ∧
    ((¬ ∃ use ∈ usesOfProgram program, use.ReachesAll) →
      ∀ use ∈ usesOfProgram program, ∀ nodeName, use.nodeName? = some nodeName → state.Has nodeName)

/-- Beside an overlooked use there is one that the analysis asks for all nodes for. -/
def OverlooksNothing (program : Program) : Prop :=
  (∃ use ∈ usesOfProgram program, use.overlooked = true) → ∃ use ∈ usesOfProgram program, use.marksAll = true

/-! ## What a visit marks -/

def DirectParent.usage : DirectParent → Usage
  | .memberExpression property => .property (.string property)
  | .computedMemberExpression property => accessUsage property
  | .variableDeclarator | .assignmentExpression | .other => .other

/-- The uses that a visit sees.  The visitor of identifiers does not look for `$`. -/
def Visit.uses : Visit → List DataUse
  | .callExpression callee arguments directParent =>
    if callee.isDollar then callUse directParent.usage arguments else []
  | .identifier name => if name = "$item" ∨ name = "$node" then [.legacy] else []

namespace BuiltInsParserState

open BuiltInsParser

theorem Has.markNodeAsNeeded {state : BuiltInsParserState} {nodeName : String} (other : String)
    (has : state.Has nodeName) : (state.markNodeAsNeeded other).Has nodeName := by
  unfold BuiltInsParserState.markNodeAsNeeded
  split
  · exact has
  · split
    · exact has
    · exact Or.imp_left (List.mem_append_left _) has

theorem has_markNodeAsNeeded (state : BuiltInsParserState) (nodeName : String) :
    (state.markNodeAsNeeded nodeName).Has nodeName := by
  unfold markNodeAsNeeded
  split
  next needsAll => exact Or.inr needsAll
  next =>
    split
    next member => exact Or.inl member
    next => exact Or.inl (by simp)

@[simp] theorem needsAllNodes_markNodeAsNeeded (state : BuiltInsParserState) (nodeName : String) :
    (state.markNodeAsNeeded nodeName).needsAllNodes = state.needsAllNodes := by
  unfold markNodeAsNeeded
  split
  · rfl
  · split <;> rfl

theorem has_markNeedsAllNodes (state : BuiltInsParserState) (nodeName : String) :
    state.markNeedsAllNodes.Has nodeName := Or.inr rfl

end BuiltInsParserState

namespace BuiltInsParser

open BuiltInsParserState

variable (state : BuiltInsParserState)

theorem handlePrevNodeCall_eq (nodeName : String) (directParent : DirectParent) :
    handlePrevNodeCall state directParent =
      if (DataUse.nodeCall nodeName directParent.usage).marksAll then state.markNeedsAllNodes else state := by
  cases directParent with
  | computedMemberExpression property => cases property <;> rfl
  | _ => rfl

/-- The state after the visits of the uses that a visit sees. -/
def record (state : BuiltInsParserState) (use : DataUse) : BuiltInsParserState :=
  let named := use.nodeName?.elim state state.markNodeAsNeeded
  if use.marksAll then named.markNeedsAllNodes else named

theorem visitCallExpression_eq (callee : Expression) (arguments : List Expression)
    (directParent : DirectParent) :
    visitCallExpression state callee arguments directParent =
      (Visit.callExpression callee arguments directParent).uses.foldl record state := by
  cases dollar : callee.isDollar with
  | false => simp [visitCallExpression, Visit.uses, dollar]
  | true =>
    simp only [visitCallExpression, Visit.uses, dollar, if_true]
    cases arguments with
    | nil => rfl
    | cons first rest =>
      cases first with
      | literal value =>
        cases value with
        | string nodeName => exact handlePrevNodeCall_eq (state.markNodeAsNeeded nodeName) nodeName directParent
        | _ => rfl
      | _ => rfl

theorem needsAllNodes_record (use : DataUse) :
    (record state use).needsAllNodes = true ↔ state.needsAllNodes = true ∨ use.marksAll = true := by
  have named : (use.nodeName?.elim state state.markNodeAsNeeded).needsAllNodes = state.needsAllNodes := by
    cases use.nodeName? <;> simp
  simp only [record]
  split
  next marks => simp [markNeedsAllNodes, marks]
  next marks => simp [named, marks]

variable {nodeName : String}

theorem Has.record {state : BuiltInsParserState} (use : DataUse) (has : state.Has nodeName) :
    (record state use).Has nodeName := by
  simp only [BuiltInsParser.record]
  split
  · exact has_markNeedsAllNodes _ nodeName
  · cases use.nodeName? with
    | none => exact has
    | some other => exact has.markNodeAsNeeded other

theorem has_record {use : DataUse} (named : use.nodeName? = some nodeName) :
    (record state use).Has nodeName := by
  simp only [record, named]
  split
  · exact has_markNeedsAllNodes _ nodeName
  · exact has_markNodeAsNeeded state nodeName

theorem visitIdentifier_cases (name : String) :
    ((name = "$item" ∨ name = "$node") ∧ visitIdentifier state name = state.markNeedsAllNodes) ∨
      (¬ (name = "$item" ∨ name = "$node") ∧
        (visitIdentifier state name).needsAllNodes = state.needsAllNodes ∧
        (visitIdentifier state name).neededNodeNames = state.neededNodeNames) := by
  unfold visitIdentifier
  split
  next env => subst env; exact Or.inr ⟨by decide, rfl, rfl⟩
  split
  next item => exact Or.inl ⟨Or.inl item, rfl⟩
  next notItem =>
    split
    next input =>
      refine Or.inr ⟨?_, rfl, rfl⟩
      rintro (item | node)
      · exact notItem item
      · subst node
        revert input
        decide
    split
    next node => exact Or.inl ⟨Or.inr node, rfl⟩
    next notNode =>
      refine Or.inr ⟨fun either => either.elim notItem notNode, ?_⟩
      split
      · exact ⟨rfl, rfl⟩
      · split <;> exact ⟨rfl, rfl⟩

theorem needsAllNodes_visit (visited : Visit) :
    (visit state visited).needsAllNodes = true ↔
      state.needsAllNodes = true ∨ ∃ use ∈ visited.uses, use.marksAll = true := by
  cases visited with
  | callExpression callee arguments directParent =>
    rw [visit, visitCallExpression_eq]
    exact Loop.foldl_iff_exists (needsAllNodes · = true) (DataUse.marksAll · = true) needsAllNodes_record _ state
  | identifier name =>
    rcases visitIdentifier_cases state name with ⟨legacy, marked⟩ | ⟨other, needsAll, _⟩
    · simp [visit, marked, Visit.uses, legacy, markNeedsAllNodes, DataUse.marksAll]
    · simp [visit, needsAll, Visit.uses, other]

theorem Has.visit {state : BuiltInsParserState} (visited : Visit) (has : state.Has nodeName) :
    (visit state visited).Has nodeName := by
  cases visited with
  | callExpression callee arguments directParent =>
    rw [BuiltInsParser.visit, visitCallExpression_eq]
    exact Loop.foldl_preserves (BuiltInsParserState.Has · nodeName) (fun use _ _ has => Has.record use has) has
  | identifier name =>
    rcases visitIdentifier_cases state name with ⟨_, marked⟩ | ⟨_, needsAll, names⟩
    · rw [BuiltInsParser.visit, marked]
      exact has_markNeedsAllNodes state nodeName
    · rw [BuiltInsParser.visit, BuiltInsParserState.Has, needsAll, names]
      exact has

theorem has_visit {visited : Visit} {use : DataUse} (seen : use ∈ visited.uses)
    (named : use.nodeName? = some nodeName) : (visit state visited).Has nodeName := by
  cases visited with
  | callExpression callee arguments directParent =>
    rw [visit, visitCallExpression_eq]
    exact Loop.foldl_establishes (BuiltInsParserState.Has · nodeName) (fun use _ _ has => Has.record use has)
      ⟨use, seen, fun state => has_record state named⟩ state
  | identifier name =>
    simp only [Visit.uses] at seen
    split at seen
    · obtain rfl := List.mem_singleton.mp seen
      cases named
    · cases seen

/-! ## What the walk sees -/

theorem callUse_filter (usage : Usage) (arguments : List Expression) :
    (callUse usage arguments).filter (· ≠ .dollar) = callUse usage arguments := by
  unfold callUse
  split <;> rfl

theorem identifierUse_filter (name : String) :
    (identifierUse name).filter (· ≠ .dollar) = (Visit.identifier name).uses := by
  simp only [identifierUse, Visit.uses]
  split
  next dollar => subst dollar; rfl
  next => split <;> rfl

/-- For the property of an access only the calls of handles matter. -/
theorem uses_accessUsage (property : Expression) :
    property.uses (accessUsage property) = property.uses .computedProperty := by
  cases property with
  | identifier name => simp only [Expression.uses]
  | literal value => simp only [Expression.uses]
  | _ => rfl

mutual

theorem uses_walk (directParent : DirectParent) : ∀ expression : Expression,
    (walk directParent expression).flatMap Visit.uses =
      (expression.uses directParent.usage).filter (· ≠ .dollar)
  | .identifier name => by
    rw [walk, Expression.uses, identifierUse_filter, List.flatMap_singleton]
  | .literal value => rfl
  | .templateLiteral expressions => by
    rw [walk, Expression.uses, uses_walkAll]
  | .callExpression callee arguments => by
    rw [walk, Expression.uses, List.flatMap_append, List.flatMap_append, uses_walk .other callee,
      uses_walkAll arguments, List.flatMap_singleton, Visit.uses]
    split
    next dollar =>
      have notSeen : (callee.uses DirectParent.other.usage).filter (· ≠ .dollar) = [] := by
        cases callee with
        | identifier name =>
          obtain rfl : name = "$" := by simpa [Expression.isDollar] using dollar
          rw [Expression.uses]
          rfl
        | _ => cases dollar
      rw [notSeen, List.nil_append, List.filter_append, callUse_filter]
    next => rw [List.append_nil, List.filter_append]; rfl
  | .memberExpression object property => by
    rw [walk, Expression.uses, uses_walk (.memberExpression property) object]
    rfl
  | .computedMemberExpression object property => by
    rw [walk, Expression.uses, List.flatMap_append, uses_walk _ object, uses_walk _ property, List.filter_append,
      ← uses_accessUsage property]
    rfl
  | .assignmentExpression left right => by
    rw [walk, Expression.uses, List.flatMap_append, List.filter_append, uses_walk .assignmentExpression right]
    split
    next => rfl
    next => rw [uses_walk .assignmentExpression left]; rfl

theorem uses_walkAll : ∀ expressions : List Expression,
    (walkAll expressions).flatMap Visit.uses = (usesOfAll expressions).filter (· ≠ .dollar)
  | [] => rfl
  | expression :: rest => by
    rw [walkAll, usesOfAll, List.flatMap_append, uses_walk .other expression, uses_walkAll rest, List.filter_append]
    rfl

end

theorem uses_walkStatement (statement : Statement) :
    (walkStatement statement).flatMap Visit.uses = statement.uses.filter (· ≠ .dollar) := by
  cases statement with
  | expressionStatement expression => exact uses_walk .other expression
  | variableDeclaration declarations =>
    rw [walkStatement, Statement.uses, List.filter_flatMap, List.flatMap_assoc]
    congr 1
    funext declarator
    cases declarator.init with
    | none => rfl
    | some expression => exact uses_walk .variableDeclarator expression

theorem uses_walkProgram (program : Program) :
    (walkProgram program).flatMap Visit.uses = (usesOfProgram program).filter (· ≠ .dollar) := by
  rw [walkProgram, usesOfProgram, List.filter_flatMap, List.flatMap_assoc]
  congr 1
  funext statement
  exact uses_walkStatement statement

/-! ## Every program, in any order -/

section Order

variable {program : Program} {order : List Visit} (sameVisits : order.Perm (walkProgram program))

include sameVisits

theorem mem_visits {use : DataUse} (notDollar : use ≠ .dollar) :
    (∃ visited ∈ order, use ∈ visited.uses) ↔ use ∈ usesOfProgram program := by
  have seen : use ∈ (walkProgram program).flatMap Visit.uses ↔ use ∈ usesOfProgram program := by
    rw [uses_walkProgram]
    simp [notDollar]
  rw [← seen, List.mem_flatMap]
  simp only [sameVisits.mem_iff]

theorem needsAllNodes_iff :
    (order.foldl visit {}).needsAllNodes = true ↔ ∃ use ∈ usesOfProgram program, use.marksAll = true := by
  have fold := Loop.foldl_iff_exists (needsAllNodes · = true) (fun visited => ∃ use ∈ visited.uses, use.marksAll = true)
    needsAllNodes_visit order {}
  rw [fold]
  constructor
  · rintro (needsAll | ⟨visited, member, use, seen, marks⟩)
    · cases needsAll
    · have notDollar : use ≠ .dollar := by
        rintro rfl
        cases marks
      exact ⟨use, (mem_visits sameVisits notDollar).mp ⟨visited, member, seen⟩, marks⟩
  · rintro ⟨use, member, marks⟩
    have notDollar : use ≠ .dollar := by
      rintro rfl
      cases marks
    obtain ⟨visited, inOrder, seen⟩ := (mem_visits sameVisits notDollar).mpr member
    exact Or.inr ⟨visited, inOrder, use, seen, marks⟩

theorem has_of_uses {use : DataUse} {nodeName : String} (member : use ∈ usesOfProgram program)
    (named : use.nodeName? = some nodeName) : (order.foldl visit {}).Has nodeName := by
  have notDollar : use ≠ .dollar := by
    rintro rfl
    cases named
  obtain ⟨visited, inOrder, seen⟩ := (mem_visits sameVisits notDollar).mpr member
  exact Loop.foldl_establishes (BuiltInsParserState.Has · nodeName) (fun visited _ _ has => Has.visit visited has)
    ⟨visited, inOrder, fun state => has_visit state seen named⟩ {}

/-- The state asks for all that a program can reach unless the only uses out of sight are ones that the analysis
overlooks. -/
theorem covers_iff : Covers (order.foldl visit {}) program ↔ OverlooksNothing program := by
  have needsAll := needsAllNodes_iff sameVisits
  constructor
  · rintro ⟨covered, _⟩ ⟨use, member, overlooked⟩
    have notLegacy : use ≠ .legacy := by
      rintro rfl
      cases overlooked
    exact needsAll.mp (covered ⟨use, member, (use.reachesAll_iff notLegacy).mpr (Or.inl overlooked)⟩)
  · intro overlooksNothing
    refine ⟨?_, fun _ use member nodeName named => has_of_uses sameVisits member named⟩
    rintro ⟨use, member, reaches⟩
    have notLegacy : use ≠ .legacy := by
      rintro rfl
      exact reaches
    rcases (use.reachesAll_iff notLegacy).mp reaches with overlooked | marks
    · exact needsAll.mpr (overlooksNothing ⟨use, member, overlooked⟩)
    · exact needsAll.mpr ⟨use, member, marks⟩

end Order

/-- `const first = $("a").first(); $(name)`, visited backwards. -/
theorem covers_iff_of_reverse :
    Covers ((walkProgram
        [.variableDeclaration [⟨"first", some (.callExpression (.memberExpression
          (.callExpression (.identifier "$") [.literal (.string "a")]) "first") [])⟩],
        .expressionStatement (.callExpression (.identifier "$") [.identifier "name"])]).reverse.foldl visit {})
      [.variableDeclaration [⟨"first", some (.callExpression (.memberExpression
          (.callExpression (.identifier "$") [.literal (.string "a")]) "first") [])⟩],
        .expressionStatement (.callExpression (.identifier "$") [.identifier "name"])] ↔
    OverlooksNothing
      [.variableDeclaration [⟨"first", some (.callExpression (.memberExpression
          (.callExpression (.identifier "$") [.literal (.string "a")]) "first") [])⟩],
        .expressionStatement (.callExpression (.identifier "$") [.identifier "name"])] :=
  covers_iff (List.reverse_perm _)

/-- `$("a")[f()]` reads a property that is known at run time only, and the state asks for the node `a`. -/
theorem not_covers_of_computed_property :
    ¬ ∀ (program : Program) (order : List Visit), order.Perm (walkProgram program) →
      Covers (order.foldl visit {}) program := by
  intro covers
  have covered := (covers [.expressionStatement (.computedMemberExpression
    (.callExpression (.identifier "$") [.literal (.string "a")]) (.callExpression (.identifier "f") []))] _
    (List.Perm.refl _)).1 ⟨.nodeCall "a" .computedProperty, by decide, trivial⟩
  revert covered
  decide

end BuiltInsParser

end N8n.TaskRunners
