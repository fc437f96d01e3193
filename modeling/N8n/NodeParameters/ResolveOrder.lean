import Mathlib.Data.List.Perm.Basic
import Mathlib.Logic.Relation
import N8n.Library.Turns
import N8n.NodeParameters.ParameterLevels

/-! # The order in which the properties are resolved

What `getParameterResolveOrder` promises is an order in which every property
comes after the ones its display options depend on.  The first pass of its loop
takes the properties as they are declared; one with a missing dependency goes
into the order all the same, and back in line once for every missing one.
-/

namespace N8n.NodeHelpers

variable {Number : Type}

/-! ## What the order should be -/

/-- The parameters on the same level that the display options of a property name. -/
def dependencyNames (property : INodeProperties Number) : List String :=
  (displayRuleNames property).filter fun name => name.toList.head? ≠ some '@' ∧ name.toList.head? ≠ some '/'

def DependsOn (nodePropertiesArray : List (INodeProperties Number)) (index other : Nat) : Prop :=
  ∃ property, nodePropertiesArray[index]? = some property ∧
    ∃ otherProperty, nodePropertiesArray[other]? = some otherProperty ∧ otherProperty.name ∈ dependencyNames property

def AllKnown (nodePropertiesArray : List (INodeProperties Number)) : Prop :=
  ∀ property ∈ nodePropertiesArray, ∀ name ∈ dependencyNames property, ∃ other ∈ nodePropertiesArray, other.name = name

def Acyclic (nodePropertiesArray : List (INodeProperties Number)) : Prop :=
  ∀ index, ¬ Relation.TransGen (DependsOn nodePropertiesArray) index index

theorem acyclic_of_rank {nodePropertiesArray : List (INodeProperties Number)} (rank : Nat → Nat)
    (smaller : ∀ index other, DependsOn nodePropertiesArray index other → rank other < rank index) :
    Acyclic nodePropertiesArray := by
  have below : ∀ {index other}, Relation.TransGen (DependsOn nodePropertiesArray) index other →
      rank other < rank index := by
    intro index other path
    induction path with
    | single step => exact smaller _ _ step
    | tail _ step ih => exact (smaller _ _ step).trans ih
  intro index cycle
  exact lt_irrefl _ (below cycle)

/-- One turn of the loop, which ends when no index is in line or when it throws. -/
def resolveTurn (nodePropertiesArray : List (INodeProperties Number)) (parameterDependencies : IParameterDependencies)
    (state : ResolveState) : Except Thrown (List Nat) ⊕ ResolveState :=
  match state.indexToResolve with
  | [] => .inl (.ok state.executionOrder)
  | index :: indexToResolve =>
    match resolveIndex nodePropertiesArray parameterDependencies index indexToResolve state with
    | .error error => .inl (.error error)
    | .ok next => .inr next

def resolveStart (nodePropertiesArray : List (INodeProperties Number)) : ResolveState where
  executionOrder := []
  indexToResolve := List.range nodePropertiesArray.length
  resolvedParameters := []
  lastIndexLength := nodePropertiesArray.length
  lastIndexReduction := -1
  iterations := 0

def resolveOrder (nodePropertiesArray : List (INodeProperties Number)) : Except Thrown (List Nat) :=
  getParameterResolveOrder nodePropertiesArray (getParameterDependencies nodePropertiesArray)

/-- The loop ends, with a topological order when there is one and with an error otherwise. -/
structure ResolvesInOrder (nodePropertiesArray : List (INodeProperties Number)) : Prop where
  terminates : ∃ turns,
    Turns.Ends (resolveTurn nodePropertiesArray (getParameterDependencies nodePropertiesArray)) turns
      (resolveStart nodePropertiesArray) (resolveOrder nodePropertiesArray)
  ordered : AllKnown nodePropertiesArray → Acyclic nodePropertiesArray →
    ∃ executionOrder, resolveOrder nodePropertiesArray = .ok executionOrder ∧
      executionOrder.Perm (List.range nodePropertiesArray.length) ∧
      ∀ index other, DependsOn nodePropertiesArray index other →
        executionOrder.idxOf other < executionOrder.idxOf index
  throws : ¬ (AllKnown nodePropertiesArray ∧ Acyclic nodePropertiesArray) →
    ∃ error, resolveOrder nodePropertiesArray = .error error

/-! ## The dependencies of a list of properties -/

theorem mem_foldl_addDependency {names dependencies : List String} {name : String} :
    name ∈ names.foldl addDependency dependencies ↔
      name ∈ dependencies ∨ name ∈ names ∧ name.toList.head? ≠ some '@' := by
  induction names generalizing dependencies with
  | nil => simp
  | cons first rest ih =>
    rw [List.foldl_cons, ih, addDependency]
    split
    next known =>
      by_cases same : name = first
      · subst same; simp [known]
      · simp [same]
    next fresh =>
      split
      next special =>
        by_cases same : name = first
        · subst same; simp [fresh, special]
        · simp [same]
      next plain =>
        by_cases same : name = first
        · subst same; simp [plain]
        · simp [same]

/-- The dependencies that are kept under a name, those of all properties with the name. -/
def dependenciesOf (nodePropertiesArray : List (INodeProperties Number)) (name : String) : List String :=
  ((getParameterDependencies nodePropertiesArray).get? name).getD []

theorem isSome_foldl_dependencies (list : List (INodeProperties Number)) (found : IParameterDependencies)
    (name : String) :
    ((list.foldl (fun dependencies property => dependencies.set property.name
      ((displayRuleNames property).foldl addDependency ((dependencies.get? property.name).getD []))) found).get?
        name).isSome = true ↔ (found.get? name).isSome = true ∨ name ∈ list.map INodeProperties.name := by
  induction list generalizing found with
  | nil => simp
  | cons property rest ih =>
    rw [List.foldl_cons, ih, OrderedMap.get?_set]
    by_cases same : name = property.name
    · simp [same]
    · simp [same]

theorem mem_foldl_dependencies (list : List (INodeProperties Number)) (found : IParameterDependencies)
    (name dependency : String) :
    dependency ∈ ((list.foldl (fun dependencies property => dependencies.set property.name
      ((displayRuleNames property).foldl addDependency ((dependencies.get? property.name).getD []))) found).get?
        name).getD [] ↔ dependency ∈ (found.get? name).getD [] ∨
      ∃ property ∈ list, property.name = name ∧ dependency ∈ displayRuleNames property ∧
        dependency.toList.head? ≠ some '@' := by
  induction list generalizing found with
  | nil => simp
  | cons property rest ih =>
    rw [List.foldl_cons, ih, OrderedMap.get?_set]
    by_cases same : name = property.name
    · subst same
      rw [if_pos rfl, Option.getD_some, mem_foldl_addDependency, List.exists_mem_cons_iff, or_assoc]
      simp
    · simp [same, Ne.symm same]

theorem get?_getParameterDependencies (nodePropertiesArray : List (INodeProperties Number)) (name : String) :
    (getParameterDependencies nodePropertiesArray).get? name =
      if name ∈ nodePropertiesArray.map INodeProperties.name then some (dependenciesOf nodePropertiesArray name)
      else none := by
  have known := isSome_foldl_dependencies nodePropertiesArray ∅ name
  change ((getParameterDependencies nodePropertiesArray).get? name).isSome = true ↔ _ at known
  unfold dependenciesOf
  cases found : (getParameterDependencies nodePropertiesArray).get? name with
  | none =>
    rw [found] at known
    rw [if_neg]
    intro member
    exact absurd (known.mpr (.inr member)) nofun
  | some dependencies =>
    rw [found] at known
    rw [if_pos (by simpa using known)]
    rfl

theorem mem_dependenciesOf {nodePropertiesArray : List (INodeProperties Number)} {name dependency : String} :
    dependency ∈ dependenciesOf nodePropertiesArray name ↔
      ∃ property ∈ nodePropertiesArray, property.name = name ∧ dependency ∈ displayRuleNames property ∧
        dependency.toList.head? ≠ some '@' := by
  have all := mem_foldl_dependencies nodePropertiesArray ∅ name dependency
  simpa [dependenciesOf, getParameterDependencies] using all

/-! ## One turn -/

/-- The dependencies that the loop looks up for a property. -/
def dependenciesAt (nodePropertiesArray : List (INodeProperties Number)) (index : Nat) : List String :=
  match nodePropertiesArray[index]? with
  | none => []
  | some property => dependenciesOf nodePropertiesArray property.name

/-- The dependencies of a property that no property before it resolves. -/
def missingAt (nodePropertiesArray : List (INodeProperties Number)) (index : Nat) : List String :=
  (dependenciesAt nodePropertiesArray index).filter
    (isMissing ((nodePropertiesArray.take index).map INodeProperties.name))

section

variable {nodePropertiesArray : List (INodeProperties Number)} {state : ResolveState} {index : Nat}
  {indexToResolve : List Nat}

variable {property : INodeProperties Number}

theorem dependenciesAt_eq (found : nodePropertiesArray[index]? = some property) :
    dependenciesAt nodePropertiesArray index = dependenciesOf nodePropertiesArray property.name := by
  simp only [dependenciesAt, found]

theorem get?_dependencies (found : nodePropertiesArray[index]? = some property) :
    (getParameterDependencies nodePropertiesArray).get? property.name =
      some (dependenciesAt nodePropertiesArray index) := by
  rw [get?_getParameterDependencies, dependenciesAt_eq found,
    if_pos (List.mem_map_of_mem (List.mem_of_getElem? found))]

theorem resolveTurn_nil (line : state.indexToResolve = []) :
    resolveTurn nodePropertiesArray (getParameterDependencies nodePropertiesArray) state =
      .inl (.ok state.executionOrder) := by
  simp only [resolveTurn, line]

theorem resolveTurn_of_none (line : state.indexToResolve = index :: indexToResolve)
    (found : nodePropertiesArray[index]? = some property) (none : dependenciesAt nodePropertiesArray index = []) :
    resolveTurn nodePropertiesArray (getParameterDependencies nodePropertiesArray) state = .inr
      { state with
        executionOrder := state.executionOrder ++ [index]
        indexToResolve := indexToResolve
        resolvedParameters := state.resolvedParameters ++ [property.name]
        iterations := state.iterations + 1 } := by
  simp only [resolveTurn, line, resolveIndex, found, get?_dependencies found, none, if_true]

/-- The last turn that left fewer indexes in line, for a property with dependencies. -/
def reductionAfter (state : ResolveState) (left : Nat) : Int :=
  if left < state.lastIndexLength then (state.iterations + 1 : Int) else state.lastIndexReduction

theorem resolveTurn_of_some (line : state.indexToResolve = index :: indexToResolve)
    (found : nodePropertiesArray[index]? = some property) (some : dependenciesAt nodePropertiesArray index ≠ []) :
    let missing := (dependenciesAt nodePropertiesArray index).filter (isMissing state.resolvedParameters)
    let left := indexToResolve.length + missing.length
    resolveTurn nodePropertiesArray (getParameterDependencies nodePropertiesArray) state =
      if (state.iterations + 1 : Int) > reductionAfter state left + nodePropertiesArray.length then
        .inl (.error couldNotResolve)
      else .inr
        { executionOrder := state.executionOrder ++ [index]
          indexToResolve := indexToResolve ++ List.replicate missing.length index
          resolvedParameters := state.resolvedParameters ++ [property.name]
          lastIndexLength := left
          lastIndexReduction := reductionAfter state left
          iterations := state.iterations + 1 } := by
  intro missing left
  have again : missing.map (fun _ => index) = List.replicate missing.length index := List.map_const'
  have size : (indexToResolve ++ List.replicate missing.length index).length = left := by
    rw [List.length_append, List.length_replicate]
  simp only [resolveTurn, line, resolveIndex, found, get?_dependencies found, if_neg some]
  rw [show (dependenciesAt nodePropertiesArray index).filter (isMissing state.resolvedParameters) = missing from rfl,
    again, size]
  unfold reductionAfter
  split_ifs <;> rfl

theorem resolveIndexes_unfold (fuel : Nat) (state : ResolveState) :
    resolveIndexes nodePropertiesArray (getParameterDependencies nodePropertiesArray) (fuel + 1) state =
      (resolveTurn nodePropertiesArray (getParameterDependencies nodePropertiesArray) state).elim id
        (resolveIndexes nodePropertiesArray (getParameterDependencies nodePropertiesArray) fuel) := by
  cases line : state.indexToResolve with
  | nil => simp only [resolveIndexes, resolveTurn, line, Sum.elim_inl, id]
  | cons index indexToResolve =>
    simp only [resolveIndexes, resolveTurn, line]
    cases resolveIndex nodePropertiesArray (getParameterDependencies nodePropertiesArray) index indexToResolve state <;>
      rfl

/-- What the loop ends with is what the function returns, when it ends within the turns that the model allows. -/
theorem resolveOrder_eq {turns : Nat} {result : Except Thrown (List Nat)}
    (ends : Turns.Ends (resolveTurn nodePropertiesArray (getParameterDependencies nodePropertiesArray)) turns
      (resolveStart nodePropertiesArray) result)
    (enough : turns ≤ maxTurns nodePropertiesArray (getParameterDependencies nodePropertiesArray)) :
    resolveOrder nodePropertiesArray = result :=
  ends.run resolveIndexes_unfold enough

end

/-! ## The first pass -/

/-- The indexes that the first pass puts back in line before it takes a property. -/
def putBack (nodePropertiesArray : List (INodeProperties Number)) (index : Nat) : List Nat :=
  (List.range index).flatMap fun earlier => List.replicate (missingAt nodePropertiesArray earlier).length earlier

/-- A property misses at least as many dependencies as there are properties after the last one with dependencies, so
that the line is not shorter after it than it was after that one. -/
def KeepsLine (nodePropertiesArray : List (INodeProperties Number)) (index : Nat) : Prop :=
  ∀ first ≤ index,
    (∀ between, first ≤ between → between < index → dependenciesAt nodePropertiesArray between = []) →
      index < (missingAt nodePropertiesArray index).length + first

/-- The last property has dependencies, and no property with dependencies leaves the line shorter. -/
def NeverReduces (nodePropertiesArray : List (INodeProperties Number)) : Prop :=
  dependenciesAt nodePropertiesArray (nodePropertiesArray.length - 1) ≠ [] ∧
    ∀ index, dependenciesAt nodePropertiesArray index ≠ [] → KeepsLine nodePropertiesArray index

/-- The state of the loop when it takes a property for the first time. -/
structure FirstPass (nodePropertiesArray : List (INodeProperties Number)) (index : Nat) (state : ResolveState) :
    Prop where
  executionOrder : state.executionOrder = List.range index
  indexToResolve : state.indexToResolve =
    List.range' index (nodePropertiesArray.length - index) ++ putBack nodePropertiesArray index
  resolvedParameters : state.resolvedParameters = (nodePropertiesArray.take index).map INodeProperties.name
  iterations : state.iterations = index
  /-- The length is that after the last property with dependencies. -/
  lastIndexLength : ∃ first ≤ index,
    (∀ between, first ≤ between → between < index → dependenciesAt nodePropertiesArray between = []) ∧
    (first = 0 ∨ dependenciesAt nodePropertiesArray (first - 1) ≠ []) ∧
    state.lastIndexLength = (putBack nodePropertiesArray first).length + (nodePropertiesArray.length - first)
  lastIndexReduction :
    state.lastIndexReduction = -1 ∧
      (∀ earlier < index, dependenciesAt nodePropertiesArray earlier ≠ [] → KeepsLine nodePropertiesArray earlier) ∨
    0 ≤ state.lastIndexReduction ∧ state.lastIndexReduction ≤ index ∧
      ∃ earlier < index, dependenciesAt nodePropertiesArray earlier ≠ [] ∧ ¬ KeepsLine nodePropertiesArray earlier

section

variable {nodePropertiesArray : List (INodeProperties Number)} {state : ResolveState} {index : Nat}

theorem putBack_succ (index : Nat) : putBack nodePropertiesArray (index + 1) =
    putBack nodePropertiesArray index ++ List.replicate (missingAt nodePropertiesArray index).length index := by
  simp [putBack, List.range_succ]

theorem missingAt_eq_nil (none : dependenciesAt nodePropertiesArray index = []) :
    missingAt nodePropertiesArray index = [] := by
  rw [missingAt, none, List.filter_nil]

theorem putBack_eq {first : Nat} (below : first ≤ index)
    (none : ∀ between, first ≤ between → between < index → dependenciesAt nodePropertiesArray between = []) :
    putBack nodePropertiesArray index = putBack nodePropertiesArray first := by
  induction below with
  | refl => rfl
  | @step index below ih =>
    rw [putBack_succ, missingAt_eq_nil (none index below (Nat.lt_succ_self index)), List.length_nil,
      List.replicate_zero, List.append_nil]
    exact ih fun between above inside => none between above (Nat.lt_succ_of_lt inside)

theorem firstPass_start : FirstPass nodePropertiesArray 0 (resolveStart nodePropertiesArray) where
  executionOrder := rfl
  indexToResolve := by simp [resolveStart, putBack, List.range_eq_range']
  resolvedParameters := rfl
  iterations := rfl
  lastIndexLength := ⟨0, le_rfl, fun _ _ impossible => absurd impossible (Nat.not_lt_zero _), .inl rfl,
    by simp [resolveStart, putBack]⟩
  lastIndexReduction := .inl ⟨rfl, fun _ impossible => absurd impossible (Nat.not_lt_zero _)⟩

theorem FirstPass.line (pass : FirstPass nodePropertiesArray index state)
    (below : index < nodePropertiesArray.length) : state.indexToResolve = index ::
      (List.range' (index + 1) (nodePropertiesArray.length - (index + 1)) ++ putBack nodePropertiesArray index) := by
  rw [pass.indexToResolve, ← List.cons_append, ← List.range'_succ]
  congr 2
  omega

variable {property : INodeProperties Number}

theorem map_take_succ (found : nodePropertiesArray[index]? = some property) :
    (nodePropertiesArray.take (index + 1)).map INodeProperties.name =
      (nodePropertiesArray.take index).map INodeProperties.name ++ [property.name] := by
  rw [List.take_add_one, found, List.map_append]
  rfl

theorem FirstPass.turn_of_none (pass : FirstPass nodePropertiesArray index state)
    (found : nodePropertiesArray[index]? = some property) (none : dependenciesAt nodePropertiesArray index = []) :
    ∃ next, resolveTurn nodePropertiesArray (getParameterDependencies nodePropertiesArray) state = .inr next ∧
      FirstPass nodePropertiesArray (index + 1) next := by
  have below : index < nodePropertiesArray.length := (List.getElem?_eq_some_iff.mp found).1
  refine ⟨_, resolveTurn_of_none (pass.line below) found none, ?_⟩
  obtain ⟨first, firstBelow, plain, starts, length⟩ := pass.lastIndexLength
  constructor
  · rw [pass.executionOrder, List.range_succ]
  · rw [putBack_succ, missingAt_eq_nil none, List.length_nil, List.replicate_zero, List.append_nil]
  · rw [pass.resolvedParameters, map_take_succ found]
  · rw [pass.iterations]
  · refine ⟨first, Nat.le_succ_of_le firstBelow, fun between above inside => ?_, starts, length⟩
    obtain before | rfl := Nat.lt_succ_iff_lt_or_eq.mp inside
    · exact plain between above before
    · exact none
  · obtain ⟨unreduced, keeps⟩ | ⟨low, high, earlier, before, reduces⟩ := pass.lastIndexReduction
    · refine .inl ⟨unreduced, fun earlier before dependent => ?_⟩
      obtain before | rfl := Nat.lt_succ_iff_lt_or_eq.mp before
      · exact keeps earlier before dependent
      · exact absurd none dependent
    · exact .inr ⟨low, by push_cast; omega, earlier, Nat.lt_succ_of_lt before, reduces⟩

/-- The line gets shorter exactly at a property that does not keep it. -/
theorem FirstPass.shorter_iff (pass : FirstPass nodePropertiesArray index state)
    (below : index < nodePropertiesArray.length) :
    (List.range' (index + 1) (nodePropertiesArray.length - (index + 1)) ++ putBack nodePropertiesArray index).length +
        (missingAt nodePropertiesArray index).length < state.lastIndexLength ↔
      ¬ KeepsLine nodePropertiesArray index := by
  obtain ⟨first, firstBelow, plain, starts, length⟩ := pass.lastIndexLength
  have same := congrArg List.length (putBack_eq firstBelow plain)
  rw [length, List.length_append, List.length_range']
  constructor
  · intro shorter keeps
    have kept := keeps first firstBelow plain
    omega
  · intro reduces
    by_contra longer
    refine reduces fun other otherBelow otherPlain => ?_
    -- the last property with dependencies is before every row of properties without
    have after : first ≤ other := by
      by_contra before
      obtain rfl | dependent := starts
      · omega
      · exact dependent (otherPlain (first - 1) (by omega) (by omega))
    omega

/-- A property with dependencies ends the loop exactly when it is the last one and no property made the line
shorter. -/
theorem FirstPass.turn_of_some (pass : FirstPass nodePropertiesArray index state)
    (found : nodePropertiesArray[index]? = some property) (dependent : dependenciesAt nodePropertiesArray index ≠ []) :
    (NeverReduces nodePropertiesArray ∧
      resolveTurn nodePropertiesArray (getParameterDependencies nodePropertiesArray) state =
        .inl (.error couldNotResolve)) ∨
    (index + 1 = nodePropertiesArray.length → ¬ NeverReduces nodePropertiesArray) ∧
      ∃ next, resolveTurn nodePropertiesArray (getParameterDependencies nodePropertiesArray) state = .inr next ∧
        FirstPass nodePropertiesArray (index + 1) next := by
  have below : index < nodePropertiesArray.length := (List.getElem?_eq_some_iff.mp found).1
  have turn := resolveTurn_of_some (pass.line below) found dependent
  have missing : (dependenciesAt nodePropertiesArray index).filter (isMissing state.resolvedParameters) =
      missingAt nodePropertiesArray index := by
    rw [pass.resolvedParameters, missingAt]
  simp only [missing] at turn
  have shorter := pass.shorter_iff below
  set later := List.range' (index + 1) (nodePropertiesArray.length - (index + 1)) ++ putBack nodePropertiesArray index
    with later_eq
  -- the last turn so far that made the line shorter
  have reduction : reductionAfter state (later.length + (missingAt nodePropertiesArray index).length) = -1 ∧
        (∀ earlier < index + 1, dependenciesAt nodePropertiesArray earlier ≠ [] →
          KeepsLine nodePropertiesArray earlier) ∨
      0 ≤ reductionAfter state (later.length + (missingAt nodePropertiesArray index).length) ∧
        reductionAfter state (later.length + (missingAt nodePropertiesArray index).length) ≤ index + 1 ∧
        ∃ earlier < index + 1, dependenciesAt nodePropertiesArray earlier ≠ [] ∧
          ¬ KeepsLine nodePropertiesArray earlier := by
    unfold reductionAfter
    split_ifs with reduces
    · refine .inr ⟨by omega, by rw [pass.iterations], index, Nat.lt_succ_self index, dependent, shorter.mp reduces⟩
    · obtain ⟨unreduced, keeps⟩ | ⟨low, high, earlier, before, reduced⟩ := pass.lastIndexReduction
      · refine .inl ⟨unreduced, fun earlier before => ?_⟩
        obtain before | rfl := Nat.lt_succ_iff_lt_or_eq.mp before
        · exact keeps earlier before
        · exact fun _ => not_not.mp (mt shorter.mpr reduces)
      · exact .inr ⟨low, by omega, earlier, Nat.lt_succ_of_lt before, reduced⟩
  rw [pass.iterations] at turn
  split_ifs at turn with late
  · -- only the last property is late, and only when no property made the line shorter
    obtain ⟨unreduced, keeps⟩ | ⟨low, _⟩ := reduction
    · refine .inl ⟨⟨?_, fun earlier dependentToo => keeps earlier ?_ dependentToo⟩, turn⟩
      · rwa [show nodePropertiesArray.length - 1 = index by omega]
      · have inside : earlier < nodePropertiesArray.length := by
          by_contra outside
          exact dependentToo (by simp only [dependenciesAt, List.getElem?_eq_none (not_lt.mp outside)])
        omega
    · omega
  · refine .inr ⟨fun last never => ?_, _, turn, ?_⟩
    · obtain ⟨unreduced, _⟩ | ⟨_, _, earlier, _, dependentToo, reduces⟩ := reduction
      · omega
      · exact reduces (never.2 earlier dependentToo)
    · constructor
      · rw [pass.executionOrder, List.range_succ]
      · rw [putBack_succ, later_eq, List.append_assoc]
      · rw [pass.resolvedParameters, map_take_succ found]
      · rfl
      · refine ⟨index + 1, le_rfl, fun between above inside => absurd (above.trans_lt inside) (lt_irrefl _),
          .inr dependent, ?_⟩
        rw [putBack_succ, later_eq]
        simp only [List.length_append, List.length_range', List.length_replicate]
        omega
      · exact reduction

/-- The first pass gets to the end of the list, unless it never makes the line shorter. -/
theorem firstPass_or_throws (index : Nat) (below : index ≤ nodePropertiesArray.length) :
    (NeverReduces nodePropertiesArray ∧ ∃ turns ≤ index,
      Turns.Ends (resolveTurn nodePropertiesArray (getParameterDependencies nodePropertiesArray)) turns
        (resolveStart nodePropertiesArray) (.error couldNotResolve)) ∨
    (index = nodePropertiesArray.length → ¬ NeverReduces nodePropertiesArray) ∧
      ∃ state, Turns.Goes (resolveTurn nodePropertiesArray (getParameterDependencies nodePropertiesArray))
        (resolveStart nodePropertiesArray) index state ∧ FirstPass nodePropertiesArray index state := by
  induction index with
  | zero =>
    refine .inr ⟨fun empty never => never.1 ?_, _, .refl, firstPass_start⟩
    simp only [dependenciesAt, List.eq_nil_of_length_eq_zero empty.symm, List.getElem?_nil]
  | succ index ih =>
    obtain ⟨never, turns, few, ends⟩ | ⟨_, state, goes, pass⟩ := ih (Nat.le_of_succ_le below)
    · exact .inl ⟨never, turns, Nat.le_succ_of_le few, ends⟩
    · have found : nodePropertiesArray[index]? = some nodePropertiesArray[index] := List.getElem?_eq_getElem below
      by_cases none : dependenciesAt nodePropertiesArray index = []
      · obtain ⟨next, turn, passed⟩ := pass.turn_of_none found none
        refine .inr ⟨fun last never => never.1 ?_, next, .turn goes turn, passed⟩
        rwa [← last, Nat.add_sub_cancel]
      · obtain ⟨never, throws⟩ | ⟨reduced, next, turn, passed⟩ := pass.turn_of_some found none
        · exact .inl ⟨never, index + 1, le_rfl, goes.ends (.now throws)⟩
        · exact .inr ⟨reduced, next, .turn goes turn, passed⟩

end

/-! ## The indexes that were put back -/

/-- The dependencies of a property that refer to no property of the list. -/
def unknownAt (nodePropertiesArray : List (INodeProperties Number)) (index : Nat) : List String :=
  (dependenciesAt nodePropertiesArray index).filter (isMissing (nodePropertiesArray.map INodeProperties.name))

/-- The state of the loop after the first pass: every name is resolved. -/
structure SecondPass (nodePropertiesArray : List (INodeProperties Number)) (state : ResolveState) : Prop where
  resolved : ∀ name, name ∈ state.resolvedParameters ↔ name ∈ nodePropertiesArray.map INodeProperties.name
  dependent : ∀ index ∈ state.indexToResolve, dependenciesAt nodePropertiesArray index ≠ []
  length : state.indexToResolve.length ≤ state.lastIndexLength

section

variable {nodePropertiesArray : List (INodeProperties Number)} {state : ResolveState} {index : Nat}

theorem found_of_dependent (dependent : dependenciesAt nodePropertiesArray index ≠ []) :
    ∃ property, nodePropertiesArray[index]? = some property := by
  cases found : nodePropertiesArray[index]? with
  | none => exact absurd (by simp only [dependenciesAt, found]) dependent
  | some property => exact ⟨property, rfl⟩

theorem mem_putBack {bound : Nat} :
    index ∈ putBack nodePropertiesArray bound ↔ index < bound ∧ missingAt nodePropertiesArray index ≠ [] := by
  simp only [putBack, List.mem_flatMap, List.mem_range, List.mem_replicate, ne_eq, List.length_eq_zero_iff]
  constructor
  · rintro ⟨earlier, before, missing, rfl⟩
    exact ⟨before, missing⟩
  · rintro ⟨before, missing⟩
    exact ⟨index, before, missing, rfl⟩

theorem dependent_of_missing (missing : missingAt nodePropertiesArray index ≠ []) :
    dependenciesAt nodePropertiesArray index ≠ [] := mt missingAt_eq_nil missing

theorem missing_of_unknown (unknown : unknownAt nodePropertiesArray index ≠ []) :
    missingAt nodePropertiesArray index ≠ [] := by
  obtain ⟨dependency, member⟩ := List.exists_mem_of_ne_nil _ unknown
  obtain ⟨inside, missing⟩ := List.mem_filter.mp member
  refine List.ne_nil_of_mem (List.mem_filter.mpr ⟨inside, ?_⟩)
  simp only [isMissing, decide_eq_true_eq] at missing ⊢
  refine ⟨fun resolved => missing.1 ?_, missing.2⟩
  exact List.map_subset _ (List.take_subset index nodePropertiesArray) resolved

theorem allKnown_iff :
    AllKnown nodePropertiesArray ↔ ∀ index, unknownAt nodePropertiesArray index = [] := by
  constructor
  · intro known index
    refine List.filter_eq_nil_iff.mpr fun dependency member missing => ?_
    simp only [isMissing, decide_eq_true_eq] at missing
    obtain ⟨property, found⟩ := found_of_dependent (List.ne_nil_of_mem member)
    rw [dependenciesAt_eq found] at member
    obtain ⟨source, inside, _, named, plain⟩ := mem_dependenciesOf.mp member
    obtain ⟨other, otherInside, same⟩ := known source inside dependency
      (List.mem_filter.mpr ⟨named, by simpa using ⟨plain, missing.2⟩⟩)
    exact missing.1 (List.mem_map.mpr ⟨other, otherInside, same⟩)
  · intro known property inside name named
    obtain ⟨index, found⟩ := List.getElem?_of_mem inside
    obtain ⟨declared, plain⟩ := List.mem_filter.mp named
    simp only [ne_eq, decide_eq_true_eq] at plain
    have member : name ∈ dependenciesAt nodePropertiesArray index := by
      rw [dependenciesAt_eq found]
      exact mem_dependenciesOf.mpr ⟨property, inside, rfl, declared, plain.1⟩
    have present := List.filter_eq_nil_iff.mp (known index) name member
    simp only [isMissing, decide_eq_true_eq, not_and, not_not] at present
    have resolved : name ∈ nodePropertiesArray.map INodeProperties.name := by
      by_contra missing
      exact plain.2 (present missing)
    exact List.mem_map.mp resolved

theorem FirstPass.secondPass (pass : FirstPass nodePropertiesArray nodePropertiesArray.length state) :
    state.indexToResolve = putBack nodePropertiesArray nodePropertiesArray.length ∧
      SecondPass nodePropertiesArray state := by
  have line : state.indexToResolve = putBack nodePropertiesArray nodePropertiesArray.length := by
    rw [pass.indexToResolve, Nat.sub_self, List.range'_zero, List.nil_append]
  refine ⟨line, fun name => ?_, fun index member => ?_, ?_⟩
  · rw [pass.resolvedParameters, List.take_length]
  · rw [line] at member
    exact dependent_of_missing (mem_putBack.mp member).2
  · obtain ⟨first, below, plain, _, length⟩ := pass.lastIndexLength
    rw [length, line, putBack_eq below plain]
    exact Nat.le_add_right _ _

/-- A turn adds the index that is first in line, and puts it back for each of its unknown dependencies. -/
theorem SecondPass.turn (pass : SecondPass nodePropertiesArray state) {indexToResolve : List Nat}
    (line : state.indexToResolve = index :: indexToResolve) :
    let left := indexToResolve.length + (unknownAt nodePropertiesArray index).length
    ((state.iterations + 1 : Int) > reductionAfter state left + nodePropertiesArray.length ∧
      resolveTurn nodePropertiesArray (getParameterDependencies nodePropertiesArray) state =
        .inl (.error couldNotResolve)) ∨
    (state.iterations + 1 : Int) ≤ reductionAfter state left + nodePropertiesArray.length ∧
      ∃ next, resolveTurn nodePropertiesArray (getParameterDependencies nodePropertiesArray) state = .inr next ∧
        SecondPass nodePropertiesArray next ∧
        next.executionOrder = state.executionOrder ++ [index] ∧
        next.indexToResolve =
          indexToResolve ++ List.replicate (unknownAt nodePropertiesArray index).length index ∧
        next.lastIndexLength = left ∧ next.lastIndexReduction = reductionAfter state left ∧
        next.iterations = state.iterations + 1 := by
  intro left
  have dependent : dependenciesAt nodePropertiesArray index ≠ [] :=
    pass.dependent index (by rw [line]; exact List.mem_cons_self)
  obtain ⟨property, found⟩ := found_of_dependent dependent
  have turn := resolveTurn_of_some line found dependent
  have unknown : (dependenciesAt nodePropertiesArray index).filter (isMissing state.resolvedParameters) =
      unknownAt nodePropertiesArray index := by
    refine List.filter_congr fun dependency _ => ?_
    simp only [isMissing, pass.resolved]
  simp only [unknown] at turn
  split_ifs at turn with late
  · exact .inl ⟨late, turn⟩
  · refine .inr ⟨not_lt.mp late, _, turn, ⟨fun name => ?_, fun other member => ?_, ?_⟩, rfl, rfl, rfl, rfl, rfl⟩
    · have inside : property.name ∈ nodePropertiesArray.map INodeProperties.name :=
        List.mem_map_of_mem (List.mem_of_getElem? found)
      rw [List.mem_append, List.mem_singleton, pass.resolved]
      exact ⟨fun either => either.elim id (· ▸ inside), .inl⟩
    · obtain before | again := List.mem_append.mp member
      · exact pass.dependent other (by rw [line]; exact List.mem_cons_of_mem index before)
      · rwa [List.eq_of_mem_replicate again]
    · simp

/-- When every dependency is known, what was put back is added a second time. -/
theorem SecondPass.ends_of_known (known : AllKnown nodePropertiesArray) (pass : SecondPass nodePropertiesArray state) :
    Turns.Ends (resolveTurn nodePropertiesArray (getParameterDependencies nodePropertiesArray))
      (state.indexToResolve.length + 1) state (.ok (state.executionOrder ++ state.indexToResolve)) := by
  generalize line : state.indexToResolve = indexToResolve
  induction indexToResolve generalizing state with
  | nil =>
    rw [List.append_nil]
    exact .now (resolveTurn_nil line)
  | cons index rest ih =>
    have none := allKnown_iff.mp known index
    have before := pass.length
    have turn := pass.turn line
    rw [line, List.length_cons] at before
    simp only [none, List.length_nil, Nat.add_zero, List.replicate_zero, List.append_nil] at turn
    have reduction : reductionAfter state rest.length = state.iterations + 1 := if_pos before
    obtain ⟨late, _⟩ | ⟨_, next, step, passed, order, nextLine, _⟩ := turn
    · omega
    · have ends := ih passed nextLine
      rw [order, List.append_assoc] at ends
      exact .later step ends

/-! An index with an unknown dependency never leaves the line.  Every other one does, and after that the line does not
get shorter any more. -/

/-- The indexes in line without unknown dependencies, and one more while the line is shorter than it was. -/
def reductionsLeft (nodePropertiesArray : List (INodeProperties Number)) (state : ResolveState) : Nat :=
  state.indexToResolve.countP (fun index => (unknownAt nodePropertiesArray index).isEmpty) +
    if state.indexToResolve.length < state.lastIndexLength then 1 else 0

/-- The turns that are left when the line does not get shorter. -/
def turnsLeft (nodePropertiesArray : List (INodeProperties Number)) (state : ResolveState) : Nat :=
  (state.lastIndexReduction + nodePropertiesArray.length + 1 - state.iterations).toNat

/-- An index in line has an unknown dependency. -/
structure Stuck (nodePropertiesArray : List (INodeProperties Number)) (state : ResolveState) : Prop
    extends SecondPass nodePropertiesArray state where
  unknown : ∃ index ∈ state.indexToResolve, unknownAt nodePropertiesArray index ≠ []

theorem Stuck.turn (stuck : Stuck nodePropertiesArray state) :
    resolveTurn nodePropertiesArray (getParameterDependencies nodePropertiesArray) state =
        .inl (.error couldNotResolve) ∨
    ∃ next, resolveTurn nodePropertiesArray (getParameterDependencies nodePropertiesArray) state = .inr next ∧
      Stuck nodePropertiesArray next ∧
      (reductionsLeft nodePropertiesArray next < reductionsLeft nodePropertiesArray state ∧
          turnsLeft nodePropertiesArray next ≤ nodePropertiesArray.length + 1 ∨
        reductionsLeft nodePropertiesArray next ≤ reductionsLeft nodePropertiesArray state ∧
          turnsLeft nodePropertiesArray next < turnsLeft nodePropertiesArray state) := by
  obtain ⟨other, inside, unknown⟩ := stuck.unknown
  obtain ⟨index, rest, line⟩ := List.exists_cons_of_ne_nil (List.ne_nil_of_mem inside)
  obtain ⟨_, throws⟩ | ⟨inTime, next, step, passed, _, nextLine, nextLength, nextReduction, nextIterations⟩ :=
    stuck.toSecondPass.turn line
  · exact .inl throws
  refine .inr ⟨next, step, ⟨passed, ?_⟩, ?_⟩
  · rw [line, List.mem_cons] at inside
    rw [nextLine]
    obtain rfl | later := inside
    · have some : (unknownAt nodePropertiesArray other).length ≠ 0 := mt List.length_eq_zero_iff.mp unknown
      exact ⟨other, List.mem_append_right rest (List.mem_replicate.mpr ⟨some, rfl⟩), unknown⟩
    · exact ⟨other, List.mem_append_left _ later, unknown⟩
  have before := stuck.length
  rw [line, List.length_cons] at before
  simp only [turnsLeft, nextReduction, nextIterations]
  -- after the turn the line is as long as it was then
  have steady : reductionsLeft nodePropertiesArray next =
      next.indexToResolve.countP (fun index => (unknownAt nodePropertiesArray index).isEmpty) := by
    rw [reductionsLeft, nextLength, nextLine]
    simp
  rw [steady, nextLine, reductionsLeft, line, List.countP_append, List.countP_cons, List.length_cons]
  unfold reductionAfter at inTime ⊢
  cases none : unknownAt nodePropertiesArray index with
  | nil =>
    simp only [none, List.length_nil, Nat.add_zero, List.replicate_zero, List.countP_nil, List.isEmpty_nil, if_true]
      at inTime ⊢
    have shorter : rest.length < state.lastIndexLength := before
    rw [if_pos shorter]
    exact .inl ⟨by omega, by push_cast; omega⟩
  | cons dependency dependencies =>
    have uncounted : (List.replicate (dependency :: dependencies).length index).countP
        (fun index => (unknownAt nodePropertiesArray index).isEmpty) = 0 := by
      rw [List.countP_eq_zero]
      intro again member
      rw [List.eq_of_mem_replicate member, none]
      simp
    rw [none, List.length_cons] at inTime
    rw [uncounted, List.length_cons, List.isEmpty_cons, if_neg Bool.false_ne_true, Nat.add_zero, Nat.add_zero]
    by_cases shorter : rest.length + (dependencies.length + 1) < state.lastIndexLength
    · have was : rest.length + 1 < state.lastIndexLength := by omega
      rw [if_pos shorter, if_pos was]
      exact .inl ⟨Nat.lt_succ_self _, by push_cast; omega⟩
    · rw [if_neg shorter] at inTime ⊢
      exact .inr ⟨Nat.le_add_right _ _, by push_cast; omega⟩

/-- An unknown dependency makes the loop throw in the end. -/
theorem Stuck.ends (stuck : Stuck nodePropertiesArray state) :
    ∃ turns ≤ reductionsLeft nodePropertiesArray state * (nodePropertiesArray.length + 2) +
        turnsLeft nodePropertiesArray state + 1,
      Turns.Ends (resolveTurn nodePropertiesArray (getParameterDependencies nodePropertiesArray)) turns state
        (.error couldNotResolve) := by
  obtain ⟨turns, few, result, ends, rfl⟩ := Turns.ends_of_potential
    (fun _ stuck => stuck.turn.imp_left fun throws => ⟨_, throws, rfl⟩) stuck
  exact ⟨turns, few, ends⟩

end

/-! ## The whole loop -/

section

variable {nodePropertiesArray : List (INodeProperties Number)}

theorem length_putBack_le {index : Nat} (below : index ≤ nodePropertiesArray.length) :
    (putBack nodePropertiesArray index).length ≤
      ((nodePropertiesArray.take index).map fun property =>
        (dependenciesOf nodePropertiesArray property.name).length).sum := by
  induction index with
  | zero => exact Nat.zero_le _
  | succ index ih =>
    have found : nodePropertiesArray[index]? = some nodePropertiesArray[index] := List.getElem?_eq_getElem below
    have some : (missingAt nodePropertiesArray index).length ≤
        (dependenciesOf nodePropertiesArray nodePropertiesArray[index].name).length := by
      rw [← dependenciesAt_eq found]
      exact List.length_filter_le _ _
    rw [putBack_succ, List.length_append, List.length_replicate, List.take_add_one, found, List.map_append,
      List.sum_append]
    simpa using Nat.add_le_add (ih (Nat.le_of_succ_le below)) some

theorem FirstPass.stuck {state : ResolveState} (pass : FirstPass nodePropertiesArray nodePropertiesArray.length state)
    (unknown : ¬ AllKnown nodePropertiesArray) : Stuck nodePropertiesArray state := by
  obtain ⟨line, passed⟩ := pass.secondPass
  rw [allKnown_iff, not_forall] at unknown
  obtain ⟨index, unknown⟩ := unknown
  have missing := missing_of_unknown unknown
  obtain ⟨property, found⟩ := found_of_dependent (dependent_of_missing missing)
  refine ⟨passed, index, ?_, unknown⟩
  rw [line]
  exact mem_putBack.mpr ⟨(List.getElem?_eq_some_iff.mp found).1, missing⟩

/-- After the first pass there are fewer reductions left than indexes in line, since one of them is stuck. -/
theorem Stuck.reductionsLeft_le {state : ResolveState} (stuck : Stuck nodePropertiesArray state) :
    reductionsLeft nodePropertiesArray state ≤ state.indexToResolve.length := by
  obtain ⟨index, inside, unknown⟩ := stuck.unknown
  have fewer : state.indexToResolve.countP (fun index => (unknownAt nodePropertiesArray index).isEmpty) <
      state.indexToResolve.length := by
    refine lt_of_le_of_ne List.countP_le_length fun all => unknown ?_
    simpa using List.countP_eq_length.mp all index inside
  unfold reductionsLeft
  split <;> omega

/-- The first pass, a reduction for each index that is put back, and the turns after the last reduction. -/
theorem turns_le_maxTurns (nodePropertiesArray : List (INodeProperties Number)) :
    nodePropertiesArray.length + (putBack nodePropertiesArray nodePropertiesArray.length).length *
        (nodePropertiesArray.length + 2) + (nodePropertiesArray.length + 2) ≤
      maxTurns nodePropertiesArray (getParameterDependencies nodePropertiesArray) := by
  have count := length_putBack_le (le_refl nodePropertiesArray.length)
  rw [List.take_length] at count
  have scaled := Nat.mul_le_mul_right (nodePropertiesArray.length + 2) (Nat.succ_le_succ count)
  rw [Nat.succ_mul] at scaled
  rw [Nat.add_assoc]
  exact Nat.add_le_add_left scaled _

/-- The loop ends, and it throws when the line never gets shorter in the first pass or when a dependency is
unknown. -/
theorem resolve_ends (nodePropertiesArray : List (INodeProperties Number)) :
    ∃ turns ≤ maxTurns nodePropertiesArray (getParameterDependencies nodePropertiesArray), ∃ result,
      Turns.Ends (resolveTurn nodePropertiesArray (getParameterDependencies nodePropertiesArray)) turns
        (resolveStart nodePropertiesArray) result ∧
      ((NeverReduces nodePropertiesArray ∨ ¬ AllKnown nodePropertiesArray) ∧ result = .error couldNotResolve ∨
        ¬ NeverReduces nodePropertiesArray ∧ AllKnown nodePropertiesArray ∧
          result = .ok (List.range nodePropertiesArray.length ++
            putBack nodePropertiesArray nodePropertiesArray.length)) := by
  have bound := turns_le_maxTurns nodePropertiesArray
  obtain ⟨never, turns, few, ends⟩ | ⟨reduces, state, goes, pass⟩ :=
    firstPass_or_throws _ (le_refl nodePropertiesArray.length)
  · exact ⟨turns, by omega, _, ends, .inl ⟨.inl never, rfl⟩⟩
  obtain ⟨line, passed⟩ := pass.secondPass
  by_cases known : AllKnown nodePropertiesArray
  · have ends := goes.ends (passed.ends_of_known known)
    refine ⟨_, ?_, _, ends, .inr ⟨reduces rfl, known, by rw [pass.executionOrder, line]⟩⟩
    have unscaled : (putBack nodePropertiesArray nodePropertiesArray.length).length ≤
        (putBack nodePropertiesArray nodePropertiesArray.length).length * (nodePropertiesArray.length + 2) :=
      Nat.le_mul_of_pos_right _ (Nat.succ_pos _)
    rw [line]
    omega
  · have stuck := pass.stuck known
    obtain ⟨turns, few, ends⟩ := stuck.ends
    refine ⟨_, ?_, _, goes.ends ends, .inl ⟨.inr known, rfl⟩⟩
    have left : turnsLeft nodePropertiesArray state ≤ nodePropertiesArray.length + 1 := by
      unfold turnsLeft
      rw [pass.iterations]
      obtain ⟨unreduced, _⟩ | ⟨_, high, _⟩ := pass.lastIndexReduction <;> omega
    have reductions := Nat.mul_le_mul_right (nodePropertiesArray.length + 2) stuck.reductionsLeft_le
    rw [line] at reductions
    omega

/-- Every property is declared after the properties that it depends on, and no dependency that is kept under its name
is missing there. -/
def DeclaredInOrder (nodePropertiesArray : List (INodeProperties Number)) : Prop :=
  ∀ index, missingAt nodePropertiesArray index = [] ∧
    ∀ other, DependsOn nodePropertiesArray index other → other < index

theorem DeclaredInOrder.putBack_eq_nil (declared : DeclaredInOrder nodePropertiesArray) (bound : Nat) :
    putBack nodePropertiesArray bound = [] :=
  List.eq_nil_iff_forall_not_mem.mpr fun index member => (mem_putBack.mp member).2 (declared index).1

theorem DeclaredInOrder.not_neverReduces (declared : DeclaredInOrder nodePropertiesArray) :
    ¬ NeverReduces nodePropertiesArray := by
  intro never
  have keeps := never.2 _ never.1 _ le_rfl fun _ above inside => absurd (above.trans_lt inside) (lt_irrefl _)
  rw [(declared _).1, List.length_nil, Nat.zero_add] at keeps
  exact lt_irrefl _ keeps

theorem idxOf_range {index bound : Nat} (below : index < bound) : (List.range bound).idxOf index = index := by
  have found := List.nodup_range.idxOf_getElem index (by simpa using below)
  simpa using found

/-- Where every dependency refers to a property of the list, the order is topological only when the properties are
declared in such an order, and a cycle is noticed only when the line never gets shorter. -/
theorem getParameterResolveOrder_resolvesInOrder_iff (nodePropertiesArray : List (INodeProperties Number)) :
    ResolvesInOrder nodePropertiesArray ↔ (AllKnown nodePropertiesArray →
      (Acyclic nodePropertiesArray → DeclaredInOrder nodePropertiesArray) ∧
      (¬ Acyclic nodePropertiesArray → NeverReduces nodePropertiesArray)) := by
  obtain ⟨turns, few, result, ends, cases⟩ := resolve_ends nodePropertiesArray
  have value := resolveOrder_eq ends few
  constructor
  · intro promised known
    constructor
    · intro acyclic
      obtain ⟨executionOrder, returned, permuted, after⟩ := promised.ordered known acyclic
      rw [value] at returned
      obtain ⟨_, rfl⟩ | ⟨_, _, rfl⟩ := cases
      · cases returned
      · cases returned
        -- an order of the right length has nothing that was put back
        have length := permuted.length_eq
        rw [List.length_append, Nat.add_eq_left, List.length_eq_zero_iff] at length
        rw [length, List.append_nil] at after
        intro index
        constructor
        · by_contra missing
          obtain ⟨property, found⟩ := found_of_dependent (dependent_of_missing missing)
          have member := mem_putBack.mpr ⟨(List.getElem?_eq_some_iff.mp found).1, missing⟩
          rw [length] at member
          cases member
        · intro other depends
          have earlier := after index other depends
          obtain ⟨property, found, otherProperty, otherFound, _⟩ := depends
          rwa [idxOf_range (List.getElem?_eq_some_iff.mp otherFound).1,
            idxOf_range (List.getElem?_eq_some_iff.mp found).1] at earlier
    · intro cyclic
      obtain ⟨error, thrown⟩ := promised.throws fun both => cyclic both.2
      rw [value] at thrown
      obtain ⟨never | unknown, _⟩ | ⟨_, _, rfl⟩ := cases
      · exact never
      · exact absurd known unknown
      · cases thrown
  · intro condition
    refine ⟨⟨turns, value ▸ ends⟩, fun known acyclic => ?_, fun violated => ?_⟩
    · have declared := (condition known).1 acyclic
      obtain ⟨never | unknown, _⟩ | ⟨_, _, rfl⟩ := cases
      · exact absurd never declared.not_neverReduces
      · exact absurd known unknown
      · rw [declared.putBack_eq_nil, List.append_nil] at value
        refine ⟨_, value, .refl _, fun index other depends => ?_⟩
        have earlier := (declared index).2 other depends
        obtain ⟨property, found, otherProperty, otherFound, _⟩ := depends
        rwa [idxOf_range (List.getElem?_eq_some_iff.mp otherFound).1,
          idxOf_range (List.getElem?_eq_some_iff.mp found).1]
    · obtain ⟨_, rfl⟩ | ⟨reduces, known, _⟩ := cases
      · exact ⟨_, value⟩
      · exact absurd ((condition known).2 fun acyclic => violated ⟨known, acyclic⟩) reduces

end

/-- The operations of a resource, declared before the resource itself. -/
def operationBeforeResource : List (INodeProperties Nat) :=
  [.simple { name := "operation", default := .undefined
             displayOptions := some { «show» := some [("resource", [.value (.string "user")])] } } .options,
    .simple { name := "resource", default := .undefined } .options]

/-- The operation is in the order twice, and first it is before the resource. -/
theorem operation_resolved_twice : ¬ ResolvesInOrder operationBeforeResource := by
  have dependsOn : ∀ index other, DependsOn operationBeforeResource index other → index = 0 ∧ other = 1 := by
    rintro index other ⟨property, found, otherProperty, otherFound, named⟩
    match index with
    | 0 =>
      match other with
      | 0 => cases found; cases otherFound; exact absurd named (by decide)
      | 1 => exact ⟨rfl, rfl⟩
      | other + 2 => exact absurd otherFound nofun
    | 1 => cases found; exact absurd named nofun
    | index + 2 => exact absurd found nofun
  have acyclic : Acyclic operationBeforeResource :=
    acyclic_of_rank (1 - ·) fun index other depends => by
      obtain ⟨rfl, rfl⟩ := dependsOn index other depends
      decide
  have known : AllKnown operationBeforeResource := by
    intro property inside name named
    obtain rfl | rfl : property = _ ∨ property = _ := by simpa [operationBeforeResource] using inside
    · obtain rfl : name = "resource" := List.mem_singleton.mp named
      exact ⟨_, List.mem_cons_of_mem _ List.mem_cons_self, rfl⟩
    · exact absurd named nofun
  intro promised
  obtain ⟨executionOrder, returned, permuted, _⟩ := promised.ordered known acyclic
  have computed : resolveOrder operationBeforeResource = .ok [0, 1, 0] := by rfl
  cases computed.symm.trans returned
  exact absurd permuted.length_eq (by decide)

end N8n.NodeHelpers
