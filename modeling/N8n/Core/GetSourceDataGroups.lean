import Mathlib.Data.List.Sort
import N8n.Core.DirectedGraph

/-! # Groups of incoming connections

`getSourceDataGroups` of
`packages/core/src/execution-engine/partial-execution-utils/get-source-data-groups.ts`.
A group has one connection for each input at most.  How two names compare is a
parameter, since `localeCompare` depends on the locale.
-/

namespace N8n.Core

variable {Item : Type}

structure SourceConnectionGroup where
  /-- All connections have data. -/
  complete : Bool
  connections : List GraphConnection
deriving DecidableEq

def newGroup : SourceConnectionGroup := ⟨true, []⟩

/-- `connection1` does not come after `connection2`. -/
def sortByInputIndexThenByName (localeCompare : String → String → Ordering)
    (connection1 connection2 : GraphConnection) : Prop :=
  if connection1.inputIndex = connection2.inputIndex then
    localeCompare connection1.from.name connection2.from.name ≠ .gt
  else connection1.inputIndex ≤ connection2.inputIndex

instance (localeCompare : String → String → Ordering) :
    DecidableRel (sortByInputIndexThenByName localeCompare) := fun _ _ =>
  inferInstanceAs (Decidable (ite _ _ _))

/-- `Math.min` of the input indexes; the lists are not both empty when it is used. -/
def minInputIndex (connections : List GraphConnection) : Nat :=
  ((connections.map (·.inputIndex)).min?).getD 0

/-- The `while` loop.  `inputIndex` is `currentInputIndex` after its increment; the fuel is more
than the number of turns. -/
def collectGroups : Nat → List GraphConnection → List GraphConnection → SourceConnectionGroup → Nat →
    List SourceConnectionGroup
  | 0, _, _, currentGroup, _ => [currentGroup]
  | fuel + 1, withData, withoutData, currentGroup, inputIndex =>
    if withData.isEmpty && withoutData.isEmpty then [currentGroup]
    else
      match withData.find? (·.inputIndex = inputIndex) with
      | some connection =>
        collectGroups fuel (withData.erase connection) withoutData
          { currentGroup with connections := currentGroup.connections ++ [connection] } (inputIndex + 1)
      | none =>
        match withoutData.find? (·.inputIndex = inputIndex) with
        | some connection =>
          collectGroups fuel withData (withoutData.erase connection)
            { complete := false, connections := currentGroup.connections ++ [connection] } (inputIndex + 1)
        | none =>
          currentGroup ::
            collectGroups fuel withData withoutData newGroup (minInputIndex (withData ++ withoutData))

def getSourceDataGroups (localeCompare : String → String → Ordering) (graph : DirectedGraph) (node : INode)
    (runData : IRunData Item) (pinnedData : IPinData Item) : List SourceConnectionGroup :=
  let connections := graph.getConnections (some node)
  let hasData (connection : GraphConnection) : Bool :=
    runData.has connection.from.name || pinnedData.has connection.from.name
  let withData := connections.filter hasData
  let withoutData := connections.filter (!hasData ·)
  if connections.isEmpty then []
  else
    let sorted := fun connections : List GraphConnection =>
      connections.insertionSort (sortByInputIndexThenByName localeCompare)
    collectGroups (2 * connections.length + 1) (sorted withData) (sorted withoutData) newGroup
      (minInputIndex connections)

/-! ## Every connection is in one group -/

theorem exists_inputIndex_eq_min {connections : List GraphConnection} (notEmpty : connections ≠ []) :
    ∃ connection ∈ connections, connection.inputIndex = minInputIndex connections := by
  rw [minInputIndex]
  cases least : (connections.map (·.inputIndex)).min? with
  | none => simp [notEmpty] at least
  | some index =>
    have member := (List.min?_eq_some_iff.mp least).1
    obtain ⟨connection, inside, equal⟩ := List.mem_map.mp member
    exact ⟨connection, inside, equal⟩

theorem collectGroups_perm (fuel : Nat) : ∀ withData withoutData currentGroup inputIndex,
    (2 * (withData ++ withoutData).length < fuel ∨ 2 * (withData ++ withoutData).length ≤ fuel ∧
      ∃ connection ∈ withData ++ withoutData, connection.inputIndex = inputIndex) →
    ((collectGroups fuel withData withoutData currentGroup inputIndex).flatMap (·.connections)).Perm
      (currentGroup.connections ++ (withData ++ withoutData)) := by
  induction fuel with
  | zero =>
    intro withData withoutData currentGroup inputIndex enough
    cases enough with
    | inl less => omega
    | inr least =>
      obtain ⟨connection, member, _⟩ := least.2
      have := List.length_pos_of_mem member
      omega
  | succ fuel ih =>
    intro withData withoutData currentGroup inputIndex enough
    rw [collectGroups]
    split
    · rename_i noneLeft
      simp only [Bool.and_eq_true, List.isEmpty_iff] at noneLeft
      simp [noneLeft.1, noneLeft.2]
    rename_i someLeft
    cases foundWith : withData.find? (·.inputIndex = inputIndex) with
    | some connection =>
      have member := List.mem_of_find?_eq_some foundWith
      have split := List.perm_cons_erase member
      have shorter := split.length_eq
      simp only [List.length_cons, List.length_append] at enough shorter
      refine (ih _ _ _ _ (.inl ?_)).trans ?_
      · simp only [List.length_append]
        omega
      · simp only [List.append_assoc, List.singleton_append]
        exact List.Perm.append_left _ (split.symm.append_right _)
    | none =>
      cases foundWithout : withoutData.find? (·.inputIndex = inputIndex) with
      | some connection =>
        have member := List.mem_of_find?_eq_some foundWithout
        have split := List.perm_cons_erase member
        have shorter := split.length_eq
        simp only [List.length_cons, List.length_append] at enough shorter
        refine (ih _ _ _ _ (.inl ?_)).trans ?_
        · simp only [List.length_append]
          omega
        · simp only [List.append_assoc, List.singleton_append]
          exact List.Perm.append_left _ (List.perm_middle.symm.trans (split.symm.append_left _))
      | none =>
        have noneHere : ∀ connection ∈ withData ++ withoutData, connection.inputIndex ≠ inputIndex := by
          intro connection member
          cases List.mem_append.mp member with
          | inl inWith => simpa using List.find?_eq_none.mp foundWith connection inWith
          | inr inWithout => simpa using List.find?_eq_none.mp foundWithout connection inWithout
        have less : 2 * (withData ++ withoutData).length < fuel + 1 := by
          cases enough with
          | inl less => exact less
          | inr least =>
            obtain ⟨connection, member, equal⟩ := least.2
            exact absurd equal (noneHere connection member)
        have notEmpty : withData ++ withoutData ≠ [] := by
          intro isEmpty
          simp only [List.append_eq_nil_iff] at isEmpty
          simp [isEmpty.1, isEmpty.2] at someLeft
        rw [List.flatMap_cons]
        exact List.Perm.append_left _ ((ih _ _ _ _
          (.inr ⟨by omega, exists_inputIndex_eq_min notEmpty⟩)).trans (List.Perm.refl _))

theorem getSourceDataGroups_perm (localeCompare : String → String → Ordering) (graph : DirectedGraph)
    (node : INode) (runData : IRunData Item) (pinnedData : IPinData Item) :
    ((getSourceDataGroups localeCompare graph node runData pinnedData).flatMap (·.connections)).Perm
      (graph.getConnections (some node)) := by
  rw [getSourceDataGroups]
  dsimp only
  split
  · rename_i isEmpty
    rw [List.isEmpty_iff.mp isEmpty]
    exact List.Perm.refl _
  · have sorted : ∀ keep : GraphConnection → Bool, (((graph.getConnections (some node)).filter keep).insertionSort
        (sortByInputIndexThenByName localeCompare)).Perm ((graph.getConnections (some node)).filter keep) :=
      fun keep => List.perm_insertionSort _ _
    have parts := ((sorted _).append (sorted _)).trans
      (List.filter_append_perm (fun connection => runData.has connection.from.name ||
        pinnedData.has connection.from.name) (graph.getConnections (some node)))
    refine (collectGroups_perm _ _ _ _ _ (.inl ?_)).trans ?_
    · rw [parts.length_eq]
      omega
    · rw [newGroup, List.nil_append]
      exact parts

end N8n.Core
