import N8n.Core.CleanRunData
import N8n.Core.FilterDisabledNodes
import N8n.Core.FindStartNodes
import N8n.Core.HandleCycles
import N8n.Core.InputCustody

/-! # Partial executions

`runPartialWorkflow2` of `workflow-execute.ts`
prepares a partial execution in steps, each with the graph, the start nodes and
the run data that the steps before it leave.
-/

namespace N8n.Core

open Relation

variable {Item : Type}

namespace DirectedGraph

section

variable {graph : DirectedGraph}

/-! ## The graph of the execution -/

theorem Filtered.wellFormed {filtered : DirectedGraph} (wellFormed : graph.WellFormed)
    (final : Filtered graph (graph.nodes.values.filter (·.isDisabled)) filtered)
    (noCycle : graph.NoDisabledCycle) : filtered.WellFormed where
  nodeKeys := by
    intro entry member
    have inGraph := ((final.nodes entry.1 entry.2).mp (OrderedMap.get?_eq_some.mpr member)).1
    exact wellFormed.nodeKeys entry (OrderedMap.get?_eq_some.mp inGraph)
  connectionKeys := final.keyed
  fromNode := fun connection member => ((final.preservesRouting wellFormed noCycle).joined connection member).1
  toNode := fun connection member => ((final.preservesRouting wellFormed noCycle).joined connection member).2

theorem PartOf.wellFormed {part : DirectedGraph} (partOf : part.PartOf graph) (wellFormed : graph.WellFormed) :
    part.WellFormed where
  nodeKeys := fun entry member => wellFormed.nodeKeys entry (partOf.nodes entry member)
  connectionKeys := fun entry member => wellFormed.connectionKeys entry (partOf.connections entry member)
  fromNode := fun connection member =>
    contains_of_submap wellFormed partOf.nodes (partOf.ends connection member).1
  toNode := fun connection member => contains_of_submap wellFormed partOf.nodes (partOf.ends connection member).2

/-- Moving start nodes to the entries of their cycles leaves no data of a node behind the nodes that were found. -/
theorem handleCycles_cleans {trigger : INode} {startNodes : List INode} (built : graph.Built)
    (contains : graph.Contains trigger)
    (reachable : ∀ startNode ∈ startNodes, ReflTransGen graph.LeadsTo trigger startNode) (runData : IRunData Item) :
    ∃ newStartNodes newRunData, graph.handleCycles startNodes trigger = .ok newStartNodes ∧
      cleanRunData runData graph newStartNodes = .ok newRunData ∧
        ∀ node, graph.Rerun startNodes node → newRunData.get? node.name = none := by
  obtain ⟨_, _, newStartNodes, _, _, _, returns, _, moved, reachableAgain⟩ :=
    handleCycles_moves built contains reachable
  have inGraph := fun node member => built.wellFormed.contains_of_reached contains (reachableAgain node member)
  obtain ⟨newRunData, cleans, pruned⟩ := built.wellFormed.cleanRunData_pruned inGraph runData
  refine ⟨newStartNodes, newRunData, returns, cleans, fun node rerun => ?_⟩
  obtain ⟨startNode, isStart, reached⟩ := rerun
  obtain ⟨entry, isEntry, related⟩ := moved startNode isStart
  exact (pruned node.name).1 (.inr ⟨node, .inl ⟨entry, isEntry, related.2.trans reached⟩, rfl⟩)

end

namespace SubNodes

end SubNodes

theorem LoopBehindTrigger.handleCycles_cleans_second : ∃ newStartNodes newRunData,
    graph.handleCycles [SimpleCycle.second] trigger = .ok newStartNodes ∧
      cleanRunData SubNodes.allRan graph newStartNodes = .ok newRunData ∧
        ∀ node, graph.Rerun [SimpleCycle.second] node → newRunData.get? node.name = none :=
  handleCycles_cleans (built_iff_wellFormed.mpr (by decide)) (by decide) reachable SubNodes.allRan

end DirectedGraph

end N8n.Core
