import Mathlib.Data.List.Basic
import N8n.Core.DirectedGraph
import N8n.Library.Decimal

/-! # Connection keys

A key joins names, a type and two numbers by dashes.  It determines the
connection when no name has a dash in it; names with dashes can clash.
`makeKey_eq_iff` says which names do, and `getConnections_exact_iff` what this
means for the connections of a graph: `addConnection` files a connection under
its key, so that the later one of two with the same key replaces the earlier.
-/

namespace N8n.Core

open Text

theorem dash_not_mem_toString (number : Nat) : '-' ∉ (toString number).toList := by
  intro member
  rw [Nat.toString_eq_repr, Nat.toList_repr] at member
  have isDigit := Nat.isDigit_of_mem_toDigits (by decide) (by decide) member
  exact absurd isDigit (by decide)

theorem toList_toString_inj {first second : Nat}
    (equal : (toString first).toList = (toString second).toList) : first = second := by
  rw [toList_toString, toList_toString] at equal
  exact Int.ofNat_inj.mp (printInt_injective equal)

theorem dash_not_mem_value (type : NodeConnectionType) : '-' ∉ type.value.toList := by
  cases type <;> decide

theorem NodeConnectionType.value_injective {type type' : NodeConnectionType}
    (same : type.value = type'.value) : type = type' := by
  cases type <;> cases type' <;> first | rfl | exact absurd same (by decide)

theorem toString_ne_value (number : Nat) (type : NodeConnectionType) :
    (toString number).toList ≠ type.value.toList := by
  intro equal
  -- Every name of a type, also the one of `main`, has this letter in it.
  have letter : 'a' ∈ type.value.toList := by cases type <;> simp [NodeConnectionType.value]
  rw [← equal, Nat.toString_eq_repr, Nat.toList_repr] at letter
  have isDigit := Nat.isDigit_of_mem_toDigits (by omega) (by omega) letter
  simp at isDigit

/-- A part without separators ends at the first separator of any other reading of the whole. -/
theorem append_separator_cases {α : Type*} {separator : α} {before after left right : List α}
    (absent : separator ∉ before) (equal : before ++ separator :: after = left ++ separator :: right) :
    left = before ∧ after = right ∨
      ∃ rest, left = before ++ separator :: rest ∧ after = rest ++ separator :: right := by
  rw [List.append_eq_append_iff] at equal
  cases equal with
  | inl longer =>
    obtain ⟨rest, leftIs, tail⟩ := longer
    cases rest with
    | nil =>
      refine .inl ⟨by rw [leftIs, List.append_nil], ?_⟩
      exact (List.cons.inj tail).2
    | cons head rest =>
      rw [List.cons_append, List.cons.injEq] at tail
      obtain ⟨rfl, tail⟩ := tail
      exact .inr ⟨rest, leftIs, tail⟩
  | inr shorter =>
    obtain ⟨rest, beforeIs, tail⟩ := shorter
    cases rest with
    | nil =>
      refine .inl ⟨by rw [beforeIs, List.append_nil], ?_⟩
      exact (List.cons.inj tail).2.symm
    | cons head rest =>
      obtain ⟨rfl, _⟩ := List.cons.inj tail
      exact absurd (beforeIs ▸ List.mem_append_right _ List.mem_cons_self) absent

variable (connection : GraphConnection)

variable {first second : GraphConnection}

def keyHead (connection : GraphConnection) : String :=
  connection.from.name ++ "-" ++ connection.type.value ++ "-" ++ toString connection.outputIndex
    ++ "-" ++ toString connection.inputIndex

def keyTail (connection : GraphConnection) : String :=
  connection.type.value ++ "-" ++ toString connection.outputIndex ++ "-" ++
    toString connection.inputIndex ++ "-" ++ connection.to.name

/-- The name of the second source begins with all of the first key but the target's name, and the
first target's name ends with all of the second key but the source's name. -/
def Overlaps (first second : GraphConnection) : Prop :=
  second.from.name = keyHead first ∧ first.to.name = keyTail second ∨
    ∃ between, second.from.name = keyHead first ++ "-" ++ between ∧
      first.to.name = between ++ "-" ++ keyTail second

theorem makeKey_eq_head :
    makeKey connection = keyHead connection ++ "-" ++ connection.to.name := rfl

theorem makeKey_eq_tail :
    makeKey connection = connection.from.name ++ "-" ++ keyTail connection := by
  simp only [makeKey, keyTail, String.append_assoc]

theorem Overlaps.makeKey_eq (overlaps : Overlaps first second) :
    makeKey first = makeKey second := by
  rw [makeKey_eq_head, makeKey_eq_tail]
  cases overlaps with
  | inl adjacent => rw [adjacent.1, adjacent.2]
  | inr apart =>
    obtain ⟨between, source, target⟩ := apart
    rw [source, target]
    simp only [String.append_assoc]

theorem toList_keyHead :
    (keyHead connection).toList = connection.from.name.toList ++ '-' :: (connection.type.value.toList ++
      '-' :: ((toString connection.outputIndex).toList ++ '-' ::
        (toString connection.inputIndex).toList)) := by
  have dash : "-".toList = ['-'] := rfl
  simp only [keyHead, String.toList_append, dash, List.append_assoc, List.cons_append, List.nil_append]

theorem toList_keyTail :
    (keyTail connection).toList = connection.type.value.toList ++
      '-' :: ((toString connection.outputIndex).toList ++ '-' ::
        ((toString connection.inputIndex).toList ++ '-' :: connection.to.name.toList)) := by
  have dash : "-".toList = ['-'] := rfl
  simp only [keyTail, String.toList_append, dash, List.append_assoc, List.cons_append, List.nil_append]

theorem agree_of_keyTail (source : first.from.name.toList = second.from.name.toList)
    (tails : (keyTail first).toList = (keyTail second).toList) :
    first.from.name = second.from.name ∧ first.type = second.type ∧ first.outputIndex = second.outputIndex ∧
      first.inputIndex = second.inputIndex ∧ first.to.name = second.to.name := by
  rw [toList_keyTail, toList_keyTail] at tails
  obtain ⟨type, tails⟩ := append_separator_inj (dash_not_mem_value _) (dash_not_mem_value _) tails
  obtain ⟨output, tails⟩ := append_separator_inj (dash_not_mem_toString _) (dash_not_mem_toString _) tails
  obtain ⟨input, target⟩ := append_separator_inj (dash_not_mem_toString _) (dash_not_mem_toString _) tails
  exact ⟨String.toList_inj.mp source, NodeConnectionType.value_injective (String.toList_inj.mp type),
    toList_toString_inj output, toList_toString_inj input, String.toList_inj.mp target⟩

theorem Overlaps.dash_mem (overlaps : Overlaps first second) : '-' ∈ second.from.name.toList := by
  cases overlaps with
  | inl adjacent =>
    rw [adjacent.1, toList_keyHead]
    simp
  | inr apart =>
    obtain ⟨between, source, _⟩ := apart
    rw [source, String.toList_append, String.toList_append]
    simp

/-- What the second name has in excess of the first ends between the first key's parts; a number
is no type name, so that the only place left is the first target's name. -/
theorem overlaps_of_longer {excess : List Char}
    (longer : second.from.name.toList = first.from.name.toList ++ '-' :: excess)
    (tails : (keyTail first).toList = excess ++ '-' :: (keyTail second).toList) :
    Overlaps first second := by
  have ofList : ∀ {left right : String}, left.toList = right.toList → left = right :=
    fun same => String.toList_inj.mp same
  have notNumber : ∀ (number : Nat) (after : List Char),
      (toString number).toList ++ '-' :: after ≠ (keyTail second).toList := by
    intro number after equal
    rw [toList_keyTail] at equal
    have sameStart := append_separator_inj (dash_not_mem_toString number)
      (dash_not_mem_value second.type) equal
    exact toString_ne_value number second.type sameStart.1
  rw [toList_keyTail first] at tails
  cases append_separator_cases (dash_not_mem_value first.type) tails with
  | inl atType => exact absurd atType.2 (notNumber _ _)
  | inr beyondType =>
    obtain ⟨afterType, rfl, fromOutput⟩ := beyondType
    cases append_separator_cases (dash_not_mem_toString first.outputIndex) fromOutput with
    | inl atOutput => exact absurd atOutput.2 (notNumber _ _)
    | inr beyondOutput =>
      obtain ⟨afterOutput, rfl, fromInput⟩ := beyondOutput
      cases append_separator_cases (dash_not_mem_toString first.inputIndex) fromInput with
      | inl atInput =>
        obtain ⟨rfl, target⟩ := atInput
        exact .inl ⟨ofList (by rw [longer, toList_keyHead]), ofList target⟩
      | inr beyondInput =>
        obtain ⟨between, rfl, target⟩ := beyondInput
        refine .inr ⟨String.ofList between, ofList ?_, ofList ?_⟩
        · simp only [longer, toList_keyHead, String.toList_append, String.toList_ofList,
            String.reduceToList, List.append_assoc, List.cons_append, List.nil_append]
        · simp only [target, String.toList_append, String.toList_ofList,
            String.reduceToList, List.append_assoc, List.cons_append, List.nil_append]

/-- Two connections share a key only if they agree in everything it is made of, or their names
overlap. -/
theorem makeKey_eq_iff :
    makeKey first = makeKey second ↔
      (first.from.name = second.from.name ∧ first.type = second.type ∧
        first.outputIndex = second.outputIndex ∧ first.inputIndex = second.inputIndex ∧
          first.to.name = second.to.name) ∨ Overlaps first second ∨ Overlaps second first := by
  constructor
  · intro sameKey
    have equal := congrArg String.toList sameKey
    have dash : "-".toList = ['-'] := rfl
    rw [makeKey_eq_tail, makeKey_eq_tail] at equal
    simp only [String.toList_append, dash, List.append_assoc, List.cons_append, List.nil_append] at equal
    rw [List.append_eq_append_iff] at equal
    cases equal with
    | inl secondLonger =>
      obtain ⟨excess, source, tails⟩ := secondLonger
      cases excess with
      | nil =>
        exact .inl (agree_of_keyTail (source.trans (List.append_nil _)).symm (List.cons.inj tails).2)
      | cons head excess =>
        rw [List.cons_append, List.cons.injEq] at tails
        obtain ⟨rfl, tails⟩ := tails
        exact .inr (.inl (overlaps_of_longer source tails))
    | inr firstLonger =>
      obtain ⟨excess, source, tails⟩ := firstLonger
      cases excess with
      | nil =>
        exact .inl (agree_of_keyTail (source.trans (List.append_nil _)) (List.cons.inj tails).2.symm)
      | cons head excess =>
        rw [List.cons_append, List.cons.injEq] at tails
        obtain ⟨rfl, tails⟩ := tails
        exact .inr (.inr (overlaps_of_longer source tails))
  · intro agreeOrOverlap
    cases agreeOrOverlap with
    | inl agree =>
      obtain ⟨source, type, output, input, target⟩ := agree
      rw [makeKey, makeKey, source, type, output, input, target]
    | inr overlap =>
      cases overlap with
      | inl overlaps => exact overlaps.makeKey_eq
      | inr overlaps => exact overlaps.makeKey_eq.symm

namespace DirectedGraph

/-- Connections between nodes of one graph share a key only if they are equal or their names
overlap. -/
theorem Contains.eq_or_overlaps {graph : DirectedGraph} {first second : GraphConnection}
    (firstFrom : graph.Contains first.from) (firstTo : graph.Contains first.to)
    (secondFrom : graph.Contains second.from) (secondTo : graph.Contains second.to)
    (sameKey : makeKey first = makeKey second) :
    first = second ∨ Overlaps first second ∨ Overlaps second first := by
  cases makeKey_eq_iff.mp sameKey with
  | inr overlap => exact .inr overlap
  | inl agree =>
    obtain ⟨fromName, type, outputIndex, inputIndex, toName⟩ := agree
    have sameNode : ∀ one two, graph.Contains one → graph.Contains two → one.name = two.name → one = two := by
      intro one two containsOne containsTwo sameName
      rw [Contains, sameName] at containsOne
      exact Option.some.inj (containsOne.symm.trans containsTwo)
    have source := sameNode _ _ firstFrom secondFrom fromName
    have target := sameNode _ _ firstTo secondTo toName
    left
    cases first
    cases second
    exact GraphConnection.mk.injEq .. ▸ ⟨source, target, type, outputIndex, inputIndex⟩

/-- In a graph whose names have no dashes, a key stands for one connection only. -/
theorem Contains.eq_of_makeKey {graph : DirectedGraph}
    (plain : ∀ node, graph.Contains node → '-' ∉ node.name.toList) {first second : GraphConnection}
    (firstFrom : graph.Contains first.from) (firstTo : graph.Contains first.to)
    (secondFrom : graph.Contains second.from) (secondTo : graph.Contains second.to)
    (sameKey : makeKey first = makeKey second) : first = second := by
  cases Contains.eq_or_overlaps firstFrom firstTo secondFrom secondTo sameKey with
  | inl same => exact same
  | inr overlap =>
    cases overlap with
    | inl overlaps => exact absurd overlaps.dash_mem (plain _ secondFrom)
    | inr overlaps => exact absurd overlaps.dash_mem (plain _ firstFrom)

/-! ## What `addConnections` leaves in the graph -/

theorem not_overlaps_self (connection : GraphConnection) : ¬ Overlaps connection connection := by
  intro overlaps
  have keepsLength : connection.from.name.toList.length < (keyHead connection).toList.length := by
    rw [toList_keyHead]
    simp
  cases overlaps with
  | inl adjacent =>
    have sameLength := congrArg (fun name => name.toList.length) adjacent.1
    omega
  | inr apart =>
    obtain ⟨between, source, _⟩ := apart
    have sameLength := congrArg (fun name => name.toList.length) source
    simp only [String.toList_append, List.length_append] at sameLength
    omega

/-- `getConnections` returns each of the connections once and nothing else, and two of them are
filed under one key only if they are equal. -/
def HoldsExactly (graph : DirectedGraph) (connections : List GraphConnection) : Prop :=
  (∀ connection, graph.getConnections.count connection = if connection ∈ connections then 1 else 0) ∧
    ∀ first ∈ connections, ∀ second ∈ connections, makeKey first = makeKey second → first = second

theorem contains_of_addConnections {graph next : DirectedGraph} {added : List GraphConnection}
    (returns : graph.addConnections added = .ok next) :
    next.nodes = graph.nodes ∧
      ∀ connection ∈ added, graph.Contains connection.from ∧ graph.Contains connection.to := by
  induction added generalizing graph with
  | nil =>
    cases returns
    exact ⟨rfl, fun _ member => absurd member List.not_mem_nil⟩
  | cons connection rest ih =>
    rw [addConnections, List.foldlM_cons] at returns
    obtain ⟨between, first, restReturns⟩ := Loop.bind_inv returns
    obtain ⟨fromExists, toExists, rfl⟩ := addConnection_eq_ok first
    obtain ⟨sameNodes, others⟩ := ih restReturns
    refine ⟨sameNodes, fun other member => ?_⟩
    cases List.mem_cons.mp member with
    | inl isFirst => exact isFirst ▸ ⟨fromExists, toExists⟩
    | inr inRest => exact others other inRest

/-- After a sequence of `addConnection` calls the graph holds exactly the connections it held before
and the added ones if and only if no two of them have overlapping names. -/
theorem getConnections_exact_iff {graph next : DirectedGraph} {added : List GraphConnection}
    (wellFormed : graph.WellFormed) (returns : graph.addConnections added = .ok next) :
    next.HoldsExactly (graph.connections.values ++ added) ↔
      ∀ first ∈ graph.connections.values ++ added, ∀ second ∈ graph.connections.values ++ added,
        ¬ Overlaps first second := by
  obtain ⟨_, addedContained⟩ := contains_of_addConnections returns
  have contained : ∀ connection ∈ graph.connections.values ++ added,
      graph.Contains connection.from ∧ graph.Contains connection.to := by
    intro connection member
    cases List.mem_append.mp member with
    | inl old => exact ⟨wellFormed.fromNode connection old, wellFormed.toNode connection old⟩
    | inr new => exact addedContained connection new
  have nextIs := addConnections_of_contains (fun connection member => (addedContained connection member).1)
    (fun connection member => (addedContained connection member).2)
  rw [nextIs] at returns
  cases returns
  constructor
  · intro exact_ first firstMember second secondMember overlaps
    have same := exact_.2 first firstMember second secondMember overlaps.makeKey_eq
    exact not_overlaps_self second (same ▸ overlaps)
  · intro noOverlap
    have distinct : ∀ first ∈ graph.connections.values ++ added,
        ∀ second ∈ graph.connections.values ++ added, makeKey first = makeKey second → first = second := by
      intro first firstMember second secondMember sameKey
      obtain ⟨firstFrom, firstTo⟩ := contained first firstMember
      obtain ⟨secondFrom, secondTo⟩ := contained second secondMember
      cases Contains.eq_or_overlaps firstFrom firstTo secondFrom secondTo sameKey with
      | inl same => exact same
      | inr overlap =>
        cases overlap with
        | inl overlaps => exact absurd overlaps (noOverlap first firstMember second secondMember)
        | inr overlaps => exact absurd overlaps (noOverlap second secondMember first firstMember)
    refine ⟨fun connection => ?_, distinct⟩
    have allConnections : ∀ some : DirectedGraph, some.getConnections = some.connections.values := by
      intro some
      simp [getConnections]
    rw [allConnections, List.Nodup.count (OrderedMap.nodup_values_of_keyed
      (OrderedMap.keyed_foldl_set added wellFormed.connectionKeys))]
    simp only [OrderedMap.mem_values_foldl_set wellFormed.connectionKeys distinct, List.mem_append]

/-! Names with dashes in them: both connections are filed under `a-b-main-0-0-c`. -/

namespace DashedNames

def node (name : String) : INode := { id := name, name, type := "n8n-nodes-base.set" }

def graph : DirectedGraph :=
  empty.addNodes [node "a", node "b-main-0-0-c", node "a-main-0-0-b", node "c"]

def shortSource : GraphConnection := { «from» := node "a", «to» := node "b-main-0-0-c" }

def longSource : GraphConnection := { «from» := node "a-main-0-0-b", «to» := node "c" }

theorem holdsExactly_one : ∃ next, graph.addConnections [shortSource] = .ok next ∧
    next.HoldsExactly (graph.connections.values ++ [shortSource]) := by
  have returns := @addConnections_of_contains graph [shortSource] (by decide) (by decide)
  refine ⟨_, returns, (getConnections_exact_iff (by decide) returns).mpr ?_⟩
  intro first firstMember second secondMember
  rw [List.mem_singleton.mp firstMember, List.mem_singleton.mp secondMember]
  exact not_overlaps_self shortSource

theorem not_holdsExactly_both : ∃ next, graph.addConnections [shortSource, longSource] = .ok next ∧
    next.getConnections = [longSource] ∧
      ¬ next.HoldsExactly (graph.connections.values ++ [shortSource, longSource]) := by
  have returns := @addConnections_of_contains graph [shortSource, longSource] (by decide) (by decide)
  refine ⟨_, returns, by decide, fun exact_ => ?_⟩
  exact absurd (exact_.1 shortSource) (by decide)

end DashedNames

end DirectedGraph

end N8n.Core
