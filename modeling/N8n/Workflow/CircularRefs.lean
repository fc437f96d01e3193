import N8n.Library.ObjectHeap
import N8n.Library.PlainData
import N8n.Library.ReferenceScan

/-! # Breaking circular references

`utils.ts` has two functions for data with circular references.
`removeCircularRefs` puts a marker in place of the references that it takes for
circular ones; `replaceCircularReferences` returns a copy.  The data is a finite
heap of plain objects and arrays, and fuel is the depth of the call stack.
-/

namespace N8n.CircularRefs

open ObjectHeap PlainData

variable {ν : Type}

/-- Objects and arrays that refer to one another, seen from the object `root`. -/
structure ObjectGraph (ν : Type) where
  heap : Heap (Primitive ν)
  closed : heap.Closed
  root : Nat
  isObject : ∃ fields, heap.cell? root = some (.object fields)

/-! ## removeCircularRefs -/

/-- `{ circularReference: true }`. -/
def marker : Cell (Primitive ν) := .object ⟨[("circularReference", .primitive (.boolean true))], by simp⟩

structure State (ν : Type) where
  heap : Heap (Primitive ν)
  seen : List Nat

namespace State

/-- `seen.add(obj)`. -/
def add (state : State ν) (obj : Nat) : State ν := { state with seen := state.seen ++ [obj] }

/-- The assignment of a new marker to a place. -/
def mark (state : State ν) (place : Place) : State ν :=
  { state with heap := (state.heap.allocate marker).write place (.reference state.heap.size) }

end State

def isTraversableObject (heap : Heap (Primitive ν)) (value : Nat) : Bool :=
  match heap.cell? value with
  | some (.object fields) => !fields.keys.isEmpty
  | _ => false

/-- `Object.entries(obj)`. -/
def entries (heap : Heap (Primitive ν)) (obj : Nat) : List (String × Content (Primitive ν)) :=
  match heap.cell? obj with
  | some (.object fields) => fields.entries
  | _ => []

section

variable (removeCircularRefs : Nat → State ν → Option (State ν))

/-- The body of `value.forEach`, which reads the element when its turn comes. -/
def visitItem (array : Nat) (state : State ν) (index : Nat) : Option (State ν) :=
  match state.heap.read ⟨array, .index index⟩ with
  | some (.reference val) =>
    if val ∈ state.seen then some (state.mark ⟨array, .index index⟩)
    else if isTraversableObject state.heap val then removeCircularRefs val state
    else some state
  | _ => some state

/-- The body of `Object.entries(obj).forEach`, which has read the value before. -/
def visitEntry (obj : Nat) (state : State ν) (entry : String × Content (Primitive ν)) : Option (State ν) :=
  match entry.2 with
  | .reference value =>
    if isTraversableObject state.heap value then
      if value ∈ state.seen then some (state.mark ⟨obj, .key entry.1⟩) else removeCircularRefs value state
    else match state.heap.cell? value with
      | some (.array items) => (List.range items.length).foldlM (visitItem removeCircularRefs value) state
      | _ => some state
  | .primitive _ => some state

end

/-- `none` when the call stack is exhausted. -/
def removeCircularRefs : Nat → Nat → State ν → Option (State ν)
  | 0, _, _ => none
  | fuel + 1, obj, state =>
    (entries state.heap obj).foldlM (visitEntry (removeCircularRefs fuel) obj) (state.add obj)

/-! ## replaceCircularReferences -/

/-- The copies, which nothing else refers to. -/
inductive Data (ν : Type) where
  | primitive (value : Primitive ν)
  | object (fields : List (String × Data ν))
  | array (items : List (Data ν))

section

variable (replaceCircularReferences : Content (Primitive ν) → List Nat → Option (Data ν × List Nat))

/-- The loop over the keys of `value`, in which every call gets the same `knownObjects`. -/
def copyAll : List (Content (Primitive ν)) → List Nat → Option (List (Data ν) × List Nat)
  | [], knownObjects => some ([], knownObjects)
  | value :: rest, knownObjects => do
    let (first, knownObjects) ← replaceCircularReferences value knownObjects
    let (copies, knownObjects) ← copyAll rest knownObjects
    return (first :: copies, knownObjects)

end

/-- The copy and `knownObjects` afterwards; `none` when the call stack is exhausted. -/
def replaceCircularReferences (heap : Heap (Primitive ν)) :
    Nat → Content (Primitive ν) → List Nat → Option (Data ν × List Nat)
  | 0, _, _ => none
  | _ + 1, .primitive value, knownObjects => some (.primitive value, knownObjects)
  | fuel + 1, .reference value, knownObjects =>
    if value ∈ knownObjects then some (.primitive (.string "[Circular Reference]"), knownObjects)
    else match heap.cell? value with
      | some (.object fields) => do
        let (copies, knownObjects) ←
          copyAll (replaceCircularReferences heap fuel) fields.values (knownObjects ++ [value])
        return (.object (fields.keys.zip copies), knownObjects.filter (· ≠ value))
      | some (.array items) => do
        let (copies, knownObjects) ← copyAll (replaceCircularReferences heap fuel) items (knownObjects ++ [value])
        return (.array copies, knownObjects.filter (· ≠ value))
      | none => none

/-! ## Copies -/

mutual
/-- The copy of a value that is found below the containers: the marker where it refers back to one of them. -/
inductive CopyOf (heap : Heap (Primitive ν)) : List Nat → Content (Primitive ν) → Data ν → Prop where
  | primitive {containers : List Nat} {value : Primitive ν} :
      CopyOf heap containers (.primitive value) (.primitive value)
  | circular {containers : List Nat} {address : Nat} : address ∈ containers →
      CopyOf heap containers (.reference address) (.primitive (.string "[Circular Reference]"))
  | object {containers : List Nat} {address : Nat} {fields : OrderedMap String (Content (Primitive ν))}
      {copies : List (Data ν)} : address ∉ containers → heap.cell? address = some (.object fields) →
      CopiesOf heap (containers ++ [address]) fields.values copies →
      CopyOf heap containers (.reference address) (.object (fields.keys.zip copies))
  | array {containers : List Nat} {address : Nat} {items : List (Content (Primitive ν))} {copies : List (Data ν)} :
      address ∉ containers → heap.cell? address = some (.array items) →
      CopiesOf heap (containers ++ [address]) items copies →
      CopyOf heap containers (.reference address) (.array copies)

inductive CopiesOf (heap : Heap (Primitive ν)) : List Nat → List (Content (Primitive ν)) → List (Data ν) → Prop where
  | nil {containers : List Nat} : CopiesOf heap containers [] []
  | cons {containers : List Nat} {value : Content (Primitive ν)} {copy : Data ν}
      {rest : List (Content (Primitive ν))} {copies : List (Data ν)} : CopyOf heap containers value copy →
      CopiesOf heap containers rest copies → CopiesOf heap containers (value :: rest) (copy :: copies)
end

def InHeap (heap : Heap (Primitive ν)) (value : Content (Primitive ν)) : Prop :=
  ∀ address, value = .reference address → address < heap.size

theorem copyAll_copies {heap : Heap (Primitive ν)} {containers : List Nat}
    {recurse : Content (Primitive ν) → List Nat → Option (Data ν × List Nat)} {values : List (Content (Primitive ν))}
    (turn : ∀ value ∈ values, ∃ copy, recurse value containers = some (copy, containers) ∧
      CopyOf heap containers value copy) :
    ∃ copies, copyAll recurse values containers = some (copies, containers) ∧
      CopiesOf heap containers values copies := by
  induction values with
  | nil => exact ⟨[], rfl, .nil⟩
  | cons value rest ih =>
    obtain ⟨copy, returns, isCopy⟩ := turn value List.mem_cons_self
    obtain ⟨copies, returns', areCopies⟩ := ih fun other member => turn other (List.mem_cons_of_mem _ member)
    exact ⟨copy :: copies, by simp [copyAll, returns, returns'], .cons isCopy areCopies⟩

/-- By induction on the fuel; a call leaves `knownObjects`, which are the containers, as they were. -/
theorem replaceCircularReferences_copies {heap : Heap (Primitive ν)} (closed : heap.Closed) (fuel : Nat) :
    ∀ value knownObjects, InHeap heap value →
      (Traversal.unmarked (List.range heap.size) knownObjects).length < fuel → ∃ copy,
        replaceCircularReferences heap fuel value knownObjects = some (copy, knownObjects) ∧
          CopyOf heap knownObjects value copy := by
  induction fuel with
  | zero => intro value knownObjects _ enough; exact absurd enough (Nat.not_lt_zero _)
  | succ fuel ih =>
    intro value knownObjects inHeap enough
    cases value with
    | primitive value => exact ⟨.primitive value, by rw [replaceCircularReferences], .primitive⟩
    | reference address =>
      by_cases circular : address ∈ knownObjects
      · exact ⟨_, by rw [replaceCircularReferences, if_pos circular], .circular circular⟩
      · have inside : address < heap.size := inHeap address rfl
        obtain ⟨cell, located⟩ := Heap.exists_cell inside
        have fewer := Traversal.length_unmarked_lt (List.mem_range.mpr inside) circular
        -- deleting what was added gives the containers back, since the address was none of them
        have deleted : (knownObjects ++ [address]).filter (· ≠ address) = knownObjects := by
          have others : ∀ other ∈ knownObjects, decide (other ≠ address) = true := by
            intro other member
            exact decide_eq_true fun same => circular (same ▸ member)
          rw [List.filter_append, List.filter_eq_self.mpr others]
          simp
        have below : ∀ value selector, heap.read ⟨address, selector⟩ = some value → ∃ copy,
            replaceCircularReferences heap fuel value (knownObjects ++ [address]) =
                some (copy, knownObjects ++ [address]) ∧
              CopyOf heap (knownObjects ++ [address]) value copy := by
          intro value selector holds
          apply ih value _ _ (by omega)
          rintro target rfl
          exact closed address target ⟨selector, holds⟩
        cases cell with
        | object fields =>
          obtain ⟨copies, returns, areCopies⟩ := copyAll_copies fun value member => by
            obtain ⟨key, entry⟩ := OrderedMap.mem_values.mp member
            apply below value (.key key)
            exact Heap.read_eq_some.mpr ⟨_, located, OrderedMap.get?_eq_some.mpr entry⟩
          refine ⟨.object (fields.keys.zip copies), ?_, .object circular located areCopies⟩
          simp only [replaceCircularReferences, if_neg circular, located, returns, Option.bind_eq_bind,
            Option.bind_some, deleted]
          rfl
        | array items =>
          obtain ⟨copies, returns, areCopies⟩ := copyAll_copies fun value member => by
            obtain ⟨index, within, rfl⟩ := List.getElem_of_mem member
            apply below _ (.index index)
            exact Heap.read_eq_some.mpr ⟨_, located, List.getElem?_eq_getElem within⟩
          refine ⟨.array copies, ?_, .array circular located areCopies⟩
          simp only [replaceCircularReferences, if_neg circular, located, returns, Option.bind_eq_bind,
            Option.bind_some, deleted]
          rfl

theorem ObjectGraph.replaces (graph : ObjectGraph ν) (value : Content (Primitive ν))
    (inHeap : InHeap graph.heap value) :
    ∃ depth, ∀ fuel, depth ≤ fuel → ∃ copy,
      replaceCircularReferences graph.heap fuel value [] = some (copy, []) ∧ CopyOf graph.heap [] value copy := by
  refine ⟨graph.heap.size + 1, fun fuel deep => ?_⟩
  apply replaceCircularReferences_copies graph.closed fuel value [] inHeap
  rw [Traversal.unmarked_nil, List.length_range]
  exact deep

end N8n.CircularRefs
