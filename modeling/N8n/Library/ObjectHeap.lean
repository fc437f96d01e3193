import Mathlib.Data.List.Nodup
import Mathlib.Logic.Relation
import N8n.Library.OrderedMap

/-! # Objects and arrays that refer to one another

A heap of objects and arrays.  A place is a property of an object or an element
of an array, and holds a primitive value or a reference.  Assigning to a place
that exists changes neither the keys of an object nor the length of an array.
-/

namespace ObjectHeap

open Relation

variable {α : Type*}

inductive Content (α : Type*) where
  | primitive (value : α)
  | reference (address : Nat)

inductive Cell (α : Type*) where
  | object (fields : OrderedMap String (Content α))
  | array (items : List (Content α))

inductive Selector where
  | key (name : String)
  | index (position : Nat)
  deriving DecidableEq

structure Place where
  address : Nat
  selector : Selector
  deriving DecidableEq

/-- What assignments to existing places leave of a cell. -/
inductive Shape where
  | object (keys : List String)
  | array (length : Nat)

namespace Cell

def content? : Cell α → Selector → Option (Content α)
  | .object fields, .key name => fields.get? name
  | .array items, .index position => items[position]?
  | _, _ => none

def replace : Cell α → Selector → Content α → Cell α
  | .object fields, .key name, content => .object (fields.set name content)
  | .array items, .index position, content => .array (items.set position content)
  | cell, _, _ => cell

def shape : Cell α → Shape
  | .object fields => .object fields.keys
  | .array items => .array items.length

theorem content?_replace {cell : Cell α} {selector : Selector} {old : Content α}
    (present : cell.content? selector = some old) (content : Content α) (other : Selector) :
    (cell.replace selector content).content? other =
      if other = selector then some content else cell.content? other := by
  cases cell with
  | object fields =>
    cases selector with
    | index position => cases present
    | key name =>
      cases other with
      | index position => simp [replace, content?]
      | key name' => simp [replace, content?, OrderedMap.get?_set]
  | array items =>
    cases selector with
    | key name => cases present
    | index position =>
      obtain ⟨inside, -⟩ := List.getElem?_eq_some_iff.mp present
      cases other with
      | key name => simp [replace, content?]
      | index position' =>
        simp only [replace, content?, List.getElem?_set, Selector.index.injEq, eq_comm (a := position)]
        split
        · simp
        · rfl

theorem shape_replace {cell : Cell α} {selector : Selector} {old : Content α}
    (present : cell.content? selector = some old) (content : Content α) : (cell.replace selector content).shape =
      cell.shape := by
  cases cell with
  | object fields =>
    cases selector with
    | index position => cases present
    | key name =>
      have member : name ∈ fields.keys := OrderedMap.mem_keys_of_get? present
      simp [replace, shape, OrderedMap.keys_set, member]
  | array items =>
    cases selector with
    | key name => cases present
    | index position => simp [replace, shape]

end Cell

structure Heap (α : Type*) where
  cells : List (Cell α)

namespace Heap

def size (heap : Heap α) : Nat := heap.cells.length

def cell? (heap : Heap α) (address : Nat) : Option (Cell α) := heap.cells[address]?

def read (heap : Heap α) (place : Place) : Option (Content α) :=
  (heap.cell? place.address).bind (·.content? place.selector)

def write (heap : Heap α) (place : Place) (content : Content α) : Heap α where
  cells := heap.cells.modify place.address (·.replace place.selector content)

/-- The heap with a new cell, whose address is the size of the heap before. -/
def allocate (heap : Heap α) (cell : Cell α) : Heap α where
  cells := heap.cells ++ [cell]

variable {heap : Heap α} {address : Nat}

theorem cell?_lt {cell : Cell α} (found : heap.cell? address = some cell) :
    address < heap.size :=
  (List.getElem?_eq_some_iff.mp found).1

theorem exists_cell (inside : address < heap.size) :
    ∃ cell, heap.cell? address = some cell :=
  ⟨_, List.getElem?_eq_getElem inside⟩

variable {place : Place}

theorem read_eq_some {content : Content α} :
    heap.read place = some content ↔
      ∃ cell, heap.cell? place.address = some cell ∧ cell.content? place.selector = some content :=
  Option.bind_eq_some_iff

theorem read_lt {content : Content α} (found : heap.read place = some content) :
    place.address < heap.size := by
  obtain ⟨cell, located, -⟩ := read_eq_some.mp found
  exact cell?_lt located

@[simp] theorem size_write (heap : Heap α) (place : Place) (content : Content α) :
    (heap.write place content).size = heap.size := by
  simp [size, write]

@[simp] theorem size_allocate (heap : Heap α) (cell : Cell α) : (heap.allocate cell).size = heap.size + 1 := by
  simp [size, allocate]

theorem cell?_write (heap : Heap α) (place : Place) (content : Content α) (address : Nat) :
    (heap.write place content).cell? address =
      if place.address = address then (heap.cell? address).map (·.replace place.selector content)
      else heap.cell? address := by
  simp only [cell?, write, List.getElem?_modify]
  split
  · rfl
  · cases heap.cells[address]? <;> rfl

theorem cell?_allocate (heap : Heap α) (cell : Cell α) (address : Nat) :
    (heap.allocate cell).cell? address = if address = heap.size then some cell else heap.cell? address := by
  change (heap.cells ++ [cell])[address]? = if address = heap.cells.length then some cell else heap.cells[address]?
  by_cases last : address = heap.cells.length
  · simp [last]
  · rw [if_neg last, List.getElem?_append]
    split
    · rfl
    · rw [List.getElem?_eq_none (by simp; omega), List.getElem?_eq_none (by omega)]

theorem cell?_allocate_of_lt (inside : address < heap.size) (cell : Cell α) :
    (heap.allocate cell).cell? address = heap.cell? address := by
  rw [cell?_allocate, if_neg (Nat.ne_of_lt inside)]

theorem read_allocate_of_lt (inside : place.address < heap.size) (cell : Cell α) :
    (heap.allocate cell).read place = heap.read place := by
  rw [read, cell?_allocate_of_lt inside, read]

theorem read_write {old : Content α} (present : heap.read place = some old) (content : Content α) (other : Place) :
    (heap.write place content).read other = if other = place then some content else heap.read other := by
  obtain ⟨cell, located, here⟩ := read_eq_some.mp present
  obtain ⟨address, selector⟩ := place
  obtain ⟨address', selector'⟩ := other
  simp only [read, cell?_write, Place.mk.injEq]
  by_cases same : address = address'
  · subst same
    simp only [located, if_true, Option.map_some, Option.bind_some, true_and]
    exact Cell.content?_replace here content selector'
  · simp [same, eq_comm (a := address')]

theorem shape_write {old : Content α} (present : heap.read place = some old) (content : Content α) (address : Nat) :
    ((heap.write place content).cell? address).map Cell.shape = (heap.cell? address).map Cell.shape := by
  obtain ⟨cell, located, here⟩ := read_eq_some.mp present
  rw [cell?_write]
  split
  · rename_i same
    subst same
    simp only [located, Option.map_some, Option.some.injEq]
    exact Cell.shape_replace here content
  · rfl

/-! ## References and ways -/

def Refers (heap : Heap α) (container target : Nat) : Prop :=
  ∃ selector, heap.read ⟨container, selector⟩ = some (.reference target)

def Closed (heap : Heap α) : Prop := ∀ container target, heap.Refers container target → target < heap.size

/-- A way from the root: distinct containers, the deepest one first. -/
inductive Way (heap : Heap α) (root : Nat) : List Nat → Prop where
  | root : Way heap root [root]
  | step {container target : Nat} {way : List Nat} : Way heap root (container :: way) →
      heap.Refers container target → target ∉ container :: way → Way heap root (target :: container :: way)

/-- A way from the root to a container that does not lead through `avoided`. -/
def ReachedWithout (heap : Heap α) (root avoided container : Nat) : Prop :=
  ∃ way, heap.Way root (container :: way) ∧ avoided ∉ container :: way

theorem Way.of_suffix {root : Nat} {way : List Nat} (found : heap.Way root way) :
    ∀ {before after : List Nat} {container : Nat}, way = before ++ container :: after →
      heap.Way root (container :: after) := by
  induction found with
  | root =>
    intro before after container split
    cases before with
    | nil => cases split; exact .root
    | cons first rest => simp at split
  | step way refers fresh ih =>
    intro before after container split
    cases before with
    | nil => cases split; exact .step way refers fresh
    | cons first rest => exact ih (List.cons.inj split).2

theorem ReachedWithout.here {heap : Heap α} {root avoided : Nat} (different : avoided ≠ root) :
    heap.ReachedWithout root avoided root :=
  ⟨[], .root, by simpa using different⟩

theorem ReachedWithout.ne_root {root avoided container : Nat} (reached : heap.ReachedWithout root avoided container) :
    avoided ≠ root := by
  obtain ⟨way, found, absent⟩ := reached
  suffices onWay : root ∈ container :: way by
    intro same
    exact absent (same ▸ onWay)
  clear absent
  generalize container :: way = containers at found
  induction found with
  | root => exact List.mem_singleton_self _
  | step _ _ _ ih => exact List.mem_cons_of_mem _ ih

/-- A way that comes back to one of its containers is cut off there. -/
theorem ReachedWithout.step {heap : Heap α} {root avoided container target : Nat}
    (reached : heap.ReachedWithout root avoided container) (refers : heap.Refers container target)
    (different : avoided ≠ target) : heap.ReachedWithout root avoided target := by
  obtain ⟨way, found, absent⟩ := reached
  by_cases again : target ∈ container :: way
  · obtain ⟨before, after, split⟩ := List.append_of_mem again
    refine ⟨after, found.of_suffix split, fun member => absent ?_⟩
    rw [split]
    exact List.mem_append_right _ member
  · exact ⟨container :: way, .step found refers again, by simp [different, List.mem_cons.not.mp absent]⟩

end Heap

/-- No way along the relation from the root comes back to where it was. -/
def Acyclic (refers : Nat → Nat → Prop) (root : Nat) : Prop :=
  ∀ address, ReflTransGen refers root address → ¬ TransGen refers address address

/-- Steps into dead ends close no cycle. -/
theorem acyclic_congr {refers refers' : Nat → Nat → Prop} {live : Nat → Prop} {root : Nat}
    (dead : ∀ {first second}, refers first second → live first)
    (agree : ∀ {first second}, refers' first second ↔ refers first second ∧ live second) :
    Acyclic refers root ↔ Acyclic refers' root := by
  have weaken : ∀ {first second}, refers' first second → refers first second := fun step => (agree.mp step).1
  have walk : ∀ {target}, ReflTransGen refers root target → live target → ReflTransGen refers' root target := by
    intro target path
    induction path with
    | refl => exact fun _ => .refl
    | tail _ step ih => exact fun isLive => (ih (dead step)).tail (agree.mpr ⟨step, isLive⟩)
  have cycle : ∀ {first target}, TransGen refers first target → live target → TransGen refers' first target := by
    intro first target path
    induction path with
    | single step => exact fun isLive => .single (agree.mpr ⟨step, isLive⟩)
    | tail _ step ih => exact fun isLive => (ih (dead step)).tail (agree.mpr ⟨step, isLive⟩)
  constructor
  · intro acyclic address path back
    exact acyclic address (path.lift id fun _ _ => weaken) (back.lift id fun _ _ => weaken)
  · intro acyclic address path back
    have isLive : live address := by
      obtain ⟨next, step, -⟩ := TransGen.head'_iff.mp back
      exact dead step
    exact acyclic address (walk path isLive) (cycle back isLive)

end ObjectHeap
