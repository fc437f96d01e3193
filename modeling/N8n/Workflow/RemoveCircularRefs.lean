import N8n.Workflow.CircularRefs

/-! # When breaking circular references is exact

`removeCircularRefs` looks at every property of the objects that it comes to, and at the elements of the arrays
among them, and marks a reference to an object that it has seen before.  Its state is determined by the log of
what it has looked at so far; what is lost in the end is determined by the graph alone.
-/

namespace N8n.CircularRefs

open ObjectHeap PlainData

variable {ν : Type}

/-! ## What removeCircularRefs looks at -/

/-- A place that `removeCircularRefs` looks at under a key of `owner`. -/
structure Sighting where
  owner : Nat
  key : String
  place : Place

/-- An object that has the elements of an array under a key is not looked at there itself. -/
def sightingsAt (heap : Heap (Primitive ν)) (owner : Nat) (key : String) : List Sighting :=
  match heap.read ⟨owner, .key key⟩ with
  | some (.reference value) =>
    match heap.cell? value with
    | some (.array items) => (List.range items.length).map fun index => ⟨owner, key, ⟨value, .index index⟩⟩
    | _ => [⟨owner, key, ⟨owner, .key key⟩⟩]
  | _ => []

def sightings (heap : Heap (Primitive ν)) (owner : Nat) : List Sighting :=
  ((entries heap owner).map Prod.fst).flatMap (sightingsAt heap owner)

def target (heap : Heap (Primitive ν)) (place : Place) : Option Nat :=
  match heap.read place with
  | some (.reference value) => if isTraversableObject heap value then some value else none
  | _ => none

variable {heap : Heap (Primitive ν)} {owner : Nat}

theorem mem_sightingsAt {key : String} {sighting : Sighting} (member : sighting ∈ sightingsAt heap owner key) :
    sighting = ⟨owner, key, ⟨owner, .key key⟩⟩ ∨
      ∃ array items index, heap.read ⟨owner, .key key⟩ = some (.reference array) ∧
        heap.cell? array = some (.array items) ∧ index < items.length ∧
        sighting = ⟨owner, key, ⟨array, .index index⟩⟩ := by
  unfold sightingsAt at member
  split at member
  · rename_i value holds
    split at member
    · rename_i items isArray
      obtain ⟨index, inside, rfl⟩ := List.mem_map.mp member
      exact .inr ⟨value, items, index, holds, isArray, List.mem_range.mp inside, rfl⟩
    · exact .inl (List.mem_singleton.mp member)
  · cases member

theorem owner_of_mem_sightings {sighting : Sighting} (member : sighting ∈ sightings heap owner) :
    sighting.owner = owner := by
  obtain ⟨key, -, here⟩ := List.mem_flatMap.mp member
  rcases mem_sightingsAt here with rfl | ⟨array, items, index, -, -, -, rfl⟩ <;> rfl

theorem key_of_mem_sightingsAt {key : String} {sighting : Sighting} (member : sighting ∈ sightingsAt heap owner key) :
    sighting.key = key := by
  rcases mem_sightingsAt member with rfl | ⟨array, items, index, -, -, -, rfl⟩ <;> rfl

theorem nodup_sightingsAt (heap : Heap (Primitive ν)) (owner : Nat) (key : String) :
    (sightingsAt heap owner key).Nodup := by
  unfold sightingsAt
  split
  · split
    · apply List.nodup_range.map
      intro first second same
      simpa using same
    · exact List.nodup_singleton _
  · exact List.nodup_nil

theorem map_fst_entries {obj : Nat} {fields : OrderedMap String (Content (Primitive ν))}
    (isObject : heap.cell? obj = some (.object fields)) : (entries heap obj).map Prod.fst = fields.keys := by
  simp [entries, isObject, OrderedMap.keys]

theorem nodup_keys_entries (heap : Heap (Primitive ν)) (obj : Nat) : ((entries heap obj).map Prod.fst).Nodup := by
  unfold entries
  split
  · rename_i fields _
    exact fields.nodup_keys
  · exact List.nodup_nil

theorem nodup_sightings (heap : Heap (Primitive ν)) (owner : Nat) : (sightings heap owner).Nodup := by
  rw [sightings, List.nodup_flatMap]
  refine ⟨fun key _ => nodup_sightingsAt heap owner key, ?_⟩
  apply List.Pairwise.imp _ (nodup_keys_entries heap owner)
  intro first second different sighting inFirst inSecond
  exact different ((key_of_mem_sightingsAt inFirst).symm.trans (key_of_mem_sightingsAt inSecond))

theorem read_entry {obj : Nat} {entry : String × Content (Primitive ν)} (member : entry ∈ entries heap obj) :
    heap.read ⟨obj, .key entry.1⟩ = some entry.2 := by
  unfold entries at member
  split at member
  · rename_i fields isObject
    rw [Heap.read_eq_some]
    exact ⟨_, isObject, OrderedMap.get?_eq_some.mpr member⟩
  · cases member

theorem target_eq_some {place : Place} {node : Nat} :
    target heap place = some node ↔
      heap.read place = some (.reference node) ∧ isTraversableObject heap node = true := by
  unfold target
  split
  · rename_i value holds
    rw [holds]
    split
    · rename_i traversable
      constructor
      · intro same
        cases same
        exact ⟨rfl, traversable⟩
      · intro ⟨same, _⟩
        cases same
        rfl
    · rename_i notTraversable
      constructor
      · intro same
        cases same
      · intro ⟨same, traversable⟩
        cases same
        exact absurd traversable notTraversable
  · rename_i other
    constructor
    · intro same
      cases same
    · intro ⟨holds, _⟩
      exact absurd holds (other node)

theorem target_of_read {place : Place} {value : Nat} (holds : heap.read place = some (.reference value)) :
    target heap place = if isTraversableObject heap value then some value else none := by
  simp only [target, holds]

namespace ObjectGraph

variable (graph : ObjectGraph ν)

def sights : Sightings Nat Sighting Place where
  root := graph.root
  listed := sightings graph.heap
  owner := Sighting.owner
  place := Sighting.place
  target := target graph.heap
  owner_eq := owner_of_mem_sightings

variable {graph}

theorem root_lt : graph.root < graph.heap.size := by
  obtain ⟨fields, isObject⟩ := graph.isObject
  exact Heap.cell?_lt isObject

variable {node : Nat}

theorem target_lt {place : Place} (met : target graph.heap place = some node) :
    node < graph.heap.size :=
  graph.closed place.address node ⟨place.selector, (target_eq_some.mp met).1⟩

variable {log : List Sighting}

theorem lt_of_mem_known (member : node ∈ graph.sights.known log) :
    node < graph.heap.size := by
  cases Sightings.mem_known.mp member with
  | inl isRoot => rw [isRoot]; exact root_lt
  | inr met =>
    obtain ⟨sighting, -, met⟩ := met
    exact target_lt met

variable {sighting : Sighting}

theorem owner_of_place_key (scan : graph.sights.Scan log) (member : sighting ∈ log) {obj : Nat} {key : String}
    (at_ : sighting.place = ⟨obj, .key key⟩) :
    sighting.owner = obj := by
  obtain ⟨key', -, here⟩ := List.mem_flatMap.mp (scan.listed member)
  generalize graph.sights.owner sighting = owner at here
  rcases mem_sightingsAt here with rfl | ⟨array, items, index, -, -, -, rfl⟩
  · exact congrArg Place.address at_
  · cases at_

theorem traversable_of_sighting {heap : Heap (Primitive ν)} {owner : Nat} (member : sighting ∈ sightings heap owner) :
    isTraversableObject heap owner = true := by
  obtain ⟨key, isKey, -⟩ := List.mem_flatMap.mp member
  unfold entries at isKey
  split at isKey
  · rename_i fields isObject
    have nonempty : fields.keys ≠ [] := List.ne_nil_of_mem isKey
    simpa [isTraversableObject, isObject] using nonempty
  · cases isKey

theorem traversable_root {owner : Nat} (scanned : graph.sights.Scanned owner)
    (member : sighting ∈ sightings graph.heap owner) : isTraversableObject graph.heap graph.root = true := by
  induction scanned generalizing sighting with
  | root => exact traversable_of_sighting member
  | step _ listed _ ih => exact ih listed

theorem traversable_of_mem_known (scan : graph.sights.Scan log) (owned : sighting.owner ∈ graph.sights.known log)
    (listed : sighting ∈ sightings graph.heap sighting.owner) (member : node ∈ graph.sights.known log) :
    isTraversableObject graph.heap node = true := by
  cases Sightings.mem_known.mp member with
  | inl isRoot => rw [isRoot]; exact traversable_root (scan.scanned_of_mem_known owned) listed
  | inr met =>
    obtain ⟨sighting, -, met⟩ := met
    exact (target_eq_some.mp met).2

end ObjectGraph

/-! ## The state after a part of the scan -/

/-- The state that the sightings met so far leave. -/
structure Upto (graph : ObjectGraph ν) (log : List Sighting) (state : State ν) : Prop where
  size : graph.heap.size ≤ state.heap.size
  shape : ∀ address < graph.heap.size,
    (state.heap.cell? address).map Cell.shape = (graph.heap.cell? address).map Cell.shape
  markers : ∀ address, graph.heap.size ≤ address → ∀ cell, state.heap.cell? address = some cell → cell = marker
  kept : ∀ place, place.address < graph.heap.size → ¬ graph.sights.Repeated log place →
    state.heap.read place = graph.heap.read place
  marked : ∀ place, graph.sights.Repeated log place → ∃ address, graph.heap.size ≤ address ∧
    address < state.heap.size ∧ state.heap.read place = some (.reference address)
  seen : ∀ address < graph.heap.size, address ∈ state.seen ↔ address ∈ graph.sights.known log

theorem isTraversableObject_eq (heap : Heap (Primitive ν)) (value : Nat) :
    isTraversableObject heap value = match (heap.cell? value).map Cell.shape with
      | some (.object keys) => !keys.isEmpty
      | _ => false := by
  unfold isTraversableObject
  cases heap.cell? value with
  | none => rfl
  | some cell => cases cell <;> rfl

namespace Upto

variable {graph : ObjectGraph ν} {log : List Sighting} {state : State ν}

theorem isTraversableObject_eq_start (upto : Upto graph log state) {value : Nat} (inside : value < graph.heap.size) :
    isTraversableObject state.heap value = isTraversableObject graph.heap value := by
  rw [isTraversableObject_eq, isTraversableObject_eq, upto.shape value inside]

theorem cell?_marker (upto : Upto graph log state) {address : Nat} (beyond : graph.heap.size ≤ address)
    (inside : address < state.heap.size) : state.heap.cell? address = some marker := by
  obtain ⟨cell, located⟩ := Heap.exists_cell inside
  rw [located, upto.markers address beyond cell located]

variable {sighting : Sighting}

theorem mark (upto : Upto graph log state) {node : Nat} (met : target graph.heap sighting.place = some node)
    (isKnown : node ∈ graph.sights.known log) :
    Upto graph (log ++ [sighting]) (state.mark sighting.place) := by
  have repeats : ∀ place, graph.sights.Repeated (log ++ [sighting]) place ↔
      graph.sights.Repeated log place ∨ place = sighting.place := by
    intro place
    rw [Sightings.repeated_append_singleton]
    apply or_congr Iff.rfl
    constructor
    · exact fun found => found.1.symm
    · intro same
      exact ⟨same.symm, node, same ▸ met, isKnown⟩
  have inside : sighting.place.address < graph.heap.size := Heap.read_lt (target_eq_some.mp met).1
  -- the place has a reference, the one from the start or a marker; the new marker is a cell behind all others
  have present : ∃ old, (state.heap.allocate marker).read sighting.place = some old := by
    rw [Heap.read_allocate_of_lt (Nat.lt_of_lt_of_le inside upto.size)]
    by_cases repeated : graph.sights.Repeated log sighting.place
    · obtain ⟨address, -, -, holds⟩ := upto.marked _ repeated
      exact ⟨_, holds⟩
    · rw [upto.kept _ inside repeated]
      exact ⟨_, (target_eq_some.mp met).1⟩
  obtain ⟨old, present⟩ := present
  have reads := Heap.read_write present (.reference state.heap.size)
  constructor
  · simp only [State.mark, Heap.size_write, Heap.size_allocate]
    have := upto.size
    omega
  · intro address within
    simp only [State.mark]
    rw [Heap.shape_write present, Heap.cell?_allocate_of_lt (Nat.lt_of_lt_of_le within upto.size)]
    exact upto.shape address within
  · intro address beyond cell located
    simp only [State.mark] at located
    rw [Heap.cell?_write, if_neg (by omega), Heap.cell?_allocate] at located
    split at located
    · exact (Option.some.inj located).symm
    · exact upto.markers address beyond cell located
  · intro place within notRepeated
    rw [repeats, not_or] at notRepeated
    simp only [State.mark]
    rw [reads, if_neg notRepeated.2, Heap.read_allocate_of_lt (Nat.lt_of_lt_of_le within upto.size)]
    exact upto.kept place within notRepeated.1
  · intro place repeated
    simp only [State.mark, reads, Heap.size_write, Heap.size_allocate]
    by_cases here : place = sighting.place
    · exact ⟨state.heap.size, upto.size, Nat.lt_succ_self _, by rw [if_pos here]⟩
    · obtain ⟨address, beyond, bound, holds⟩ := upto.marked place (((repeats place).mp repeated).resolve_right here)
      refine ⟨address, beyond, Nat.lt_succ_of_lt bound, ?_⟩
      rw [if_neg here, Heap.read_allocate_of_lt (Heap.read_lt holds)]
      exact holds
  · intro address within
    have grows : graph.sights.target (graph.sights.place sighting) = some node := met
    rw [Sightings.known_append_singleton, grows, Option.toList_some, List.mem_append, List.mem_singleton,
      or_iff_left_of_imp (fun same => same ▸ isKnown)]
    exact upto.seen address within

theorem pass (upto : Upto graph log state)
    (nothing : ∀ node, target graph.heap sighting.place = some node → node ∈ graph.sights.known log ∧
      graph.sights.Repeated log sighting.place) :
    Upto graph (log ++ [sighting]) state := by
  have repeats : ∀ place, graph.sights.Repeated (log ++ [sighting]) place ↔ graph.sights.Repeated log place := by
    intro place
    rw [Sightings.repeated_append_singleton, or_iff_left_of_imp]
    intro ⟨at_, node, met, _⟩
    obtain rfl : sighting.place = place := at_
    exact (nothing node met).2
  constructor
  · exact upto.size
  · exact upto.shape
  · exact upto.markers
  · intro place within notRepeated
    exact upto.kept place within ((repeats place).not.mp notRepeated)
  · intro place repeated
    exact upto.marked place ((repeats place).mp repeated)
  · intro address within
    have here : graph.sights.target (graph.sights.place sighting) = target graph.heap sighting.place := rfl
    rw [Sightings.known_append_singleton, here, List.mem_append, Option.mem_toList,
      or_iff_left_of_imp (fun met => (nothing address met).1)]
    exact upto.seen address within

theorem add_marker (upto : Upto graph log state) {address : Nat} (beyond : graph.heap.size ≤ address) :
    Upto graph log (state.add address) where
  size := upto.size
  shape := upto.shape
  markers := upto.markers
  kept := upto.kept
  marked := upto.marked
  seen := by
    intro other within
    have different : other ≠ address := by omega
    simp only [State.add, List.mem_append, List.mem_singleton, different, or_false]
    exact upto.seen other within

theorem enter (upto : Upto graph log state) {node : Nat} (met : target graph.heap sighting.place = some node)
    (unknown : node ∉ graph.sights.known log) :
    Upto graph (log ++ [sighting]) (state.add node) := by
  have repeats : ∀ place, graph.sights.Repeated (log ++ [sighting]) place ↔ graph.sights.Repeated log place := by
    intro place
    rw [Sightings.repeated_append_singleton, or_iff_left_of_imp]
    intro ⟨at_, node', met', isKnown⟩
    obtain rfl : sighting.place = place := at_
    obtain rfl : node' = node := Option.some.inj (met'.symm.trans met)
    exact absurd isKnown unknown
  constructor
  · exact upto.size
  · exact upto.shape
  · exact upto.markers
  · intro place within notRepeated
    exact upto.kept place within ((repeats place).not.mp notRepeated)
  · intro place repeated
    exact upto.marked place ((repeats place).mp repeated)
  · intro address within
    have grows : graph.sights.target (graph.sights.place sighting) = some node := met
    rw [Sightings.known_append_singleton, grows, Option.toList_some, State.add, List.mem_append, List.mem_append]
    exact or_congr (upto.seen address within) Iff.rfl

end Upto

/-! ## The run -/

def pending (graph : ObjectGraph ν) (log : List Sighting) : List Nat :=
  Traversal.unmarked (List.range graph.heap.size) (graph.sights.known log)

/-- A state of the loops that call with `fuel`. -/
structure Good (graph : ObjectGraph ν) (fuel : Nat) (log : List Sighting) (state : State ν) : Prop where
  upto : Upto graph log state
  scan : graph.sights.Scan log
  enough : (pending graph log).length < fuel

/-- A call for a known object that no sighting has had as its owner covers the object. -/
def CoversObject (graph : ObjectGraph ν) (fuel : Nat) : Prop :=
  ∀ log (state : State ν) node, Upto graph log (state.add node) → graph.sights.Scan log →
    (pending graph log).length + 1 < fuel → node ∈ graph.sights.known log →
    (∀ sighting ∈ log, sighting.owner ≠ node) → ∃ more after,
      removeCircularRefs fuel node state = some after ∧ Upto graph (log ++ more) after ∧
        graph.sights.Scan (log ++ more) ∧ graph.sights.Advance node log more (sightings graph.heap node)

section

variable {graph : ObjectGraph ν} {fuel : Nat}

theorem length_pending_le (log more : List Sighting) :
    (pending graph (log ++ more)).length ≤ (pending graph log).length :=
  Traversal.length_unmarked_le _ (Sightings.known_subset (List.prefix_append log more))

variable {log : List Sighting}

theorem length_pending_lt {sighting : Sighting} {node : Nat} (met : target graph.heap sighting.place = some node)
    (unknown : node ∉ graph.sights.known log) :
    (pending graph (log ++ [sighting])).length < (pending graph log).length := by
  have here : graph.sights.target (graph.sights.place sighting) = some node := met
  rw [pending, Sightings.known_append_singleton, here, Option.toList_some]
  exact Traversal.length_unmarked_lt (List.mem_range.mpr (ObjectGraph.target_lt met)) unknown

variable {state : State ν}

theorem removeCircularRefs_marker {address : Nat} (isMarker : state.heap.cell? address = some marker)
    (positive : 0 < fuel) :
    removeCircularRefs fuel address state = some (state.add address) := by
  obtain ⟨fuel, rfl⟩ := Nat.exists_eq_succ_of_ne_zero (Nat.ne_of_gt positive)
  have listed : entries state.heap address = [("circularReference", .primitive (.boolean true))] := by
    simp [entries, isMarker, marker]
  rw [removeCircularRefs, listed]
  rfl

/-- A sighting that may come next: its owner is known, and it has not been met. -/
structure Due (graph : ObjectGraph ν) (log : List Sighting) (sighting : Sighting) : Prop where
  owned : sighting.owner ∈ graph.sights.known log
  listed : sighting ∈ sightings graph.heap sighting.owner
  fresh : sighting ∉ log

def Turns (graph : ObjectGraph ν) (fuel : Nat) (log : List Sighting) (sighting : Sighting)
    (run : Option (State ν)) : Prop :=
  ∃ more after, run = some after ∧ Good graph fuel (log ++ more) after ∧
    graph.sights.Advance sighting.owner log more [sighting]

section

variable {log : List Sighting} {state : State ν} {sighting : Sighting} {node : Nat}

theorem Good.turns (good : Good graph fuel log state) (due : Due graph log sighting) {after : State ν}
    (upto : Upto graph (log ++ [sighting]) after)
    (nothing : ∀ node, target graph.heap sighting.place = some node → node ∈ graph.sights.known log) :
    Turns graph fuel log sighting (some after) := by
  refine ⟨[sighting], after, rfl, ?_, .pass rfl nothing⟩
  constructor
  · exact upto
  · exact .meet good.scan due.owned due.listed due.fresh
  · exact Nat.lt_of_le_of_lt (length_pending_le log _) good.enough

theorem turns_none (good : Good graph fuel log state) (due : Due graph log sighting)
    (none : target graph.heap sighting.place = none) : Turns graph fuel log sighting (some state) := by
  have nothing : ∀ node, target graph.heap sighting.place ≠ some node := by simp [none]
  apply good.turns due
  · exact good.upto.pass fun node met => absurd met (nothing node)
  · exact fun node met => absurd met (nothing node)

theorem turns_known (good : Good graph fuel log state) (due : Due graph log sighting)
    (met : target graph.heap sighting.place = some node) (isKnown : node ∈ graph.sights.known log) :
    Turns graph fuel log sighting (some (state.mark sighting.place)) := by
  apply good.turns due (good.upto.mark met isKnown)
  intro other met'
  obtain rfl : other = node := Option.some.inj (met'.symm.trans met)
  exact isKnown

/-- The turn of a place that has a marker already, which may be seen for the first time. -/
theorem turns_marker (good : Good graph fuel log state) (due : Due graph log sighting)
    (met : target graph.heap sighting.place = some node) (isKnown : node ∈ graph.sights.known log)
    (repeated : graph.sights.Repeated log sighting.place) {address : Nat} (beyond : graph.heap.size ≤ address) :
    Turns graph fuel log sighting (some (state.add address)) := by
  have same : ∀ other, target graph.heap sighting.place = some other → other = node :=
    fun other met' => Option.some.inj (met'.symm.trans met)
  apply good.turns due
  · apply Upto.add_marker _ beyond
    apply good.upto.pass
    intro other met'
    exact ⟨same other met' ▸ isKnown, repeated⟩
  · intro other met'
    exact same other met' ▸ isKnown

/-- The turn of a place where an object is met for the first time. -/
theorem turns_unknown (covers : CoversObject graph fuel) (good : Good graph fuel log state)
    (due : Due graph log sighting) (met : target graph.heap sighting.place = some node)
    (unknown : node ∉ graph.sights.known log) :
    Turns graph fuel log sighting (removeCircularRefs fuel node state) := by
  have scan : graph.sights.Scan (log ++ [sighting]) := .meet good.scan due.owned due.listed due.fresh
  have fewer := length_pending_lt met unknown
  have enough := good.enough
  have isKnown : node ∈ graph.sights.known (log ++ [sighting]) :=
    Sightings.mem_known.mpr (.inr ⟨sighting, by simp, met⟩)
  -- an owner is known, so that the call is the first one for the object
  have notOwner : ∀ other ∈ log ++ [sighting], other.owner ≠ node := by
    intro other member same
    cases List.mem_append.mp member with
    | inl earlier => exact unknown (same ▸ good.scan.owner_mem_known earlier)
    | inr last =>
      obtain rfl := List.mem_singleton.mp last
      exact unknown (same ▸ due.owned)
  obtain ⟨more, after, returns, upto, scan', advance⟩ :=
    covers _ state node (good.upto.enter met unknown) scan (by omega) isKnown notOwner
  rw [List.append_assoc] at upto scan'
  refine ⟨sighting :: more, after, returns, ⟨upto, scan', ?_⟩, .enter rfl due.owned met unknown advance⟩
  exact Nat.lt_of_le_of_lt (length_pending_le log _) enough

/-- The turn of a place whose reference was not replaced: the target decides. -/
theorem turns_reference (covers : CoversObject graph fuel) (good : Good graph fuel log state)
    (due : Due graph log sighting) {value : Nat} (holds : graph.heap.read sighting.place = some (.reference value))
    {run : Option (State ν)}
    (known : value ∈ state.seen → isTraversableObject state.heap value = true →
      run = some (state.mark sighting.place))
    (unknown : value ∉ state.seen → isTraversableObject state.heap value = true →
      run = removeCircularRefs fuel value state)
    (leaf : value ∉ state.seen → isTraversableObject state.heap value = false → run = some state) :
    Turns graph fuel log sighting run := by
  have inHeap : value < graph.heap.size := graph.closed _ value ⟨_, holds⟩
  rw [good.upto.isTraversableObject_eq_start inHeap] at known unknown leaf
  rw [good.upto.seen value inHeap] at known unknown leaf
  cases traversable : isTraversableObject graph.heap value with
  | true =>
    have met : target graph.heap sighting.place = some value := target_eq_some.mpr ⟨holds, traversable⟩
    by_cases isKnown : value ∈ graph.sights.known log
    · rw [known isKnown traversable]
      exact turns_known good due met isKnown
    · rw [unknown isKnown traversable]
      exact turns_unknown covers good due met isKnown
  | false =>
    -- what is known can be traversed, since the root has something to look at
    have isUnknown : value ∉ graph.sights.known log := by
      intro member
      simp [ObjectGraph.traversable_of_mem_known good.scan due.owned due.listed member] at traversable
    rw [leaf isUnknown traversable]
    apply turns_none good due
    rw [target_of_read holds, traversable]
    rfl

end

/-- The turn of an element of an array that `owner` has under a key. -/
theorem covers_visitItem (covers : CoversObject graph fuel) {owner : Nat} {key : String} {array index : Nat}
    {items : List (Content (Primitive ν))} (isArray : graph.heap.cell? array = some (.array items))
    (inside : index < items.length)
    (listed : ⟨owner, key, ⟨array, .index index⟩⟩ ∈ sightings graph.heap owner) :
    graph.sights.Covers (Good graph fuel) owner [⟨owner, key, ⟨array, .index index⟩⟩]
      (visitItem (removeCircularRefs fuel) array · index) := by
  intro log state good owned fresh
  have due : Due graph log ⟨owner, key, ⟨array, .index index⟩⟩ := ⟨owned, listed, fresh _ List.mem_cons_self⟩
  change Turns graph fuel log ⟨owner, key, ⟨array, .index index⟩⟩
    (visitItem (removeCircularRefs fuel) array state index)
  have holds : graph.heap.read ⟨array, .index index⟩ = some items[index] :=
    Heap.read_eq_some.mpr ⟨_, isArray, List.getElem?_eq_getElem inside⟩
  -- what the turn does depends on the element as it is now
  by_cases repeated : graph.sights.Repeated log ⟨array, .index index⟩
  · obtain ⟨address, beyond, bound, now⟩ := good.upto.marked _ repeated
    obtain ⟨before, last, isPrefix, -, node, met, isKnown⟩ := id repeated
    have isKnown := Sightings.known_subset ((List.prefix_append before [last]).trans isPrefix) isKnown
    by_cases again : address ∈ state.seen
    · simp only [visitItem, now, again, if_true]
      exact turns_known good due met isKnown
    · have isMarker := good.upto.cell?_marker beyond bound
      have traversable : isTraversableObject state.heap address = true := by
        simp [isTraversableObject, isMarker, marker, OrderedMap.keys]
      simp only [visitItem, now, again, traversable, if_true, if_false]
      rw [removeCircularRefs_marker isMarker (Nat.zero_lt_of_lt good.enough)]
      exact turns_marker good due met isKnown repeated beyond
  · have now := good.upto.kept _ (Heap.read_lt holds) repeated
    rw [holds] at now
    cases isItem : items[index] with
    | primitive value =>
      rw [isItem] at holds now
      simp only [visitItem, now]
      apply turns_none good due
      simp [target, holds]
    | reference val =>
      rw [isItem] at holds now
      apply turns_reference covers good due holds
      · intro seen _
        simp [visitItem, now, seen]
      · intro unseen traversable
        simp [visitItem, now, unseen, traversable]
      · intro unseen leaf
        simp [visitItem, now, unseen, leaf]

theorem Upto.array (upto : Upto graph log state) {array : Nat} {items : List (Content (Primitive ν))}
    (isArray : graph.heap.cell? array = some (.array items)) :
    ∃ live, state.heap.cell? array = some (.array live) ∧ live.length = items.length := by
  have same := upto.shape array (Heap.cell?_lt isArray)
  rw [isArray] at same
  obtain ⟨cell, located, shape⟩ := Option.map_eq_some_iff.mp same
  cases cell with
  | object fields => cases shape
  | array live => exact ⟨live, located, Shape.array.inj shape⟩

theorem Upto.object (upto : Upto graph log state) {obj : Nat} {fields : OrderedMap String (Content (Primitive ν))}
    (isObject : graph.heap.cell? obj = some (.object fields)) :
    ∃ live, state.heap.cell? obj = some (.object live) ∧ live.keys = fields.keys := by
  have same := upto.shape obj (Heap.cell?_lt isObject)
  rw [isObject] at same
  obtain ⟨cell, located, shape⟩ := Option.map_eq_some_iff.mp same
  cases cell with
  | object live => exact ⟨live, located, Shape.object.inj shape⟩
  | array items => cases shape

/-- The turn of a property, whose value was read when the call began. -/
theorem covers_visitEntry (covers : CoversObject graph fuel) {owner : Nat} {entry : String × Content (Primitive ν)}
    (isKey : entry.1 ∈ (entries graph.heap owner).map Prod.fst)
    (holds : graph.heap.read ⟨owner, .key entry.1⟩ = some entry.2) :
    graph.sights.Covers (Good graph fuel) owner (sightingsAt graph.heap owner entry.1)
      (visitEntry (removeCircularRefs fuel) owner · entry) := by
  have listed : ∀ sighting ∈ sightingsAt graph.heap owner entry.1, sighting ∈ sightings graph.heap owner :=
    fun sighting member => List.mem_flatMap.mpr ⟨entry.1, isKey, member⟩
  obtain ⟨key, value⟩ := entry
  cases value with
  | primitive value =>
    intro log state good _ _
    simp only [sightingsAt, holds]
    exact ⟨[], state, rfl, by simpa using good, .nil owner log⟩
  | reference value =>
    have inHeap : value < graph.heap.size := graph.closed _ value ⟨_, holds⟩
    obtain ⟨cell, located⟩ := Heap.exists_cell inHeap
    cases cell with
    | array items =>
      have segment : sightingsAt graph.heap owner key =
          (List.range items.length).flatMap fun index => [⟨owner, key, ⟨value, .index index⟩⟩] := by
        simp only [sightingsAt, holds, located, List.map_eq_flatMap]
      have nodup := nodup_sightingsAt graph.heap owner key
      rw [segment] at listed nodup ⊢
      have loop : graph.sights.Covers (Good graph fuel) owner
          ((List.range items.length).flatMap fun index => [⟨owner, key, ⟨value, .index index⟩⟩])
          ((List.range items.length).foldlM (visitItem (removeCircularRefs fuel) value) ·) := by
        apply Sightings.Covers.foldlM nodup
        · intro index _ sighting member
          rw [List.mem_singleton.mp member]
          rfl
        · intro index member
          apply covers_visitItem covers located (List.mem_range.mp member)
          exact listed _ (List.mem_flatMap.mpr ⟨index, member, List.mem_singleton_self _⟩)
      intro log state good owned fresh
      obtain ⟨live, isArray, sameLength⟩ := good.upto.array located
      have run : visitEntry (removeCircularRefs fuel) owner state (key, .reference value) =
          (List.range items.length).foldlM (visitItem (removeCircularRefs fuel) value) state := by
        simp [visitEntry, isTraversableObject, isArray, sameLength]
      simp only [run]
      exact loop log state good owned fresh
    | object fields =>
      have segment : sightingsAt graph.heap owner key = [⟨owner, key, ⟨owner, .key key⟩⟩] := by
        simp [sightingsAt, holds, located]
      rw [segment] at listed ⊢
      intro log state good owned fresh
      have due : Due graph log ⟨owner, key, ⟨owner, .key key⟩⟩ :=
        ⟨owned, listed _ List.mem_cons_self, fresh _ List.mem_cons_self⟩
      obtain ⟨live, isObject, -⟩ := good.upto.object located
      apply turns_reference covers good due holds
      · intro seen traversable
        simp [visitEntry, traversable, seen]
      · intro unseen traversable
        simp [visitEntry, traversable, unseen]
      · intro _ leaf
        simp [visitEntry, leaf, isObject]

/-- By induction on the fuel: a call covers its object. -/
theorem coversObject (graph : ObjectGraph ν) (fuel : Nat) : CoversObject graph fuel := by
  induction fuel with
  | zero => intro log state node _ _ enough; exact absurd enough (Nat.not_lt_zero _)
  | succ fuel ih =>
    intro log state node upto scan enough isKnown notOwner
    -- before its call nothing has changed an object but the elements of its arrays
    have keys : (entries state.heap node).map Prod.fst = (entries graph.heap node).map Prod.fst := by
      obtain ⟨cell, located⟩ := Heap.exists_cell (ObjectGraph.lt_of_mem_known isKnown)
      cases cell with
      | object fields =>
        obtain ⟨live, isObject, sameKeys⟩ := upto.object located
        have isObject : state.heap.cell? node = some (.object live) := isObject
        rw [map_fst_entries located, map_fst_entries isObject, sameKeys]
      | array items =>
        obtain ⟨live, isArray, -⟩ := upto.array located
        have isArray : state.heap.cell? node = some (.array live) := isArray
        simp [entries, located, isArray]
    have segment : (entries state.heap node).flatMap (fun entry => sightingsAt graph.heap node entry.1) =
        sightings graph.heap node := by
      rw [sightings, ← keys, List.flatMap_map]
    have unchanged : ∀ entry ∈ entries state.heap node,
        graph.heap.read ⟨node, .key entry.1⟩ = some entry.2 := by
      intro entry member
      have holds : (state.add node).heap.read ⟨node, .key entry.1⟩ = some entry.2 := read_entry member
      rw [← holds]
      symm
      apply upto.kept _ (ObjectGraph.lt_of_mem_known isKnown)
      rintro ⟨before, sighting, isPrefix, at_, -⟩
      have member : sighting ∈ log := isPrefix.subset (by simp)
      exact notOwner sighting member (ObjectGraph.owner_of_place_key scan member at_)
    have loop : graph.sights.Covers (Good graph fuel) node (sightings graph.heap node)
        ((entries state.heap node).foldlM (visitEntry (removeCircularRefs fuel) node) ·) := by
      have nodup := nodup_sightings graph.heap node
      rw [← segment] at nodup ⊢
      apply Sightings.Covers.foldlM nodup
      · intro entry member sighting here
        apply owner_of_mem_sightings
        rw [← segment]
        exact List.mem_flatMap.mpr ⟨entry, member, here⟩
      · intro entry member
        apply covers_visitEntry ih _ (unchanged entry member)
        rw [← keys]
        exact List.mem_map_of_mem member
    have fresh : ∀ sighting ∈ sightings graph.heap node, sighting ∉ log := by
      intro sighting member inLog
      exact notOwner sighting inLog (owner_of_mem_sightings member)
    obtain ⟨more, after, returns, good, advance⟩ :=
      loop log (state.add node) ⟨upto, scan, by omega⟩ isKnown fresh
    exact ⟨more, after, returns, good.upto, good.scan, advance⟩

/-- A run from the root comes to an end, and its log has what the scanned objects list. -/
theorem removeCircularRefs_run (graph : ObjectGraph ν) {fuel : Nat} (enough : graph.heap.size + 1 < fuel) :
    ∃ log after, removeCircularRefs fuel graph.root ⟨graph.heap, []⟩ = some after ∧ Upto graph log after ∧
      graph.sights.Scan log ∧ graph.sights.Advance graph.root [] log (sightings graph.heap graph.root) := by
  -- the root is seen, and nothing has been looked at
  have start : Upto graph [] (State.add ⟨graph.heap, []⟩ graph.root) := by
    constructor
    · exact Nat.le_refl _
    · exact fun _ _ => rfl
    · intro address beyond cell located
      exact absurd (Heap.cell?_lt located) (Nat.not_lt.mpr beyond)
    · exact fun _ _ _ => rfl
    · intro place repeated
      exact absurd repeated (Sightings.not_repeated_nil place)
    · intro address _
      exact Iff.rfl
  have bound : (pending graph []).length ≤ graph.heap.size := by
    apply Nat.le_trans (List.length_filter_le _ _)
    simp
  exact coversObject graph fuel [] _ graph.root start .start (by omega) (Sightings.root_mem_known []) (by simp)

theorem Upto.container_lt (upto : Upto graph log state) {container node : Nat}
    (refers : state.heap.Refers container node) : container < graph.heap.size := by
  obtain ⟨selector, holds⟩ := refers
  apply Nat.lt_of_not_le
  intro beyond
  obtain ⟨cell, located, here⟩ := Heap.read_eq_some.mp holds
  rw [upto.markers container beyond cell located] at here
  cases selector with
  | index position => cases here
  | key name =>
    have member := OrderedMap.get?_eq_some.mp here
    simp at member

end

/-! ## What is left of the graph -/

namespace ObjectGraph

variable (graph : ObjectGraph ν)

/-- `removeCircularRefs` looks at the sighting when it comes to its owner. -/
def LooksAt (sighting : Sighting) : Prop :=
  graph.sights.Scanned sighting.owner ∧ sighting ∈ sightings graph.heap sighting.owner

/-- No object is looked at twice at places that can be reached without it. -/
def ReadOnce : Prop :=
  ∀ first second node, graph.LooksAt first → graph.LooksAt second → target graph.heap first.place = some node →
    target graph.heap second.place = some node → graph.heap.ReachedWithout graph.root node first.place.address →
    graph.heap.ReachedWithout graph.root node second.place.address → first = second

/-- A place that is looked at and can be reached through the object there only. -/
def Cut (place : Place) : Prop :=
  ∃ sighting node, graph.LooksAt sighting ∧ sighting.place = place ∧ target graph.heap place = some node ∧
    ¬ graph.heap.ReachedWithout graph.root node place.address

/-- The references at the other places. -/
def Remaining (container node : Nat) : Prop :=
  ∃ selector, graph.heap.read ⟨container, selector⟩ = some (.reference node) ∧ ¬ graph.Cut ⟨container, selector⟩

/-- Where a way leads to a container, it keeps its keys or its length, and every value that does not refer back
to a container on the way. -/
structure Kept (after : Heap (Primitive ν)) : Prop where
  shape : ∀ container way, graph.heap.Way graph.root (container :: way) →
    (after.cell? container).map Cell.shape = (graph.heap.cell? container).map Cell.shape
  values : ∀ container way, graph.heap.Way graph.root (container :: way) → ∀ selector content,
    graph.heap.read ⟨container, selector⟩ = some content →
    (∀ node, content = .reference node → node ∉ container :: way) → after.read ⟨container, selector⟩ = some content

variable {graph}

theorem enter_container {avoided node : Nat} {sighting : Sighting} {place : Place}
    (listed : sighting ∈ sightings graph.heap node) (isTarget : target graph.heap place = some avoided)
    (reached : graph.heap.ReachedWithout graph.root avoided node) :
    graph.heap.ReachedWithout graph.root avoided sighting.place.address := by
  obtain ⟨key, -, here⟩ := List.mem_flatMap.mp listed
  rcases mem_sightingsAt here with rfl | ⟨array, items, index, holds, isArray, -, rfl⟩
  · exact reached
  · apply reached.step ⟨_, holds⟩
    rintro rfl
    have traversable := (target_eq_some.mp isTarget).2
    simp [isTraversableObject, isArray] at traversable

theorem follow_target {avoided node : Nat} {place : Place}
    (reached : graph.heap.ReachedWithout graph.root avoided place.address)
    (met : target graph.heap place = some node) (different : avoided ≠ node) :
    graph.heap.ReachedWithout graph.root avoided node :=
  reached.step ⟨place.selector, (target_eq_some.mp met).1⟩ different

theorem way_lt {container : Nat} {way : List Nat} (found : graph.heap.Way graph.root (container :: way)) :
    container < graph.heap.size := by
  cases found with
  | root => exact root_lt
  | step _ refers _ => exact graph.closed _ _ refers

section

variable {log : List Sighting} {after : State ν}

theorem exists_target {place : Place} (repeated : graph.sights.Repeated log place) :
    ∃ node, target graph.heap place = some node := by
  obtain ⟨before, sighting, -, -, node, met, -⟩ := repeated
  exact ⟨node, met⟩

/-- Only a repeated place loses its value. -/
theorem kept_iff (upto : Upto graph log after) : graph.Kept after.heap ↔ ∀ place node, graph.sights.Repeated log place →
    target graph.heap place = some node → ¬ graph.heap.ReachedWithout graph.root node place.address := by
  constructor
  · intro kept place node repeated met ⟨way, found, absent⟩
    have holds := (target_eq_some.mp met).1
    have same := kept.values _ way found place.selector _ holds (by rintro _ ⟨⟩; exact absent)
    obtain ⟨address, beyond, -, marked⟩ := upto.marked place repeated
    have : address = node := Content.reference.inj (Option.some.inj (marked.symm.trans same))
    have inside := target_lt met
    omega
  · intro unreached
    constructor
    · intro container way found
      exact upto.shape container (way_lt found)
    · intro container way found selector content holds notBack
      by_cases repeated : graph.sights.Repeated log ⟨container, selector⟩
      · obtain ⟨node, met⟩ := exists_target repeated
        have isReference : content = .reference node := Option.some.inj (holds.symm.trans (target_eq_some.mp met).1)
        exact absurd ⟨way, found, notBack node isReference⟩ (unreached _ node repeated met)
      · rw [upto.kept _ (way_lt found) repeated]
        exact holds

/-- The references to cells that were there are those at places that are not repeated. -/
theorem refers_after_iff (upto : Upto graph log after) {container node : Nat} :
    (∃ selector, graph.heap.read ⟨container, selector⟩ = some (.reference node) ∧
        ¬ graph.sights.Repeated log ⟨container, selector⟩) ↔
      after.heap.Refers container node ∧ node < graph.heap.size := by
  constructor
  · intro ⟨selector, holds, notRepeated⟩
    refine ⟨⟨selector, ?_⟩, graph.closed container node ⟨selector, holds⟩⟩
    rw [upto.kept _ (Heap.read_lt holds) notRepeated]
    exact holds
  · intro ⟨⟨selector, holds⟩, inside⟩
    have notRepeated : ¬ graph.sights.Repeated log ⟨container, selector⟩ := by
      intro repeated
      obtain ⟨address, beyond, -, marked⟩ := upto.marked _ repeated
      have : address = node := Content.reference.inj (Option.some.inj (marked.symm.trans holds))
      omega
    refine ⟨selector, ?_, notRepeated⟩
    rw [← upto.kept _ (upto.container_lt ⟨selector, holds⟩) notRepeated]
    exact holds

/-- Where two sightings could be met without each other, the later one is lost. -/
theorem readOnce_iff (scan : graph.sights.Scan log)
    (advance : graph.sights.Advance graph.root [] log (sightings graph.heap graph.root)) :
    graph.ReadOnce ↔ ∀ place node, graph.sights.Repeated log place → target graph.heap place = some node →
      ¬ graph.heap.ReachedWithout graph.root node place.address := by
  constructor
  · -- the first sighting of a node was met without passing the node
    intro once place node repeated met reached
    obtain ⟨first, member, second, member', different, rfl, metFirst, reachedFirst⟩ :=
      scan.two_of_repeated Heap.ReachedWithout.here enter_container follow_target repeated met reached.ne_root
    apply different
    exact once first second node ((scan.mem_iff advance).mp member) ((scan.mem_iff advance).mp member') metFirst met
      reachedFirst reached
  · -- of two sightings the later one is repeated
    intro unreached first second node looks looks' met met' reached reached'
    apply Classical.byContradiction
    intro different
    cases scan.repeated_of_two ((scan.mem_iff advance).mpr looks) ((scan.mem_iff advance).mpr looks') different met
      met' with
    | inl repeated => exact unreached _ node repeated met reached
    | inr repeated => exact unreached _ node repeated met' reached'

/-- When only places below their target are repeated, these are the places that are cut. -/
theorem cut_iff_repeated (scan : graph.sights.Scan log)
    (advance : graph.sights.Advance graph.root [] log (sightings graph.heap graph.root))
    (unreached : ∀ place node, graph.sights.Repeated log place → target graph.heap place = some node →
      ¬ graph.heap.ReachedWithout graph.root node place.address) {place : Place} :
    graph.Cut place ↔ graph.sights.Repeated log place := by
  constructor
  · rintro ⟨sighting, node, looks, rfl, met, notReached⟩
    exact scan.repeated_of_not_reached Heap.ReachedWithout.here enter_container follow_target
      ((scan.mem_iff advance).mpr looks) met notReached
  · intro repeated
    obtain ⟨before, sighting, isPrefix, at_, node, met, -⟩ := id repeated
    have member : sighting ∈ log := isPrefix.subset (by simp)
    exact ⟨sighting, node, (scan.mem_iff advance).mp member, at_, met, unreached place node repeated met⟩

theorem removes_iff (upto : Upto graph log after) (scan : graph.sights.Scan log)
    (advance : graph.sights.Advance graph.root [] log (sightings graph.heap graph.root)) :
    Acyclic after.heap.Refers graph.root ∧ graph.Kept after.heap ↔
      graph.ReadOnce ∧ Acyclic graph.Remaining graph.root := by
  rw [kept_iff upto, ← readOnce_iff scan advance, and_comm]
  apply and_congr_right
  intro once
  have left : graph.Remaining = fun container node => ∃ selector,
      graph.heap.read ⟨container, selector⟩ = some (.reference node) ∧
        ¬ graph.sights.Repeated log ⟨container, selector⟩ := by
    funext container node
    simp only [Remaining, cut_iff_repeated scan advance ((readOnce_iff scan advance).mp once)]
  rw [left]
  exact acyclic_congr upto.container_lt (refers_after_iff upto)

end

end ObjectGraph

/-! ## Both functions -/

/-- With a call stack that is deep enough, `removeCircularRefs` comes to an end and leaves no cycle, and keeps
every value that does not refer back to a container on its way; `replaceCircularReferences` comes to an end and
returns a copy of the value. -/
structure ObjectGraph.BreaksCycles (graph : ObjectGraph ν) : Prop where
  removes : ∃ depth, ∀ fuel, depth ≤ fuel → ∃ after,
    removeCircularRefs fuel graph.root ⟨graph.heap, []⟩ = some after ∧
      Acyclic after.heap.Refers graph.root ∧ graph.Kept after.heap
  replaces : ∀ value, InHeap graph.heap value → ∃ depth, ∀ fuel, depth ≤ fuel → ∃ copy,
    replaceCircularReferences graph.heap fuel value [] = some (copy, []) ∧ CopyOf graph.heap [] value copy

/-- The run of `removeCircularRefs` with any call stack that is deep enough decides. -/
theorem ObjectGraph.removes_iff_static (graph : ObjectGraph ν) :
    (∃ depth, ∀ fuel, depth ≤ fuel → ∃ after, removeCircularRefs fuel graph.root ⟨graph.heap, []⟩ = some after ∧
      Acyclic after.heap.Refers graph.root ∧ graph.Kept after.heap) ↔
        graph.ReadOnce ∧ Acyclic graph.Remaining graph.root := by
  constructor
  · -- the run is the one that the log describes, however deep the call stack has to be
    intro ⟨depth, removes⟩
    obtain ⟨after, returns, good⟩ := removes (depth + graph.heap.size + 2) (by omega)
    obtain ⟨log, after', returns', upto, scan, advance⟩ :=
      removeCircularRefs_run graph (show graph.heap.size + 1 < depth + graph.heap.size + 2 by omega)
    obtain rfl : after' = after := Option.some.inj (returns'.symm.trans returns)
    exact (ObjectGraph.removes_iff upto scan advance).mp good
  · intro holds
    refine ⟨graph.heap.size + 2, fun fuel deep => ?_⟩
    obtain ⟨log, after, returns, upto, scan, advance⟩ := removeCircularRefs_run graph deep
    exact ⟨after, returns, (ObjectGraph.removes_iff upto scan advance).mpr holds⟩

theorem breaksCycles_iff (graph : ObjectGraph ν) :
    graph.BreaksCycles ↔ graph.ReadOnce ∧ Acyclic graph.Remaining graph.root := by
  rw [← graph.removes_iff_static]
  constructor
  · exact fun breaks => breaks.removes
  · exact fun removes => ⟨removes, graph.replaces⟩

/-- `{ a: x, b: x }` where `x` is `{ k: 1 }`. -/
def sharedGraph : ObjectGraph Nat where
  heap := ⟨[.object ⟨[("a", .reference 1), ("b", .reference 1)], by decide⟩,
    .object ⟨[("k", .primitive (.number 1))], by decide⟩]⟩
  closed := by
    rintro container target ⟨selector, holds⟩
    obtain ⟨cell, located, here⟩ := Heap.read_eq_some.mp holds
    have isObject : ∃ fields, cell = .object fields ∧
        ∀ entry ∈ fields.entries, entry.2 ≠ .reference target ∨ target < 2 := by
      rcases List.mem_pair.mp (List.mem_of_getElem? located) with rfl | rfl
      · exact ⟨_, rfl, by simp; omega⟩
      · exact ⟨_, rfl, by simp⟩
    obtain ⟨fields, rfl, small⟩ := isObject
    cases selector with
    | index position => cases here
    | key name => exact (small _ (OrderedMap.get?_eq_some.mp here)).resolve_left (by simp)
  root := 0
  isObject := ⟨_, rfl⟩

theorem not_breaksCycles_shared : ¬ sharedGraph.BreaksCycles := by
  intro breaks
  obtain ⟨depth, removes⟩ := breaks.removes
  obtain ⟨after, returns, -, kept⟩ := removes (depth + 2) (by omega)
  have left : ((removeCircularRefs (depth + 2) sharedGraph.root ⟨sharedGraph.heap, []⟩).map
      (fun state => state.heap.read ⟨0, .key "b"⟩)) = some (some (.reference 2)) := rfl
  rw [returns] at left
  have same := kept.values 0 [] .root (.key "b") (.reference 1) rfl (by simp)
  cases (Option.some.inj left).symm.trans same

end N8n.CircularRefs
