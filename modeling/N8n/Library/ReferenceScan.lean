import Mathlib.Data.List.Induction
import N8n.Library.Traversal

/-! # Scans that enter a node once

A node lists sightings, each at a place that may have another node as its target.
A scan starts in the root and enters the target of a sighting the first time it
is met; a later sighting of a known target is a repeated one.  The log of a scan
has the sightings in the order in which they were met, and the repeated places
depend on the log alone.
-/

structure Sightings (ν ω π : Type*) where
  root : ν
  listed : ν → List ω
  owner : ω → ν
  place : ω → π
  target : π → Option ν
  owner_eq : ∀ {node sighting}, sighting ∈ listed node → owner sighting = node

namespace Sightings

variable {ν ω π σ α : Type*} (sights : Sightings ν ω π)

/-- The nodes that a scan with this log knows. -/
def known (log : List ω) : List ν :=
  sights.root :: log.filterMap fun sighting => sights.target (sights.place sighting)

/-- The places where a target was met that was known before. -/
def Repeated (log : List ω) (place : π) : Prop :=
  ∃ before sighting, before ++ [sighting] <+: log ∧ sights.place sighting = place ∧
    ∃ node, sights.target place = some node ∧ node ∈ sights.known before

/-- The nodes that a scan from the root enters. -/
inductive Scanned : ν → Prop where
  | root : Scanned sights.root
  | step {node next : ν} {sighting : ω} : Scanned node → sighting ∈ sights.listed node →
      sights.target (sights.place sighting) = some next → Scanned next

inductive Scan : List ω → Prop where
  | start : Scan []
  | meet {log : List ω} {sighting : ω} : Scan log → sights.owner sighting ∈ sights.known log →
      sighting ∈ sights.listed (sights.owner sighting) → sighting ∉ log → Scan (log ++ [sighting])

variable {sights}

variable {log : List ω}

theorem mem_known {node : ν} :
    node ∈ sights.known log ↔
      node = sights.root ∨ ∃ sighting ∈ log, sights.target (sights.place sighting) = some node := by
  simp [known]

theorem root_mem_known (log : List ω) : sights.root ∈ sights.known log := List.mem_cons_self

@[simp] theorem known_append_singleton (log : List ω) (sighting : ω) :
    sights.known (log ++ [sighting]) =
      sights.known log ++ (sights.target (sights.place sighting)).toList := by
  cases met : sights.target (sights.place sighting) <;> simp [known, met]

theorem known_extends {log log' : List ω} (isPrefix : log <+: log') : sights.known log <+: sights.known log' := by
  obtain ⟨rest, rfl⟩ := isPrefix
  simp [known]

theorem known_subset {log log' : List ω} (isPrefix : log <+: log') : sights.known log ⊆ sights.known log' :=
  (known_extends isPrefix).subset

theorem Repeated.mono {log log' : List ω} {place : π} (repeated : sights.Repeated log place)
    (isPrefix : log <+: log') : sights.Repeated log' place := by
  obtain ⟨before, sighting, inside, found⟩ := repeated
  exact ⟨before, sighting, inside.trans isPrefix, found⟩

variable {sighting : ω}

theorem repeated_append_singleton {place : π} :
    sights.Repeated (log ++ [sighting]) place ↔ sights.Repeated log place ∨
      sights.place sighting = place ∧ ∃ node, sights.target place = some node ∧ node ∈ sights.known log := by
  constructor
  · rintro ⟨before, last, inside, at_, met⟩
    cases List.prefix_concat_iff.mp inside with
    | inl whole =>
      obtain ⟨rfl, same⟩ := List.append_inj' whole rfl
      obtain rfl : last = sighting := by simpa using same
      exact .inr ⟨at_, met⟩
    | inr earlier => exact .inl ⟨before, last, earlier, at_, met⟩
  · rintro (repeated | ⟨at_, met⟩)
    · exact repeated.mono (List.prefix_append log _)
    · exact ⟨log, sighting, List.prefix_rfl, at_, met⟩

theorem not_repeated_nil (place : π) : ¬ sights.Repeated [] place := by
  rintro ⟨before, sighting, inside, -⟩
  simpa using inside.length_le

/-! ## What the log of a scan says -/

namespace Scan

variable {log : List ω}

theorem of_prefix (scan : sights.Scan log) : ∀ {before : List ω}, before <+: log → sights.Scan before := by
  induction scan with
  | start => intro before isPrefix; rw [List.prefix_nil.mp isPrefix]; exact .start
  | meet scan owned listed fresh ih =>
    intro before isPrefix
    cases List.prefix_concat_iff.mp isPrefix with
    | inl whole => rw [whole]; exact .meet scan owned listed fresh
    | inr earlier => exact ih earlier

theorem fresh_of_prefix (scan : sights.Scan log) {before : List ω} {sighting : ω}
    (isPrefix : before ++ [sighting] <+: log) : sighting ∉ before := by
  have whole := scan.of_prefix isPrefix
  generalize split : before ++ [sighting] = now at whole
  cases whole with
  | start => simp at split
  | meet _ _ _ fresh =>
    obtain ⟨rfl, same⟩ := List.append_inj' split rfl
    obtain rfl := List.singleton_inj.mp same
    exact fresh

theorem listed (scan : sights.Scan log) {sighting : ω} (member : sighting ∈ log) :
    sighting ∈ sights.listed (sights.owner sighting) := by
  induction scan with
  | start => cases member
  | meet _ _ listed _ ih =>
    cases List.mem_append.mp member with
    | inl earlier => exact ih earlier
    | inr last => rw [List.mem_singleton.mp last]; exact listed

theorem owner_mem_known (scan : sights.Scan log) {sighting : ω} (member : sighting ∈ log) :
    sights.owner sighting ∈ sights.known log := by
  induction scan with
  | start => cases member
  | @meet log last _ owned _ _ ih =>
    apply known_subset (List.prefix_append log [last])
    cases List.mem_append.mp member with
    | inl earlier => exact ih earlier
    | inr isLast => rw [List.mem_singleton.mp isLast]; exact owned

theorem scanned_of_mem_known (scan : sights.Scan log) {node : ν} (member : node ∈ sights.known log) :
    sights.Scanned node := by
  induction scan generalizing node with
  | start =>
    obtain rfl : node = sights.root := by simpa [known] using member
    exact .root
  | meet _ owned listed _ ih =>
    rw [known_append_singleton, List.mem_append] at member
    cases member with
    | inl earlier => exact ih earlier
    | inr met => exact .step (ih owned) listed (Option.mem_toList.mp met)

/-- Of two sightings of one node the later one is repeated. -/
theorem repeated_of_two (scan : sights.Scan log) {first second : ω} {node : ν} (member : first ∈ log)
    (member' : second ∈ log) (different : first ≠ second)
    (met : sights.target (sights.place first) = some node) (met' : sights.target (sights.place second) = some node) :
    sights.Repeated log (sights.place first) ∨ sights.Repeated log (sights.place second) := by
  induction scan with
  | start => cases member
  | @meet log last _ _ _ _ ih =>
    simp only [repeated_append_singleton]
    have metBefore : ∀ {sighting}, sighting ∈ log → sights.target (sights.place sighting) = some node →
        node ∈ sights.known log := fun earlier found => mem_known.mpr (.inr ⟨_, earlier, found⟩)
    rw [List.mem_append, List.mem_singleton] at member member'
    cases member with
    | inl earlier =>
      cases member' with
      | inl earlier' => exact (ih earlier earlier').imp .inl .inl
      | inr isLast => subst isLast; exact .inr (.inr ⟨rfl, node, met', metBefore earlier met⟩)
    | inr isLast =>
      cases member' with
      | inl earlier' => subst isLast; exact .inl (.inr ⟨rfl, node, met, metBefore earlier' met'⟩)
      | inr isLast' => exact absurd (isLast.trans isLast'.symm) different

end Scan

/-! ## Ways around a node -/

section Around

variable {container : π → ν} {Reached : ν → ν → Prop}
  (start : ∀ {avoided}, avoided ≠ sights.root → Reached avoided sights.root)
  (enter : ∀ {avoided node sighting place}, sighting ∈ sights.listed node → sights.target place = some avoided →
    Reached avoided node → Reached avoided (container (sights.place sighting)))
  (follow : ∀ {avoided node place}, Reached avoided (container place) → sights.target place = some node →
    avoided ≠ node → Reached avoided node)

include start enter follow

variable {node : ν}

/-- What a scan knows before it meets a node is reached around the node. -/
theorem Scan.reached {log : List ω} (scan : sights.Scan log) {place : π} {avoided : ν}
    (isTarget : sights.target place = some avoided) (unknown : avoided ∉ sights.known log)
    (member : node ∈ sights.known log) : Reached avoided node := by
  induction scan generalizing node with
  | start =>
    obtain rfl : node = sights.root := by simpa [known] using member
    exact start fun same => unknown (same ▸ member)
  | @meet log last _ owned listed _ ih =>
    rw [known_append_singleton, List.mem_append, not_or] at unknown
    rw [known_append_singleton, List.mem_append] at member
    cases member with
    | inl earlier => exact ih unknown.1 earlier
    | inr met =>
      apply follow (enter listed isTarget (ih unknown.1 owned)) (Option.mem_toList.mp met)
      exact fun same => unknown.2 (same ▸ met)

theorem Scan.first {log : List ω} (scan : sights.Scan log) (member : node ∈ sights.known log)
    (notRoot : node ≠ sights.root) :
    ∃ sighting ∈ log, sights.target (sights.place sighting) = some node ∧
      Reached node (container (sights.place sighting)) := by
  induction scan with
  | start => exact absurd (by simpa [known] using member) notRoot
  | @meet log last scan owned listed _ ih =>
    -- the node was known before, or the last sighting is the first one of it
    by_cases earlier : node ∈ sights.known log
    · obtain ⟨sighting, inside, found⟩ := ih earlier
      exact ⟨sighting, List.mem_append_left _ inside, found⟩
    · rw [known_append_singleton, List.mem_append] at member
      have met := Option.mem_toList.mp (member.resolve_left earlier)
      refine ⟨last, by simp, met, enter listed met ?_⟩
      exact scan.reached start enter follow met earlier owned

/-- A sighting whose container is reached through its target only is repeated. -/
theorem Scan.repeated_of_not_reached {log : List ω} (scan : sights.Scan log) {sighting : ω} (member : sighting ∈ log)
    (met : sights.target (sights.place sighting) = some node)
    (notReached : ¬ Reached node (container (sights.place sighting))) :
    sights.Repeated log (sights.place sighting) := by
  induction scan with
  | start => cases member
  | @meet log last scan owned listed _ ih =>
    rw [repeated_append_singleton]
    cases List.mem_append.mp member with
    | inl earlier => exact .inl (ih earlier)
    | inr isLast =>
      obtain rfl := List.mem_singleton.mp isLast
      refine .inr ⟨rfl, node, met, ?_⟩
      apply Classical.byContradiction
      intro unknown
      exact notReached (enter listed met (scan.reached start enter follow met unknown owned))

/-- A repeated sighting of a node other than the root has a first one besides, whose container is reached around
the node. -/
theorem Scan.two_of_repeated {log : List ω} (scan : sights.Scan log) {place : π}
    (repeated : sights.Repeated log place) (met : sights.target place = some node) (notRoot : node ≠ sights.root) :
    ∃ first ∈ log, ∃ second ∈ log, first ≠ second ∧ sights.place second = place ∧
      sights.target (sights.place first) = some node ∧ Reached node (container (sights.place first)) := by
  obtain ⟨before, second, inside, at_, node', met', wasKnown⟩ := repeated
  obtain rfl : node' = node := Option.some.inj (met'.symm.trans met)
  have earlier : before <+: log := (List.prefix_append before [second]).trans inside
  obtain ⟨first, member, metFirst, reached⟩ := (scan.of_prefix earlier).first start enter follow wasKnown notRoot
  refine ⟨first, earlier.subset member, second, inside.subset (by simp), ?_, at_, metFirst, reached⟩
  intro same
  exact scan.fresh_of_prefix inside (same ▸ member)

end Around

/-! ## The parts of a scan -/

variable (sights)

/-- What a scan adds to its log while it looks at `segment`, a part of what `owner` lists. -/
structure Advance (owner : ν) (log more segment : List ω) : Prop where
  met : segment ⊆ more
  own : ∀ sighting ∈ more, sights.owner sighting = owner → sighting ∈ segment
  foreign : ∀ sighting ∈ more, sights.owner sighting = owner ∨ sights.owner sighting ∉ sights.known log
  complete : ∀ node ∈ sights.known (log ++ more), node ∉ sights.known log → sights.listed node ⊆ more

/-- A run that looks at `segment` comes to an end and keeps `Good`. -/
def Covers (Good : List ω → σ → Prop) (owner : ν) (segment : List ω) (run : σ → Option σ) : Prop :=
  ∀ log state, Good log state → owner ∈ sights.known log → (∀ sighting ∈ segment, sighting ∉ log) →
    ∃ more after, run state = some after ∧ Good (log ++ more) after ∧ sights.Advance owner log more segment

variable {sights}

theorem Advance.nil (owner : ν) (log : List ω) : sights.Advance owner log [] [] where
  met := List.Subset.refl _
  own := by simp
  foreign := by simp
  complete := by
    intro node member absent
    rw [List.append_nil] at member
    exact absurd member absent

variable {owner : ν}

theorem Advance.append {log more more' segment segment' : List ω} (first : sights.Advance owner log more segment)
    (second : sights.Advance owner (log ++ more) more' segment') :
    sights.Advance owner log (more ++ more') (segment ++ segment') where
  met := by
    intro sighting member
    rw [List.mem_append] at member ⊢
    exact member.imp (first.met ·) (second.met ·)
  own := by
    intro sighting member owned
    rw [List.mem_append] at member ⊢
    exact member.imp (first.own _ · owned) (second.own _ · owned)
  foreign := by
    intro sighting member
    cases List.mem_append.mp member with
    | inl inFirst => exact first.foreign _ inFirst
    | inr inSecond =>
      exact (second.foreign _ inSecond).imp_right fun absent inside =>
        absent (known_subset (List.prefix_append log more) inside)
  complete := by
    intro node member absent
    rw [← List.append_assoc] at member
    by_cases earlier : node ∈ sights.known (log ++ more)
    · exact List.Subset.trans (first.complete node earlier absent) (List.subset_append_left more more')
    · exact List.Subset.trans (second.complete node member earlier) (List.subset_append_right more more')

/-- A sighting without a target or with a known one enters nothing. -/
theorem Advance.pass (owned : sights.owner sighting = owner)
    (nothing : ∀ node, sights.target (sights.place sighting) = some node → node ∈ sights.known log) :
    sights.Advance owner log [sighting] [sighting] where
  met := List.Subset.refl _
  own := fun _ member _ => member
  foreign := by
    intro other member
    rw [List.mem_singleton.mp member]
    exact .inl owned
  complete := by
    intro node member absent
    rw [known_append_singleton, List.mem_append, Option.mem_toList] at member
    exact absurd (nothing node (member.resolve_left absent)) absent

/-- The first sighting of a node enters it and covers what it lists. -/
theorem Advance.enter {owner node : ν} {log more : List ω} (owned : sights.owner sighting = owner)
    (ownerKnown : owner ∈ sights.known log) (met : sights.target (sights.place sighting) = some node)
    (unknown : node ∉ sights.known log) (inner : sights.Advance node (log ++ [sighting]) more (sights.listed node)) :
    sights.Advance owner log (sighting :: more) [sighting] := by
  have grows : sights.known log ⊆ sights.known (log ++ [sighting]) := known_subset (List.prefix_append log _)
  have elsewhere : ∀ other ∈ more, sights.owner other ∉ sights.known log := by
    intro other member inside
    cases inner.foreign other member with
    | inl same => exact unknown (same ▸ inside)
    | inr absent => exact absent (grows inside)
  constructor
  · simp
  · intro other member isOwner
    cases List.mem_cons.mp member with
    | inl same => rw [same]; exact List.mem_singleton_self _
    | inr inMore => exact absurd (isOwner ▸ ownerKnown) (elsewhere other inMore)
  · intro other member
    cases List.mem_cons.mp member with
    | inl same => rw [same]; exact .inl owned
    | inr inMore => exact .inr (elsewhere other inMore)
  · intro node' member absent
    rw [List.append_cons] at member
    apply List.Subset.trans _ (List.subset_cons_self sighting more)
    by_cases same : node' = node
    · rw [same]
      exact inner.met
    · apply inner.complete node' member
      rw [known_append_singleton, met, Option.toList_some, List.mem_append, List.mem_singleton, not_or]
      exact ⟨absent, same⟩

theorem Covers.foldlM {Good : List ω → σ → Prop} {segment : α → List ω} {body : σ → α → Option σ} :
    ∀ {items : List α}, (items.flatMap segment).Nodup →
      (∀ item ∈ items, ∀ sighting ∈ segment item, sights.owner sighting = owner) →
      (∀ item ∈ items, sights.Covers Good owner (segment item) (body · item)) →
      sights.Covers Good owner (items.flatMap segment) (items.foldlM body ·)
  | [], _, _, _ => by
    intro log state good _ _
    exact ⟨[], state, rfl, by simpa using good, .nil owner log⟩
  | item :: rest, nodup, owned, covers => by
    intro log state good ownerKnown fresh
    rw [List.flatMap_cons, List.nodup_append'] at nodup
    rw [List.flatMap_cons] at fresh ⊢
    obtain ⟨more, next, turn, good', advance⟩ := covers item List.mem_cons_self log state good ownerKnown
      fun sighting member => fresh sighting (List.mem_append_left _ member)
    -- what the turn has added is of its own segment or has other owners
    have freshRest : ∀ sighting ∈ rest.flatMap segment, sighting ∉ log ++ more := by
      intro sighting member inside
      cases List.mem_append.mp inside with
      | inl inLog => exact fresh sighting (List.mem_append_right _ member) inLog
      | inr inMore =>
        obtain ⟨other, isRest, listed⟩ := List.mem_flatMap.mp member
        have ownedBy := owned other (List.mem_cons_of_mem _ isRest) sighting listed
        exact nodup.2.2 (advance.own sighting inMore ownedBy) member
    obtain ⟨more', after, returns, good'', advance'⟩ :=
      Covers.foldlM nodup.2.1 (fun other member => owned other (List.mem_cons_of_mem _ member))
        (fun other member => covers other (List.mem_cons_of_mem _ member)) (log ++ more) next good'
        (known_subset (List.prefix_append log more) ownerKnown) freshRest
    refine ⟨more ++ more', after, ?_, by rwa [← List.append_assoc], advance.append advance'⟩
    change (item :: rest).foldlM body state = some after
    simp only [List.foldlM_cons, turn]
    exact returns

/-- A scan that is done with the root has met what the scanned nodes list. -/
theorem Scan.mem_iff (scan : sights.Scan log)
    (advance : sights.Advance sights.root [] log (sights.listed sights.root)) :
    sighting ∈ log ↔ sights.Scanned (sights.owner sighting) ∧ sighting ∈ sights.listed (sights.owner sighting) := by
  have complete : ∀ node ∈ sights.known log, sights.listed node ⊆ log := by
    intro node member
    by_cases isRoot : node = sights.root
    · rw [isRoot]
      exact advance.met
    · exact advance.complete node member (by simpa [known] using isRoot)
  have isKnown : ∀ node, sights.Scanned node → node ∈ sights.known log := by
    intro node scanned
    induction scanned with
    | root => exact root_mem_known log
    | step _ listed met ih => exact mem_known.mpr (.inr ⟨_, complete _ ih listed, met⟩)
  constructor
  · intro member
    exact ⟨scan.scanned_of_mem_known (scan.owner_mem_known member), scan.listed member⟩
  · intro ⟨scanned, listed⟩
    exact complete _ (isKnown _ scanned) listed

end Sightings
