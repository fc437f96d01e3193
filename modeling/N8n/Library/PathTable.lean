import Mathlib.Data.List.Induction
import Mathlib.Logic.Relation
import N8n.Library.Loop
import N8n.Library.OrderedMap

/-! # Tables of paths

A table lists for every id the paths that lead to it.  It grows link by link: the
paths of the target of a link, each with the id behind it, become paths of the
id.  When the links of a target come before the links to it, an id has the ids
on its paths that its links lead to, except beyond an id that lists nothing.
-/

namespace PathTable

open Relation

variable {κ : Type*}

abbrev Table (κ : Type*) := OrderedMap κ (List (List κ))

inductive Step (κ : Type*) where
  /-- The id has no paths. -/
  | drop (id : κ)
  /-- A link of the id, that may lead to no other one. -/
  | link (id : κ) (target : Option κ)

namespace Step

def id : Step κ → κ
  | drop id | link id _ => id

def target : Step κ → Option κ
  | drop _ => none
  | link _ target => target

end Step

/-- One of the links leads from `first` to `second`. -/
def Leads (steps : List (Step κ)) (first second : κ) : Prop := .link first (some second) ∈ steps

/-- Nothing that is left out is linked to. -/
def Lossless (steps : List (Step κ)) : Prop := ∀ first second, Leads steps first second → .drop second ∉ steps

/-- The links of a target come before the links to it, and an id without paths has no links. -/
def Ordered (steps : List (Step κ)) : Prop :=
  (steps.Pairwise fun earlier later => earlier.target ≠ some later.id ∧
    (earlier.id = later.id → earlier ≠ .drop earlier.id ∧ later ≠ .drop later.id)) ∧
  ∀ step ∈ steps, step.target ≠ some step.id

section

variable [DecidableEq κ]

def listed (table : Table κ) (id : κ) : List (List κ) := (table.get? id).getD []

def push (table : Table κ) (id : κ) (paths : List (List κ)) : Table κ := table.set id (listed table id ++ paths)

/-- The table with the id alone as its path, when it is not there. -/
def withStart (table : Table κ) (id : κ) : Table κ := if table.has id then table else table.set id [[id]]

def step (table : Table κ) : Step κ → Table κ
  | .drop id => table.set id []
  | .link id none => push (push table id []) id [[id]]
  | .link id (some target) =>
    let table := withStart (push table id []) target
    push table id ((listed table target).map (· ++ [id]))

def OnPath (table : Table κ) (id other : κ) : Prop := ∃ path ∈ listed table id, other ∈ path

/-! ## One step -/

/-- The paths of the target of a link. -/
def sourcePaths (table : Table κ) (id : κ) : List (List κ) := (table.get? id).getD [[id]]

theorem get?_push (table : Table κ) (id id' : κ) (paths : List (List κ)) :
    (push table id paths).get? id' = if id' = id then some (listed table id ++ paths) else table.get? id' :=
  OrderedMap.get?_set table id id' _

theorem get?_withStart (table : Table κ) (id id' : κ) :
    (withStart table id).get? id' = if id' = id then some (sourcePaths table id) else table.get? id' := by
  rw [withStart, OrderedMap.has, sourcePaths]
  by_cases same : id' = id
  · subst same
    cases found : table.get? id' with
    | none => simp
    | some paths => simp [found]
  · rw [if_neg same]
    cases table.get? id with
    | none => exact OrderedMap.get?_set_of_ne _ _ same
    | some paths => rfl

/-- The paths that a link puts its id behind. -/
def added (table : Table κ) : Option κ → List (List κ)
  | none => [[]]
  | some target => sourcePaths table target

theorem get?_drop (table : Table κ) (id id' : κ) :
    (step table (.drop id)).get? id' = if id' = id then some [] else table.get? id' :=
  OrderedMap.get?_set table id id' []

variable {table : Table κ}

theorem get?_link {id : κ} {target : Option κ} (apart : target ≠ some id) (id' : κ) :
    (step table (.link id target)).get? id' =
      if id' = id then some (listed table id ++ (added table target).map (· ++ [id]))
      else if target = some id' then some (sourcePaths table id') else table.get? id' := by
  have unchanged : listed (push table id []) id = listed table id := by
    rw [listed, get?_push, if_pos rfl, Option.getD_some, List.append_nil]
  cases target with
  | none =>
    rw [step, get?_push, unchanged, get?_push]
    by_cases isId : id' = id
    · rw [if_pos isId, if_pos isId]
      rfl
    · rw [if_neg isId, if_neg isId, if_neg isId]
      rfl
  | some target =>
    have apart : target ≠ id := fun same => apart (congrArg some same)
    have source : sourcePaths (push table id []) target = sourcePaths table target := by
      rw [sourcePaths, get?_push, if_neg apart, ← sourcePaths]
    have own : listed (withStart (push table id []) target) id = listed table id := by
      rw [listed, get?_withStart, if_neg (Ne.symm apart), ← listed, unchanged]
    have paths : listed (withStart (push table id []) target) target = sourcePaths table target := by
      rw [listed, get?_withStart, if_pos rfl, Option.getD_some, source]
    rw [step, get?_push, own, paths, get?_withStart, get?_push, source, added]
    by_cases isId : id' = id
    · rw [if_pos isId, if_pos isId]
    · rw [if_neg isId, if_neg isId, if_neg isId]
      by_cases isTarget : id' = target
      · rw [if_pos isTarget, if_pos (congrArg some isTarget.symm), isTarget]
      · rw [if_neg isTarget, if_neg fun same => isTarget (Option.some.inj same).symm]

theorem mem_sourcePaths {id : κ} {path : List κ} :
    path ∈ sourcePaths table id ↔ path ∈ listed table id ∨ table.get? id = none ∧ path = [id] := by
  rw [sourcePaths, listed]
  cases table.get? id <;> simp

theorem onPath_congr {table table' : Table κ} {id : κ} (same : table'.get? id = table.get? id) (other : κ) :
    OnPath table' id other ↔ OnPath table id other := by
  rw [OnPath, OnPath, listed, listed, same]

theorem onPath_drop {id first second : κ} :
    OnPath (step table (.drop id)) first second ↔ first ≠ id ∧ OnPath table first second := by
  by_cases same : first = id
  · simp [OnPath, listed, get?_drop, same]
  · have unchanged : (step table (.drop id)).get? first = table.get? first := by rw [get?_drop, if_neg same]
    simp [onPath_congr unchanged, same]

/-- A link adds the path of a new target, and the paths of the target with the id behind them. -/
theorem onPath_link {id : κ} {target : Option κ} (apart : target ≠ some id) {first second : κ} :
    OnPath (step table (.link id target)) first second ↔
      OnPath table first second ∨ (target = some first ∧ second = first ∧ table.get? first = none) ∨
        (first = id ∧ ∃ path ∈ added table target, second ∈ path ∨ second = id) := by
  by_cases isId : first = id
  · subst isId
    simp only [OnPath, listed, get?_link apart, ↓reduceIte, Option.getD_some, List.mem_append, List.mem_map,
      or_and_right, exists_or, apart, false_and, false_or, true_and]
    refine or_congr_right ⟨?_, ?_⟩
    · intro ⟨_, ⟨path, member, isPath⟩, inside⟩
      exact ⟨path, member, by simpa [← isPath] using inside⟩
    · intro ⟨path, member, inside⟩
      exact ⟨_, ⟨path, member, rfl⟩, by simpa using inside⟩
  · by_cases isTarget : target = some first
    · have atTarget : listed (step table (.link id target)) first = sourcePaths table first := by
        rw [listed, get?_link apart, if_neg isId, if_pos isTarget, Option.getD_some]
      rw [OnPath, atTarget, OnPath, listed, sourcePaths]
      simp only [isId, isTarget, false_and, or_false, true_and]
      cases table.get? first <;> simp
    · have unchanged : (step table (.link id target)).get? first = table.get? first := by
        rw [get?_link apart, if_neg isId, if_neg isTarget]
      simp [onPath_congr unchanged, isId, isTarget]

end

/-! ## What a table holds -/

section

variable [DecidableEq κ]

structure Holds (steps : List (Step κ)) (table : Table κ) : Prop where
  unknown : ∀ id, (∀ step ∈ steps, step.id ≠ id ∧ step.target ≠ some id) → table.get? id = none
  targeted : ∀ step ∈ steps, ∀ target, step.target = some target → (table.get? target).isSome
  dropped : ∀ id, .drop id ∈ steps → table.get? id = some []
  ends : ∀ id, ∀ path ∈ listed table id, id ∈ path
  reaches : ∀ first second, OnPath table first second → ReflTransGen (Leads steps) first second
  notDropped : ∀ first second, OnPath table first second → .drop second ∉ steps
  continues : ∀ first next, Leads steps first next → ∀ second, OnPath table next second →
    OnPath table first second ∧ OnPath table first first
  kept : Lossless steps → ∀ id, table.get? id = some [] → .drop id ∈ steps

theorem holds_nil : Holds ([] : List (Step κ)) ∅ := by
  constructor <;> simp [OnPath, listed, Leads]

/-- What a step has to find when it comes. -/
structure Fits (steps : List (Step κ)) (next : Step κ) : Prop where
  notTargeted : ∀ step ∈ steps, step.target ≠ some next.id
  notDropped : .drop next.id ∉ steps
  onlyDrop : ∀ id, next = .drop id → ∀ step ∈ steps, step.id ≠ id
  apart : next.target ≠ some next.id

end

section

variable {steps : List (Step κ)}

theorem leads_mono {more : List (Step κ)} {first second : κ} (path : ReflTransGen (Leads steps) first second) :
    ReflTransGen (Leads (steps ++ more)) first second :=
  ReflTransGen.mono (fun _ _ leads => List.mem_append_left _ leads) _ _ path

theorem Lossless.before {next : Step κ} (lossless : Lossless (steps ++ [next])) : Lossless steps :=
  fun first second leads dropped =>
    lossless first second (List.mem_append_left _ leads) (List.mem_append_left _ dropped)

theorem fits_of_ordered {before after : List (Step κ)} {next : Step κ} (ordered : Ordered (before ++ next :: after)) :
    Fits before next := by
  obtain ⟨pairwise, apart⟩ := ordered
  have earlier := fun step member => (List.pairwise_append.mp pairwise).2.2 step member next List.mem_cons_self
  constructor
  · exact fun step member => (earlier step member).1
  · intro dropped
    exact ((earlier _ dropped).2 rfl).1 rfl
  · intro id isDrop step member same
    subst isDrop
    exact ((earlier step member).2 same).2 rfl
  · exact apart next (by simp)

theorem Fits.link_apart {id : κ} {target : Option κ} (fits : Fits steps (.link id target)) : target ≠ some id :=
  fits.apart

theorem not_reaches {id first : κ} (notTargeted : ∀ step ∈ steps, step.target ≠ some id) (apart : first ≠ id) :
    ¬ ReflTransGen (Leads steps) first id := by
  intro path
  cases ReflTransGen.cases_tail path with
  | inl same => exact apart same.symm
  | inr last =>
    obtain ⟨_, _, leads⟩ := last
    exact notTargeted _ leads rfl

variable [DecidableEq κ] {table : Table κ}

theorem Holds.drop {id : κ} (holds : Holds steps table) (fits : Fits steps (.drop id)) :
    Holds (steps ++ [.drop id]) (step table (.drop id)) := by
  have fresh : table.get? id = none :=
    holds.unknown id fun step member => ⟨fits.onlyDrop id rfl step member, fits.notTargeted step member⟩
  have unlisted : ∀ other, ¬ OnPath table id other := by
    intro other
    simp [OnPath, listed, fresh]
  have leads_iff : ∀ first second, Leads (steps ++ [.drop id]) first second ↔ Leads steps first second := by
    intro first second
    simp [Leads]
  constructor
  case unknown =>
    intro other absent
    have differs : other ≠ id := fun same => (absent (.drop id) (by simp)).1 same.symm
    rw [get?_drop, if_neg differs]
    exact holds.unknown other fun step member => absent step (List.mem_append_left _ member)
  case targeted =>
    intro step member target isTarget
    rw [get?_drop]
    split
    next => rfl
    next =>
      cases List.mem_append.mp member with
      | inl before => exact holds.targeted step before target isTarget
      | inr isDrop => cases List.mem_singleton.mp isDrop; cases isTarget
  case dropped =>
    intro other member
    rw [get?_drop]
    split
    next => rfl
    next differs => exact holds.dropped other (by simpa [differs] using member)
  case ends =>
    intro other path member
    rw [listed, get?_drop] at member
    split at member
    next => cases member
    next => exact holds.ends other path member
  case reaches =>
    intro first second onPath
    exact leads_mono (holds.reaches first second (onPath_drop.mp onPath).2)
  case notDropped =>
    intro first second onPath member
    obtain ⟨differs, before⟩ := onPath_drop.mp onPath
    cases List.mem_append.mp member with
    | inl old => exact holds.notDropped first second before old
    | inr isDrop =>
      obtain rfl : second = id := by simpa using isDrop
      exact not_reaches fits.notTargeted differs (holds.reaches first second before)
  case continues =>
    intro first next leads second onPath
    rw [leads_iff] at leads
    have differs : first ≠ id := fun same => fits.onlyDrop id rfl _ leads same
    obtain ⟨further, self⟩ := holds.continues first next leads second (onPath_drop.mp onPath).2
    exact ⟨onPath_drop.mpr ⟨differs, further⟩, onPath_drop.mpr ⟨differs, self⟩⟩
  case kept =>
    intro lossless other isEmpty
    rw [get?_drop] at isEmpty
    split at isEmpty
    next same => simp [same]
    next => exact List.mem_append_left _ (holds.kept lossless.before other isEmpty)

theorem onAdded {target : Option κ} {path : List κ} {other : κ} (isAdded : path ∈ added table target)
    (inside : other ∈ path) :
    ∃ next, target = some next ∧ (OnPath table next other ∨ table.get? next = none ∧ other = next) := by
  cases target with
  | none => simp [List.mem_singleton.mp isAdded] at inside
  | some next =>
    refine ⟨next, rfl, ?_⟩
    cases mem_sourcePaths.mp isAdded with
    | inl listed => exact .inl ⟨path, listed, inside⟩
    | inr new => exact .inr ⟨new.1, by simpa [new.2] using inside⟩

section

variable {id : κ} {target : Option κ} (holds : Holds steps table) (fits : Fits steps (.link id target))

include holds fits

theorem Holds.link_reaches {first second : κ} (onPath : OnPath (step table (.link id target)) first second) :
    ReflTransGen (Leads (steps ++ [.link id target])) first second := by
  obtain before | ⟨_, same, _⟩ | ⟨isId, path, isAdded, inside⟩ := (onPath_link fits.link_apart).mp onPath
  · exact leads_mono (holds.reaches first second before)
  · exact same ▸ .refl
  · cases inside with
    | inr same => rw [isId, same]
    | inl inPath =>
      obtain ⟨next, rfl, further⟩ := onAdded isAdded inPath
      have leads : Leads (steps ++ [.link id (some next)]) first next := isId ▸ by simp [Leads]
      apply ReflTransGen.head leads
      cases further with
      | inl further => exact leads_mono (holds.reaches next second further)
      | inr new => rw [new.2]

theorem Holds.link_notDropped {first second : κ} (onPath : OnPath (step table (.link id target)) first second) :
    .drop second ∉ steps := by
  intro before
  have isDropped := holds.dropped second before
  obtain old | ⟨_, same, fresh⟩ | ⟨_, path, isAdded, inside⟩ := (onPath_link fits.link_apart).mp onPath
  · exact holds.notDropped first second old before
  · rw [same, fresh] at isDropped
    cases isDropped
  · cases inside with
    | inr same => exact fits.notDropped (same ▸ before)
    | inl inPath =>
      obtain ⟨next, -, further⟩ := onAdded isAdded inPath
      cases further with
      | inl further => exact holds.notDropped next second further before
      | inr new =>
        rw [new.2, new.1] at isDropped
        cases isDropped

/-- The link that was taken last continues the paths of its target. -/
theorem Holds.link_continues {first next : κ} (leads : Leads (steps ++ [.link id target]) first next) {second : κ}
    (onPath : OnPath (step table (.link id target)) next second) :
    OnPath (step table (.link id target)) first second ∧ OnPath (step table (.link id target)) first first := by
  cases List.mem_append.mp leads with
  | inl before =>
    obtain old | ⟨_, _, fresh⟩ | ⟨same, _⟩ := (onPath_link fits.link_apart).mp onPath
    · obtain ⟨further, self⟩ := holds.continues first next before second old
      exact ⟨(onPath_link fits.link_apart).mpr (.inl further), (onPath_link fits.link_apart).mpr (.inl self)⟩
    · have known := holds.targeted _ before next rfl
      rw [fresh] at known
      cases known
    · exact absurd (congrArg some same) (fits.notTargeted _ before)
  | inr isLast =>
    obtain ⟨rfl, rfl⟩ : first = id ∧ some next = target := by simpa using isLast
    obtain ⟨path, isSource, inPath⟩ : ∃ path ∈ sourcePaths table next, second ∈ path := by
      obtain ⟨path, listed, inPath⟩ | ⟨_, same, fresh⟩ | ⟨same, _⟩ := (onPath_link fits.link_apart).mp onPath
      · exact ⟨path, mem_sourcePaths.mpr (.inl listed), inPath⟩
      · exact ⟨[next], mem_sourcePaths.mpr (.inr ⟨fresh, rfl⟩), by simp [same]⟩
      · exact absurd (congrArg some same) fits.link_apart
    exact ⟨(onPath_link fits.link_apart).mpr (.inr (.inr ⟨rfl, path, isSource, .inl inPath⟩)),
      (onPath_link fits.link_apart).mpr (.inr (.inr ⟨rfl, path, isSource, .inr rfl⟩))⟩

theorem Holds.link_kept (lossless : Lossless (steps ++ [.link id target])) {other : κ}
    (isEmpty : (step table (.link id target)).get? other = some []) : .drop other ∈ steps := by
  have emptySource : ∀ next, sourcePaths table next = [] → .drop next ∈ steps := by
    intro next noPaths
    apply holds.kept lossless.before
    rw [sourcePaths] at noPaths
    cases found : table.get? next with
    | none => simp [found] at noPaths
    | some paths => simpa [found] using noPaths
  rw [get?_link fits.link_apart] at isEmpty
  split at isEmpty
  next =>
    have noPaths : added table target = [] := by
      simpa using (List.append_eq_nil_iff.mp (Option.some.inj isEmpty)).2
    cases target with
    | none => cases noPaths
    | some next =>
      exact absurd (List.mem_append_left _ (emptySource next noPaths)) (lossless id next (by simp [Leads]))
  next =>
    split at isEmpty
    next => exact emptySource other (Option.some.inj isEmpty)
    next => exact holds.kept lossless.before other isEmpty

theorem Holds.link : Holds (steps ++ [.link id target]) (step table (.link id target)) := by
  constructor
  case unknown =>
    intro other absent
    obtain ⟨differs, notTarget⟩ : id ≠ other ∧ target ≠ some other := absent (.link id target) (by simp)
    rw [get?_link fits.link_apart, if_neg (Ne.symm differs), if_neg notTarget]
    exact holds.unknown other fun step member => absent step (List.mem_append_left _ member)
  case targeted =>
    intro step member other isTarget
    rw [get?_link fits.link_apart]
    split
    next => rfl
    next =>
      split
      next => rfl
      next differs =>
        cases List.mem_append.mp member with
        | inl before => exact holds.targeted step before other isTarget
        | inr isLast => cases List.mem_singleton.mp isLast; exact absurd isTarget differs
  case dropped =>
    intro other member
    have before : .drop other ∈ steps := by simpa using member
    have differs : other ≠ id := fun same => fits.notDropped (same ▸ before)
    rw [get?_link fits.link_apart, if_neg differs, sourcePaths, holds.dropped other before]
    split <;> rfl
  case ends =>
    intro other path member
    rw [listed, get?_link fits.link_apart] at member
    split at member
    next same =>
      cases List.mem_append.mp member with
      | inl before => exact holds.ends other path (same ▸ before)
      | inr new =>
        obtain ⟨front, _, rfl⟩ := List.mem_map.mp new
        simp [same]
    next =>
      split at member
      next =>
        cases mem_sourcePaths.mp member with
        | inl before => exact holds.ends other path before
        | inr new => simp [new.2]
      next => exact holds.ends other path member
  case reaches => exact fun first second onPath => holds.link_reaches fits onPath
  case notDropped =>
    intro first second onPath member
    exact holds.link_notDropped fits onPath (by simpa using member)
  case continues => exact fun first next leads second onPath => holds.link_continues fits leads onPath
  case kept =>
    intro lossless other isEmpty
    exact List.mem_append_left _ (holds.link_kept fits lossless isEmpty)

end

/-! ## A table after all steps -/

theorem holds_foldl (ordered : Ordered steps) : Holds steps (steps.foldl step ∅) := by
  induction steps using List.reverseRecOn with
  | nil => exact holds_nil
  | append_singleton before next ih =>
    have fits := fits_of_ordered ordered
    have holds := ih
      ⟨(List.pairwise_append.mp ordered.1).1, fun step member => ordered.2 step (List.mem_append_left _ member)⟩
    rw [List.foldl_append, List.foldl_cons, List.foldl_nil]
    cases next with
    | drop id => exact holds.drop fits
    | link id target => exact holds.link fits

/-- Where nothing is lost, an id has on its paths all the ids that its links lead to. -/
theorem Holds.onPath (holds : Holds steps table) (lossless : Lossless steps) {first second : κ}
    (path : TransGen (Leads steps) first second) : OnPath table first second := by
  obtain ⟨last, toLast, leads⟩ := TransGen.tail'_iff.mp path
  have self : OnPath table second second := by
    obtain ⟨paths, found⟩ := Option.isSome_iff_exists.mp (holds.targeted _ leads second rfl)
    cases paths with
    | nil => exact absurd (holds.kept lossless second found) (lossless last second leads)
    | cons path rest =>
      have listed : path ∈ listed table second := by
        rw [PathTable.listed, found]
        exact List.mem_cons_self
      exact ⟨path, listed, holds.ends second path listed⟩
  clear path
  induction toLast using ReflTransGen.head_induction_on with
  | refl => exact (holds.continues _ _ leads second self).1
  | head isStep _ ih => exact (holds.continues _ _ isStep second ih).1

end

end PathTable
