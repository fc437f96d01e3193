import Mathlib.Logic.Relation
import N8n.Library.Traversal

/-! # The first route to a goal

A depth-first search that looks for an arc to a goal, stops at the first one
and shares the list of its checked nodes between all branches.  `Route` says
which arc it stops at, without the list: from every node the route goes on over
the first arc that leads to the goal, or to a node from which the goal can be
reached without passing the nodes of the route again.
-/

namespace FirstRoute

open Relation

variable {ν κ : Type*} [DecidableEq ν]

/-- The loop over the arcs of a node. -/
def scan (target : κ → ν) (goal : ν) (call : ν → List ν → Option (Option κ × List ν)) :
    List κ → List ν → Option (Option κ × List ν)
  | [], checked => some (none, checked)
  | arc :: rest, checked =>
    if target arc = goal then some (some arc, checked)
    else if target arc ∈ checked then scan target goal call rest checked
    else
      match call (target arc) checked with
      | none => none
      | some (some found, checked) => some (some found, checked)
      | some (none, checked) => scan target goal call rest checked

/-- The call for a node: the arc that was found, and the nodes checked in the end; nothing if the fuel does not
last.  A node without a list of arcs is not checked. -/
def search (arcs : ν → Option (List κ)) (target : κ → ν) (goal : ν) :
    Nat → ν → List ν → Option (Option κ × List ν)
  | 0, _, _ => none
  | fuel + 1, node, checked =>
    match arcs node with
    | none => some (none, checked)
    | some outgoing =>
      if node ∈ checked then some (none, checked)
      else scan target goal (search arcs target goal fuel) outgoing (checked ++ [node])

/-! ## Routes -/

section

variable (arcs : ν → Option (List κ)) (target : κ → ν) (goal : ν)

/-- A walk leads from the node to the goal that avoids the nodes of the path after its start. -/
inductive Supplies (path : List ν) : ν → Prop where
  | here {node : ν} {outgoing : List κ} {arc : κ} (listed : arcs node = some outgoing) (member : arc ∈ outgoing)
      (isGoal : target arc = goal) : Supplies path node
  | step {node : ν} {outgoing : List κ} {arc : κ} (listed : arcs node = some outgoing) (member : arc ∈ outgoing)
      (avoids : target arc ∉ path) (onwards : Supplies path (target arc)) : Supplies path node

/-- The arc leads to the goal, or on to it without passing the path. -/
def Good (path : List ν) (arc : κ) : Prop :=
  target arc = goal ∨ target arc ∉ path ∧ Supplies arcs target goal path (target arc)

variable {arcs target goal} {node : ν}

omit [DecidableEq ν] in
theorem Supplies.mono {path path' : List ν} (fewer : path ⊆ path')
    (supplies : Supplies arcs target goal path' node) : Supplies arcs target goal path node := by
  induction supplies with
  | here listed member isGoal => exact .here listed member isGoal
  | step listed member avoids _ ih =>
    exact .step listed member (fun inside => avoids (fewer inside)) ih

variable {path : List ν}

/-- A walk that avoids the path either avoids one more node, or leads on from there. -/
theorem Supplies.split (supplies : Supplies arcs target goal path node) (other : ν) :
    Supplies arcs target goal (path ++ [other]) node ∨
      ∃ outgoing arc, arcs other = some outgoing ∧ arc ∈ outgoing ∧ Good arcs target goal (path ++ [other]) arc := by
  induction supplies with
  | here listed member isGoal => exact .inl (.here listed member isGoal)
  | @step node outgoing arc listed member avoids onwards ih =>
    cases ih with
    | inr through => exact .inr through
    | inl rest =>
      by_cases same : target arc = other
      · -- the walk comes to the other node, and goes on from there
        right
        rw [← same] at rest ⊢
        cases rest with
        | here listed member isGoal => exact ⟨_, _, listed, member, .inl isGoal⟩
        | step listed member avoids onwards => exact ⟨_, _, listed, member, .inr ⟨avoids, onwards⟩⟩
      · left
        exact .step listed member (by simp [avoids, same]) rest

/-- A walk from a node does not have to come back to it. -/
theorem Supplies.exists_good (supplies : Supplies arcs target goal path node) :
    ∃ outgoing arc, arcs node = some outgoing ∧ arc ∈ outgoing ∧ Good arcs target goal (path ++ [node]) arc := by
  cases supplies.split node with
  | inr good => exact good
  | inl avoiding =>
    cases avoiding with
    | here listed member isGoal => exact ⟨_, _, listed, member, .inl isGoal⟩
    | step listed member avoids onwards => exact ⟨_, _, listed, member, .inr ⟨avoids, onwards⟩⟩

omit [DecidableEq ν] in
/-- Without a path to avoid, a walk is any walk. -/
theorem supplies_nil_iff : Supplies arcs target goal [] node ↔
    TransGen (fun node next => ∃ outgoing, arcs node = some outgoing ∧ ∃ arc ∈ outgoing, target arc = next)
      node goal := by
  constructor
  · intro supplies
    induction supplies with
    | here listed member isGoal => exact .single ⟨_, listed, _, member, isGoal⟩
    | step listed member _ _ ih => exact .head ⟨_, listed, _, member, rfl⟩ ih
  · intro leads
    induction leads using TransGen.head_induction_on with
    | single step =>
      obtain ⟨outgoing, listed, arc, member, isGoal⟩ := step
      exact .here listed member isGoal
    | head step _ ih =>
      obtain ⟨outgoing, listed, arc, member, rfl⟩ := step
      exact .step listed member List.not_mem_nil ih

inductive IsFirst {α : Type*} (property : α → Prop) : List α → α → Prop where
  | here {item : α} {rest : List α} (holds : property item) : IsFirst property (item :: rest) item
  | later {earlier item : α} {rest : List α} (fails : ¬ property earlier) (further : IsFirst property rest item) :
      IsFirst property (earlier :: rest) item

theorem IsFirst.mem {α : Type*} {property : α → Prop} {items : List α} {item : α}
    (first : IsFirst property items item) : item ∈ items ∧ property item := by
  induction first with
  | here holds => exact ⟨List.mem_cons_self, holds⟩
  | later _ _ ih => exact ⟨List.mem_cons_of_mem _ ih.1, ih.2⟩

theorem IsFirst.unique {α : Type*} {property : α → Prop} {items : List α} {item other : α}
    (first : IsFirst property items item) (second : IsFirst property items other) : item = other := by
  induction first with
  | here holds =>
    cases second with
    | here => rfl
    | later fails => exact absurd holds fails
  | later fails _ ih =>
    cases second with
    | here holds => exact absurd holds fails
    | later _ further => exact ih further

variable (arcs target goal) in
/-- The arc to the goal at the end of the first route from a node. -/
inductive Route : List ν → ν → κ → Prop where
  | here {path : List ν} {node : ν} {outgoing : List κ} {arc : κ} (listed : arcs node = some outgoing)
      (first : IsFirst (Good arcs target goal (path ++ [node])) outgoing arc) (isGoal : target arc = goal) :
      Route path node arc
  | onward {path : List ν} {node : ν} {outgoing : List κ} {step arc : κ} (listed : arcs node = some outgoing)
      (first : IsFirst (Good arcs target goal (path ++ [node])) outgoing step) (notGoal : target step ≠ goal)
      (further : Route (path ++ [node]) (target step) arc) : Route path node arc

omit [DecidableEq ν] in
theorem Route.supplies {arc : κ} (route : Route arcs target goal path node arc) :
    Supplies arcs target goal path node := by
  cases route with
  | here listed first isGoal => exact .here listed first.mem.1 isGoal
  | onward listed first notGoal _ =>
    obtain ⟨avoids, onwards⟩ := first.mem.2.resolve_left notGoal
    exact .step listed first.mem.1 (fun inside => avoids (List.mem_append_left _ inside))
      (onwards.mono (List.subset_append_left _ _))

omit [DecidableEq ν] in
theorem Route.unique {arc other : κ} (route : Route arcs target goal path node arc)
    (second : Route arcs target goal path node other) : arc = other := by
  induction route with
  | here listed first isGoal =>
    cases second with
    | here listed' first' _ =>
      obtain rfl := Option.some.inj (listed.symm.trans listed')
      exact first.unique first'
    | onward listed' first' notGoal =>
      obtain rfl := Option.some.inj (listed.symm.trans listed')
      obtain rfl := first.unique first'
      exact absurd isGoal notGoal
  | onward listed first notGoal _ ih =>
    cases second with
    | here listed' first' isGoal =>
      obtain rfl := Option.some.inj (listed.symm.trans listed')
      obtain rfl := first.unique first'
      exact absurd isGoal notGoal
    | onward listed' first' _ further =>
      obtain rfl := Option.some.inj (listed.symm.trans listed')
      obtain rfl := first.unique first'
      exact ih further

/-! ## What the search returns -/

theorem search_some {fuel : Nat} {checked : List ν} {outgoing : List κ}
    (listed : arcs node = some outgoing) (unchecked : node ∉ checked) :
    search arcs target goal (fuel + 1) node checked =
      scan target goal (search arcs target goal fuel) outgoing (checked ++ [node]) := by
  rw [search, listed]
  exact if_neg unchecked

/-- The checked nodes outside the path are on no way to the goal that avoids the path. -/
def Blocked (arcs : ν → Option (List κ)) (target : κ → ν) (goal : ν) (path checked : List ν) : Prop :=
  ∀ node ∈ checked, node ∉ path → ¬ Supplies arcs target goal path node

/-- What a call or a loop has come to: the arc of the first route, or that there is none. -/
structure Outcome (found : κ → Prop) (nothing : List ν → Prop) (result : Option κ) (checked : List ν) : Prop where
  some : ∀ arc, result = some arc → found arc
  none : result = none → nothing checked

theorem scan_spec {fuel : Nat}
    (calls : ∀ node checked result checked', node ∉ checked → path ⊆ checked →
      Blocked arcs target goal path checked →
        search arcs target goal fuel node checked = some (result, checked') →
          Outcome (Route arcs target goal path node)
            (fun checked' => checked ⊆ checked' ∧ Blocked arcs target goal path checked' ∧
              ¬ Supplies arcs target goal path node) result checked')
    {outgoing : List κ} {checked checked' : List ν} {result : Option κ} (onPath : path ⊆ checked)
    (blocked : Blocked arcs target goal path checked)
    (returns : scan target goal (search arcs target goal fuel) outgoing checked = some (result, checked')) :
    Outcome (fun arc => ∃ step, IsFirst (Good arcs target goal path) outgoing step ∧
        (target step = goal ∧ arc = step ∨ target step ≠ goal ∧ Route arcs target goal path (target step) arc))
      (fun checked' => checked ⊆ checked' ∧ Blocked arcs target goal path checked' ∧
        ∀ arc ∈ outgoing, ¬ Good arcs target goal path arc) result checked' := by
  induction outgoing generalizing checked with
  | nil =>
    cases returns
    exact ⟨nofun, fun _ => ⟨List.Subset.refl _, blocked, by simp⟩⟩
  | cons arc rest ih =>
    -- the loop goes on behind an arc that is not good
    have goesOn : ∀ between, checked ⊆ between → Blocked arcs target goal path between →
        ¬ Good arcs target goal path arc →
        scan target goal (search arcs target goal fuel) rest between = some (result, checked') →
        Outcome (fun found => ∃ step, IsFirst (Good arcs target goal path) (arc :: rest) step ∧
            (target step = goal ∧ found = step ∨ target step ≠ goal ∧ Route arcs target goal path (target step) found))
          (fun checked' => checked ⊆ checked' ∧ Blocked arcs target goal path checked' ∧
            ∀ other ∈ arc :: rest, ¬ Good arcs target goal path other) result checked' := by
      intro between grown blocked notGood further
      have outcome := ih (List.Subset.trans onPath grown) blocked further
      refine ⟨fun found isFound => ?_, fun isNone => ?_⟩
      · obtain ⟨step, first, ends⟩ := outcome.some found isFound
        exact ⟨step, .later notGood first, ends⟩
      · obtain ⟨grownFurther, stillBlocked, noneGood⟩ := outcome.none isNone
        refine ⟨List.Subset.trans grown grownFurther, stillBlocked, fun other inside => ?_⟩
        cases List.mem_cons.mp inside with
        | inl isArc => exact isArc ▸ notGood
        | inr inRest => exact noneGood other inRest
    rw [scan] at returns
    split at returns
    · rename_i isGoal
      cases returns
      exact ⟨fun found isFound => ⟨arc, .here (.inl isGoal), .inl ⟨isGoal, (Option.some.inj isFound).symm⟩⟩,
        nofun⟩
    · rename_i notGoal
      split at returns
      · rename_i isChecked
        apply goesOn checked (List.Subset.refl _) blocked _ returns
        intro good
        obtain ⟨avoids, supplies⟩ := good.resolve_left notGoal
        exact blocked _ isChecked avoids supplies
      · rename_i unchecked
        cases called : search arcs target goal fuel (target arc) checked with
        | none => simp [called] at returns
        | some outcome =>
          obtain ⟨callResult, between⟩ := outcome
          have outcome := calls _ _ _ _ unchecked onPath blocked called
          rw [called] at returns
          cases callResult with
          | some found =>
            cases returns
            have route := outcome.some found rfl
            refine ⟨fun other isFound => ?_, nofun⟩
            cases isFound
            exact ⟨arc, .here (.inr ⟨fun inside => unchecked (onPath inside), route.supplies⟩), .inr ⟨notGoal, route⟩⟩
          | none =>
            obtain ⟨grown, stillBlocked, notSupplied⟩ := outcome.none rfl
            apply goesOn between grown stillBlocked _ returns
            intro good
            exact notSupplied (good.resolve_left notGoal).2

theorem search_spec (fuel : Nat) : ∀ path node checked result checked', node ∉ checked → path ⊆ checked →
    Blocked arcs target goal path checked →
      search arcs target goal fuel node checked = some (result, checked') →
        Outcome (Route arcs target goal path node)
          (fun checked' => checked ⊆ checked' ∧ Blocked arcs target goal path checked' ∧
            ¬ Supplies arcs target goal path node) result checked' := by
  induction fuel with
  | zero =>
    intro _ _ _ _ _ _ _ _ returns
    cases returns
  | succ fuel ih =>
    intro path node checked result checked' unchecked onPath blocked returns
    cases listed : arcs node with
    | none =>
      rw [search, listed] at returns
      cases returns
      refine ⟨nofun, fun _ => ⟨List.Subset.refl _, blocked, fun supplies => ?_⟩⟩
      cases supplies with
      | here listed' => cases listed.symm.trans listed'
      | step listed' => cases listed.symm.trans listed'
    | some outgoing =>
      rw [search_some listed unchecked] at returns
      have onPath' : path ++ [node] ⊆ checked ++ [node] :=
        List.append_subset.mpr ⟨List.Subset.trans onPath (List.subset_append_left _ _), List.subset_append_right _ _⟩
      have blocked' : Blocked arcs target goal (path ++ [node]) (checked ++ [node]) := by
        intro other inside outside supplies
        simp only [List.mem_append, List.mem_singleton, not_or] at inside outside
        exact blocked other (inside.resolve_right outside.2) outside.1 (supplies.mono (List.subset_append_left _ _))
      have outcome := scan_spec (ih (path ++ [node])) onPath' blocked' returns
      refine ⟨fun found isFound => ?_, fun isNone => ?_⟩
      · obtain ⟨step, first, ends⟩ := outcome.some found isFound
        cases ends with
        | inl atGoal =>
          obtain ⟨isGoal, rfl⟩ := atGoal
          exact .here listed first isGoal
        | inr further => exact .onward listed first further.1 further.2
      · obtain ⟨grown, stillBlocked, noneGood⟩ := outcome.none isNone
        have notGood : ¬ ∃ outgoing arc, arcs node = some outgoing ∧ arc ∈ outgoing ∧
            Good arcs target goal (path ++ [node]) arc := by
          intro good
          obtain ⟨outgoing', arc, listed', member, good⟩ := good
          obtain rfl := Option.some.inj (listed.symm.trans listed')
          exact noneGood arc member good
        refine ⟨List.Subset.trans (List.subset_append_left _ _) grown, fun other inside outside supplies => ?_,
          fun supplies => notGood supplies.exists_good⟩
        -- a way from a checked node would avoid this node too, or come through it
        cases supplies.split node with
        | inr good => exact notGood good
        | inl avoiding =>
          by_cases same : other = node
          · subst same
            exact notGood supplies.exists_good
          · exact stillBlocked other inside (by simp [outside, same]) avoiding

/-- The search from a root finds the arc at the end of the first route, or there is no way to the goal. -/
theorem search_root {fuel : Nat} {result : Option κ} {checked : List ν}
    (returns : search arcs target goal fuel node [] = some (result, checked)) :
    (∀ arc, result = some arc ↔ Route arcs target goal [] node arc) ∧
      (result.isSome ↔ Supplies arcs target goal [] node) := by
  have outcome := search_spec fuel [] node [] result checked List.not_mem_nil (List.Subset.refl _)
    (fun _ inside => absurd inside List.not_mem_nil) returns
  cases result with
  | none =>
    have notSupplied := (outcome.none rfl).2.2
    refine ⟨fun arc => ⟨nofun, fun route => absurd route.supplies notSupplied⟩, ?_⟩
    simpa using notSupplied
  | some found =>
    have route := outcome.some found rfl
    refine ⟨fun arc => ⟨fun isFound => ?_, fun other => ?_⟩, iff_of_true rfl route.supplies⟩
    · cases isFound
      exact route
    · rw [route.unique other]

/-! ## Termination -/

theorem scan_grows {call : ν → List ν → Option (Option κ × List ν)}
    (grows : ∀ node checked result checked', call node checked = some (result, checked') → checked ⊆ checked')
    {outgoing : List κ} {checked checked' : List ν} {result : Option κ}
    (returns : scan target goal call outgoing checked = some (result, checked')) : checked ⊆ checked' := by
  induction outgoing generalizing checked with
  | nil =>
    cases returns
    exact List.Subset.refl _
  | cons arc rest ih =>
    rw [scan] at returns
    split at returns
    · cases returns
      exact List.Subset.refl _
    · split at returns
      · exact ih returns
      · split at returns
        · cases returns
        · rename_i called
          cases returns
          exact grows _ _ _ _ called
        · rename_i called
          exact List.Subset.trans (grows _ _ _ _ called) (ih returns)

theorem search_grows (fuel : Nat) : ∀ node checked result checked',
    search arcs target goal fuel node checked = some (result, checked') → checked ⊆ checked' := by
  induction fuel with
  | zero =>
    intro _ _ _ _ returns
    cases returns
  | succ fuel ih =>
    intro node checked result checked' returns
    rw [search] at returns
    split at returns
    · cases returns
      exact List.Subset.refl _
    · split at returns
      · cases returns
        exact List.Subset.refl _
      · exact List.Subset.trans (List.subset_append_left _ _) (scan_grows ih returns)

/-- Every call goes to a node that is new, so the nodes with lists of arcs bound the depth. -/
theorem search_returns {pool : List ν} (inPool : ∀ node outgoing, arcs node = some outgoing → node ∈ pool)
    (fuel : Nat) : ∀ node checked, (Traversal.unmarked pool checked).length < fuel →
      ∃ outcome, search arcs target goal fuel node checked = some outcome := by
  induction fuel with
  | zero => exact fun _ _ enough => absurd enough (Nat.not_lt_zero _)
  | succ fuel ih =>
    intro node checked enough
    rw [search]
    split
    · exact ⟨_, rfl⟩
    · rename_i outgoing listed
      split
      · exact ⟨_, rfl⟩
      · rename_i unchecked
        have fewer := Traversal.length_unmarked_lt (inPool node outgoing listed) unchecked
        have loop : ∀ (outgoing : List κ) (grown : List ν), checked ++ [node] ⊆ grown →
            ∃ outcome, scan target goal (search arcs target goal fuel) outgoing grown = some outcome := by
          intro outgoing
          induction outgoing with
          | nil => exact fun grown _ => ⟨_, rfl⟩
          | cons arc rest loop =>
            intro grown subset
            rw [scan]
            split
            · exact ⟨_, rfl⟩
            · split
              · exact loop grown subset
              · have small := Traversal.length_unmarked_le pool subset
                obtain ⟨⟨result, between⟩, called⟩ := ih (target arc) grown (by omega)
                rw [called]
                cases result with
                | some found => exact ⟨_, rfl⟩
                | none => exact loop between (List.Subset.trans subset (search_grows fuel _ _ _ _ called))
        exact loop outgoing _ (List.Subset.refl _)

end

end FirstRoute
