import Mathlib.Data.List.Nodup
import Mathlib.Logic.Relation
import N8n.Library.Loop

/-! # Depth-first marking

A recursive walk over a graph whose arcs are looked up node by node, where a
lookup may throw.  Every arc met for the first time is marked and its target is
walked next.  Fuel stands for the call stack; `markFrom_spec` shows that as much
fuel as there are arcs left to mark is enough, and that exactly the reachable
arcs end up marked.
-/

namespace Traversal

variable {ε σ κ : Type*}

def markFrom [DecidableEq κ] (exhausted : ε) (arcs : σ → Except ε (List κ)) (target : κ → σ) :
    Nat → σ → List κ → Except ε (List κ)
  | 0, _, _ => .error exhausted
  | fuel + 1, node, marked =>
    match arcs node with
    | .error error => .error error
    | .ok outgoing =>
      outgoing.foldlM (fun marked arc =>
        if arc ∈ marked then .ok marked
        else markFrom exhausted arcs target fuel (target arc) (marked ++ [arc])) marked

/-- One arc leads from `first` to `second`. -/
def Leads (arcs : σ → List κ) (target : κ → σ) (first second : σ) : Prop :=
  ∃ arc ∈ arcs first, target arc = second

/-- An arc that leaves a node reachable from `node`. -/
def ReachableArc (arcs : σ → List κ) (target : κ → σ) (node : σ) (arc : κ) : Prop :=
  ∃ last, Relation.ReflTransGen (Leads arcs target) node last ∧ arc ∈ arcs last

theorem ReachableArc.here {arcs : σ → List κ} {target : κ → σ} {node : σ} {arc : κ}
    (member : arc ∈ arcs node) : ReachableArc arcs target node arc :=
  ⟨node, .refl, member⟩

theorem ReachableArc.step {arcs : σ → List κ} {target : κ → σ} {node : σ} {first arc : κ}
    (member : first ∈ arcs node) (reachable : ReachableArc arcs target (target first) arc) :
    ReachableArc arcs target node arc := by
  obtain ⟨last, path, leaves⟩ := reachable
  exact ⟨last, .head ⟨first, member, rfl⟩ path, leaves⟩

section

variable [DecidableEq κ]

/-- The marks that `pool` still lacks. -/
def unmarked (pool marked : List κ) : List κ := pool.filter (fun arc => arc ∉ marked)

theorem unmarked_nil (pool : List κ) : unmarked pool [] = pool := by
  simp [unmarked]

theorem length_unmarked_le (pool : List κ) {marked marked' : List κ} (subset : marked ⊆ marked') :
    (unmarked pool marked').length ≤ (unmarked pool marked).length := by
  apply List.Sublist.length_le
  apply List.monotone_filter_right
  intro arc absent
  simp only [decide_eq_true_eq] at absent ⊢
  exact fun member => absent (subset member)

theorem length_unmarked_lt {pool marked : List κ} {arc : κ} (inside : arc ∈ pool)
    (fresh : arc ∉ marked) :
    (unmarked pool (marked ++ [arc])).length < (unmarked pool marked).length := by
  have smaller : (unmarked pool (marked ++ [arc])).Sublist (unmarked pool marked) := by
    apply List.monotone_filter_right
    intro other absent
    simp only [decide_eq_true_eq, List.mem_append, not_or] at absent ⊢
    exact absent.1
  refine Nat.lt_of_le_of_ne smaller.length_le fun equal => ?_
  have member : arc ∈ unmarked pool marked := by simp [unmarked, inside, fresh]
  rw [← smaller.eq_of_length equal] at member
  simp [unmarked] at member

end

/-- What the loop over `outgoing`, part of the arcs of `node`, adds to `marked`. -/
structure Marks (arcs : σ → List κ) (target : κ → σ) (node : σ) (outgoing marked result : List κ) :
    Prop where
  grows : marked ⊆ result
  sound : ∀ arc ∈ result, arc ∈ marked ∨ ReachableArc arcs target node arc
  own : ∀ arc ∈ outgoing, arc ∈ result
  closed : ∀ arc ∈ result, arc ∉ marked → ∀ next ∈ arcs (target arc), next ∈ result

section

variable (exhausted : ε) {lookup : σ → Except ε (List κ)} {arcs : σ → List κ} {target : κ → σ}
  {pool : List κ} {inside : σ → Prop}

/-- Lookups return on the nodes `inside`, a set closed under the arcs of `pool`. -/
structure Safe (lookup : σ → Except ε (List κ)) (arcs : σ → List κ) (target : κ → σ)
    (pool : List κ) (inside : σ → Prop) : Prop where
  returns : ∀ node, inside node → lookup node = .ok (arcs node)
  bounded : ∀ node, inside node → ∀ arc ∈ arcs node, arc ∈ pool
  stays : ∀ node, inside node → ∀ arc ∈ arcs node, inside (target arc)

variable [DecidableEq κ]

theorem markFrom_marks (safe : Safe lookup arcs target pool inside) (fuel : Nat) :
    ∀ node marked, inside node → (unmarked pool marked).length < fuel →
      ∃ result, markFrom exhausted lookup target fuel node marked = .ok result ∧
        Marks arcs target node (arcs node) marked result := by
  induction fuel with
  | zero => intro node marked _ enough; omega
  | succ fuel recursiveCall =>
    intro node marked isInside enough
    -- The loop over a suffix of the arcs, from what the arcs before it have marked.
    have loop : ∀ outgoing current, (∀ arc ∈ outgoing, arc ∈ arcs node) → marked ⊆ current →
        ∃ result, outgoing.foldlM (fun marked arc => if arc ∈ marked then .ok marked
            else markFrom exhausted lookup target fuel (target arc) (marked ++ [arc])) current =
              .ok result ∧ Marks arcs target node outgoing current result := by
      intro outgoing
      induction outgoing with
      | nil =>
        intro current _ _
        exact ⟨current, rfl, fun _ member => member, fun _ member => .inl member, by simp,
          fun _ member absent => absurd member absent⟩
      | cons arc rest ih =>
        intro current isOutgoing contains
        have isArc := isOutgoing arc List.mem_cons_self
        have restOutgoing := fun other member => isOutgoing other (List.mem_cons_of_mem _ member)
        by_cases seen : arc ∈ current
        · obtain ⟨result, returns, marks⟩ := ih current restOutgoing contains
          refine ⟨result, by rw [Loop.foldlM_cons_ok (if_pos seen)]; exact returns, marks.grows,
            marks.sound, ?_, marks.closed⟩
          intro other member
          rcases List.mem_cons.mp member with rfl | inRest
          · exact marks.grows seen
          · exact marks.own other inRest
        · have fewer := length_unmarked_lt (safe.bounded node isInside arc isArc) seen
          have fewerStill := length_unmarked_le pool contains
          obtain ⟨next, called, callMarks⟩ := recursiveCall (target arc) (current ++ [arc])
            (safe.stays node isInside arc isArc) (by omega)
          have grown : current ⊆ next :=
            fun other member => callMarks.grows (List.mem_append_left _ member)
          have arcMarked : arc ∈ next := callMarks.grows (by simp)
          obtain ⟨result, returns, marks⟩ := ih next restOutgoing
            (List.Subset.trans contains grown)
          refine ⟨result, by rw [Loop.foldlM_cons_ok (by rw [if_neg seen]; exact called)]; exact returns,
            List.Subset.trans grown marks.grows, ?_, ?_, ?_⟩
          · intro other member
            rcases marks.sound other member with inNext | reachable
            · rcases callMarks.sound other inNext with before | reachable
              · rcases List.mem_append.mp before with inCurrent | isFirst
                · exact .inl inCurrent
                · exact .inr (List.mem_singleton.mp isFirst ▸ .here isArc)
              · exact .inr (.step isArc reachable)
            · exact .inr reachable
          · intro other member
            rcases List.mem_cons.mp member with rfl | inRest
            · exact marks.grows arcMarked
            · exact marks.own other inRest
          · intro other member absent further leaves
            by_cases inNext : other ∈ next
            · apply marks.grows
              by_cases isFirst : other = arc
              · subst isFirst; exact callMarks.own further leaves
              · exact callMarks.closed other inNext
                  (by simp [absent, isFirst]) further leaves
            · exact marks.closed other member inNext further leaves
    obtain ⟨result, returns, marks⟩ := loop (arcs node) marked (fun _ member => member)
      (List.Subset.refl marked)
    refine ⟨result, ?_, marks⟩
    simp only [markFrom, safe.returns node isInside]
    exact returns

/-- Started without marks, `markFrom` marks exactly the reachable arcs. -/
theorem markFrom_spec (safe : Safe lookup arcs target pool inside) {fuel : Nat} {node : σ}
    (isInside : inside node) (enough : pool.length < fuel) :
    ∃ result, markFrom exhausted lookup target fuel node [] = .ok result ∧
      ∀ arc, arc ∈ result ↔ ReachableArc arcs target node arc := by
  have bound : (unmarked pool []).length < fuel :=
    Nat.lt_of_le_of_lt (List.length_filter_le _ _) enough
  obtain ⟨result, returns, marks⟩ := markFrom_marks exhausted safe fuel node []
    isInside bound
  refine ⟨result, returns, fun arc => ⟨fun member => ?_, ?_⟩⟩
  · exact (marks.sound arc member).resolve_left (by simp)
  · rintro ⟨last, path, leaves⟩
    have complete : ∀ arc ∈ arcs last, arc ∈ result := by
      clear leaves
      induction path with
      | refl => exact marks.own
      | tail _ lead ih =>
        obtain ⟨previous, member, rfl⟩ := lead
        exact marks.closed previous (ih previous member) (by simp)
    exact complete arc leaves

end

end Traversal
