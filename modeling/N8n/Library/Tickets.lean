import Mathlib.Data.List.Nodup

/-! # Keyed entries served by ticket

Entries wait under keys that may be used again; a ticket with the next number is
drawn when an entry is created.  As long as no new key is less than a key that
waits, and only the entry with the least key is served, the entries are served in
the order of their tickets.
-/

structure Tickets where
  /-- The number of the next ticket. -/
  next : Nat
  /-- The keys that wait with their tickets, in the order of their creation. -/
  pending : List (Nat × Nat)
  /-- The tickets of the entries that were served, in this order. -/
  served : List Nat

namespace Tickets

def keys (tickets : Tickets) : List Nat := tickets.pending.map Prod.fst

/-- The given keys wait already, created in this order. -/
def ofKeys (keys : List Nat) : Tickets where
  next := keys.length
  pending := keys.zipIdx
  served := []

/-- An entry is created; one that has its key is overwritten. -/
def create (tickets : Tickets) (key : Nat) : Tickets where
  next := tickets.next + 1
  pending := tickets.pending.filter (·.1 ≠ key) ++ [(key, tickets.next)]
  served := tickets.served

/-- An entry is taken away without being served. -/
def drop (tickets : Tickets) (key : Nat) : Tickets :=
  { tickets with pending := tickets.pending.filter (·.1 ≠ key) }

def serve (tickets : Tickets) (key : Nat) : Tickets :=
  { tickets.drop key with
    served := tickets.served ++ ((tickets.pending.find? (·.1 = key)).map Prod.snd).toList }

/-- Keys and tickets ascend together, and whatever was served came before everything that waits. -/
structure InOrder (tickets : Tickets) : Prop where
  ascending : tickets.pending.Pairwise fun first second => first.1 < second.1 ∧ first.2 < second.2
  drawn : ∀ ticket ∈ tickets.pending, ticket.2 < tickets.next
  servedDrawn : ∀ number ∈ tickets.served, number < tickets.next
  servedBefore : ∀ number ∈ tickets.served, ∀ ticket ∈ tickets.pending, number < ticket.2
  served : tickets.served.Pairwise (· < ·)

variable {tickets : Tickets} {key other : Nat}

@[simp] theorem keys_drop : (tickets.drop key).keys = tickets.keys.filter (· ≠ key) := by
  simp [keys, drop, List.filter_map, Function.comp_def]

@[simp] theorem keys_serve : (tickets.serve key).keys = tickets.keys.filter (· ≠ key) := keys_drop

@[simp] theorem keys_create : (tickets.create key).keys = tickets.keys.filter (· ≠ key) ++ [key] := by
  simp [keys, create, List.filter_map, Function.comp_def]

@[simp] theorem keys_ofKeys (keys : List Nat) : (ofKeys keys).keys = keys := by
  simp [Tickets.keys, ofKeys]

theorem InOrder.ofKeys {keys : List Nat} (ascending : keys.Pairwise (· < ·)) : (ofKeys keys).InOrder where
  ascending := by
    rw [List.pairwise_iff_getElem]
    intro first second inFirst inSecond less
    simp only [Tickets.ofKeys, List.length_zipIdx] at inFirst inSecond
    simp only [Tickets.ofKeys, List.getElem_zipIdx, Nat.zero_add]
    exact ⟨List.pairwise_iff_getElem.mp ascending first second inFirst inSecond less, less⟩
  drawn := by
    intro ticket member
    exact List.snd_lt_of_mem_zipIdx member
  servedDrawn := by simp [Tickets.ofKeys]
  servedBefore := by simp [Tickets.ofKeys]
  served := List.Pairwise.nil

theorem InOrder.lt_of_key_lt (inOrder : tickets.InOrder) {first second : Nat × Nat}
    (firstWaits : first ∈ tickets.pending) (secondWaits : second ∈ tickets.pending) (less : first.1 < second.1) :
    first.2 < second.2 := by
  have ascending := List.pairwise_iff_getElem.mp inOrder.ascending
  obtain ⟨firstIndex, inFirst, rfl⟩ := List.getElem_of_mem firstWaits
  obtain ⟨secondIndex, inSecond, rfl⟩ := List.getElem_of_mem secondWaits
  rcases Nat.lt_trichotomy firstIndex secondIndex with before | same | after
  · exact (ascending firstIndex secondIndex inFirst inSecond before).2
  · subst same
    exact absurd less (Nat.lt_irrefl _)
  · have := (ascending secondIndex firstIndex inSecond inFirst after).1
    omega

theorem InOrder.create (inOrder : tickets.InOrder) (isGreatest : ∀ other ∈ tickets.keys, other ≤ key) :
    (tickets.create key).InOrder := by
  constructor
  · rw [Tickets.create, List.pairwise_append]
    refine ⟨inOrder.ascending.filter _, List.pairwise_singleton _ _, fun ticket member last isLast => ?_⟩
    obtain ⟨waits, different⟩ := List.mem_filter.mp member
    have atMost := isGreatest ticket.1 (List.mem_map_of_mem waits)
    simp only [decide_eq_true_eq] at different
    rw [List.mem_singleton.mp isLast]
    exact ⟨by omega, inOrder.drawn ticket waits⟩
  · intro ticket member
    cases List.mem_append.mp member with
    | inl old => exact Nat.lt_succ_of_lt (inOrder.drawn ticket (List.mem_filter.mp old).1)
    | inr new =>
      rw [List.mem_singleton.mp new]
      exact Nat.lt_succ_self _
  · intro number member
    exact Nat.lt_succ_of_lt (inOrder.servedDrawn number member)
  · intro number member ticket waits
    cases List.mem_append.mp waits with
    | inl old => exact inOrder.servedBefore number member ticket (List.mem_filter.mp old).1
    | inr new =>
      rw [List.mem_singleton.mp new]
      exact inOrder.servedDrawn number member
  · exact inOrder.served

theorem InOrder.drop (inOrder : tickets.InOrder) (key : Nat) : (tickets.drop key).InOrder where
  ascending := inOrder.ascending.filter _
  drawn := fun ticket member => inOrder.drawn ticket (List.mem_filter.mp member).1
  servedDrawn := inOrder.servedDrawn
  servedBefore := fun number member ticket waits =>
    inOrder.servedBefore number member ticket (List.mem_filter.mp waits).1
  served := inOrder.served

theorem InOrder.serve (inOrder : tickets.InOrder) (least : ∀ other ∈ tickets.keys, key ≤ other) :
    (tickets.serve key).InOrder := by
  have dropped := inOrder.drop key
  rw [Tickets.serve]
  cases found : tickets.pending.find? (·.1 = key) with
  | none =>
    rw [Option.map_none, Option.toList_none, List.append_nil]
    exact dropped
  | some ticket =>
    have waits := List.mem_of_find?_eq_some found
    have isKey : ticket.1 = key := by simpa using List.find?_some found
    refine ⟨dropped.ascending, dropped.drawn, ?_, ?_, ?_⟩
    · intro number member
      cases List.mem_append.mp member with
      | inl old => exact inOrder.servedDrawn number old
      | inr new =>
        rw [List.mem_singleton.mp new]
        exact inOrder.drawn ticket waits
    · intro number member other otherWaits
      obtain ⟨inPending, different⟩ := List.mem_filter.mp otherWaits
      cases List.mem_append.mp member with
      | inl old => exact inOrder.servedBefore number old other inPending
      | inr new =>
        rw [List.mem_singleton.mp new]
        have atLeast := least other.1 (List.mem_map_of_mem inPending)
        simp only [decide_eq_true_eq] at different
        exact inOrder.lt_of_key_lt waits inPending (by omega)
    · rw [Option.map_some, Option.toList_some, List.pairwise_append]
      refine ⟨inOrder.served, List.pairwise_singleton _ _, fun number member last isLast => ?_⟩
      rw [List.mem_singleton.mp isLast]
      exact inOrder.servedBefore number member ticket waits

end Tickets
