import Mathlib.Algebra.BigOperators.Group.List.Basic
import Mathlib.Algebra.GroupWithZero.Nat

/-! # Sparse arrays

Arrays that may hold nothing at a position: writing past the end leaves holes
behind, and a position can also hold an explicit `null`.  Reading a hole or a
position past the end gives `hole`.
-/

inductive Slot (α : Type*) where
  | hole
  | null
  | full (value : α)
deriving DecidableEq, Repr

namespace Slot

variable {α : Type*}

/-- The value of a slot, with a fallback for holes and `null`. -/
def getD : Slot α → α → α
  | .full value, _ => value
  | _, fallback => fallback

/-- A slot that holds a value, as opposed to a hole or `null`. -/
def isFull : Slot α → Bool
  | .full _ => true
  | _ => false

def isNull : Slot α → Bool
  | .null => true
  | _ => false

def toOption : Slot α → Option α
  | .full value => some value
  | _ => none

@[simp] theorem getD_full (value fallback : α) : (Slot.full value).getD fallback = value := rfl
@[simp] theorem getD_hole (fallback : α) : (Slot.hole : Slot α).getD fallback = fallback := rfl
@[simp] theorem getD_null (fallback : α) : (Slot.null : Slot α).getD fallback = fallback := rfl
@[simp] theorem isFull_full (value : α) : (Slot.full value).isFull = true := rfl
@[simp] theorem isFull_hole : (Slot.hole : Slot α).isFull = false := rfl
@[simp] theorem isFull_null : (Slot.null : Slot α).isFull = false := rfl

theorem isNull_iff {slot : Slot α} : slot.isNull = true ↔ slot = .null := by
  cases slot <;> simp [isNull]

end Slot

namespace SparseArray

variable {α : Type*}

def read (slots : List (Slot α)) (index : Nat) : Slot α := slots.getD index .hole

def write : List (Slot α) → Nat → Slot α → List (Slot α)
  | [], 0, slot => [slot]
  | [], index + 1, slot => .hole :: write [] index slot
  | _ :: rest, 0, slot => slot :: rest
  | first :: rest, index + 1, slot => first :: write rest index slot

@[simp] theorem read_nil (index : Nat) : read ([] : List (Slot α)) index = .hole := by
  simp [read]

@[simp] theorem read_cons_zero (first : Slot α) (rest : List (Slot α)) :
    read (first :: rest) 0 = first := rfl

@[simp] theorem read_cons_succ (first : Slot α) (rest : List (Slot α)) (index : Nat) :
    read (first :: rest) (index + 1) = read rest index := by
  simp [read]

@[simp] theorem read_write_self (slots : List (Slot α)) (index : Nat) (slot : Slot α) :
    read (write slots index slot) index = slot := by
  induction slots, index, slot using write.induct with
  | case1 => rfl
  | case2 index slot ih => simpa [write] using ih
  | case3 => rfl
  | case4 first rest index slot ih => simpa [write] using ih

theorem read_write_of_ne (slots : List (Slot α)) {index other : Nat} (slot : Slot α)
    (different : other ≠ index) : read (write slots index slot) other = read slots other := by
  induction slots, index, slot using write.induct generalizing other with
  | case1 slot =>
    cases other with
    | zero => exact absurd rfl different
    | succ other => simp [write]
  | case2 index slot ih =>
    cases other with
    | zero => simp [write]
    | succ other =>
      simp only [write, read_cons_succ, read_nil]
      rw [ih (by omega), read_nil]
  | case3 first rest slot =>
    cases other with
    | zero => exact absurd rfl different
    | succ other => simp [write]
  | case4 first rest index slot ih =>
    cases other with
    | zero => simp [write]
    | succ other => simpa [write] using ih (by omega)

theorem read_write (slots : List (Slot α)) (index other : Nat) (slot : Slot α) :
    read (write slots index slot) other = if other = index then slot else read slots other := by
  split
  · rename_i same
    rw [same, read_write_self]
  · rename_i different
    exact read_write_of_ne slots slot different

@[simp] theorem write_write (slots : List (Slot α)) (index : Nat) (first second : Slot α) :
    write (write slots index first) index second = write slots index second := by
  induction slots, index, first using write.induct with
  | case1 => rfl
  | case2 index slot ih => simpa [write] using ih
  | case3 => rfl
  | case4 first rest index slot ih => simpa [write] using ih

@[simp] theorem length_write (slots : List (Slot α)) (index : Nat) (slot : Slot α) :
    (write slots index slot).length = max slots.length (index + 1) := by
  induction slots, index, slot using write.induct with
  | case1 => rfl
  | case2 index slot ih => simp [write, ih]
  | case3 => simp [write]
  | case4 first rest index slot ih =>
    simp only [write, List.length_cons, ih]; omega

variable {slots : List (Slot α)} {index : Nat}

theorem read_of_length_le (past : slots.length ≤ index) :
    read slots index = .hole := by
  simp [read, List.getElem?_eq_none past]

theorem read_eq_getElem (bound : index < slots.length) :
    read slots index = slots[index] := by
  simp [read, bound]

theorem read_mem (bound : index < slots.length) :
    read slots index ∈ slots := by
  rw [read_eq_getElem bound]; exact List.getElem_mem bound

theorem mem_iff_read {slot : Slot α} :
    slot ∈ slots ↔ ∃ index, index < slots.length ∧ read slots index = slot := by
  constructor
  · intro member
    obtain ⟨index, bound, located⟩ := List.mem_iff_getElem.mp member
    exact ⟨index, bound, by rw [read_eq_getElem bound, located]⟩
  · rintro ⟨index, bound, located⟩
    exact located ▸ read_mem bound

theorem lt_length_of_read_ne_hole (present : read slots index ≠ .hole) : index < slots.length := by
  by_contra past
  exact present (read_of_length_le (by omega))

@[simp] theorem read_replicate_null (count index : Nat) :
    read (List.replicate count (Slot.null : Slot α)) index = if index < count then .null else .hole := by
  split
  · rename_i bound
    rw [read_eq_getElem (by simpa using bound)]; simp
  · rename_i past
    exact read_of_length_le (by simpa using past)

theorem read_map {β : Type*} {replace : Slot α → Slot β} (keepsHole : replace .hole = .hole) (slots : List (Slot α))
    (index : Nat) : read (slots.map replace) index = replace (read slots index) := by
  by_cases within : index < slots.length
  · rw [read_eq_getElem (by simpa using within), read_eq_getElem within, List.getElem_map]
  · rw [read_of_length_le (by simpa using Nat.le_of_not_lt within), read_of_length_le (Nat.le_of_not_lt within),
      keepsHole]

end SparseArray
