import N8n.Library.OrderedMap

/-! # Maps of lists

A map that keeps a list under each key, the empty one under a key that is
missing.  Lists get appended to it, key by key or a whole map at once.
-/

namespace OrderedMap

variable {κ ν : Type*} [DecidableEq κ]

def listAt (map : OrderedMap κ (List ν)) (key : κ) : List ν := (map.get? key).getD []

def append (map : OrderedMap κ (List ν)) (key : κ) (added : List ν) : OrderedMap κ (List ν) :=
  map.set key (map.listAt key ++ added)

def merge (first second : OrderedMap κ (List ν)) : OrderedMap κ (List ν) :=
  second.entries.foldl (fun map entry => map.append entry.1 entry.2) first

@[simp] theorem listAt_empty (key : κ) : (∅ : OrderedMap κ (List ν)).listAt key = [] := rfl

theorem listAt_append (map : OrderedMap κ (List ν)) (key key' : κ) (added : List ν) :
    (map.append key added).listAt key' = map.listAt key' ++ if key' = key then added else [] := by
  rw [append, listAt, get?_set]
  split
  · rename_i same
    rw [same, Option.getD_some]
  · rw [List.append_nil, listAt]

theorem listAt_merge (first second : OrderedMap κ (List ν)) (key : κ) :
    (first.merge second).listAt key = first.listAt key ++ second.listAt key := by
  obtain ⟨entries, nodup⟩ := second
  have appended : ∀ map : OrderedMap κ (List ν),
      (entries.foldl (fun map entry => map.append entry.1 entry.2) map).listAt key =
        map.listAt key ++ ((entries.find? fun entry => entry.1 = key).map Prod.snd).getD [] := by
    induction entries with
    | nil => exact fun map => (List.append_nil _).symm
    | cons entry rest ih =>
      intro map
      rw [List.map_cons, List.nodup_cons] at nodup
      rw [List.foldl_cons, ih nodup.2, listAt_append, List.find?_cons]
      by_cases same : entry.1 = key
      · simp [same, find?_eq_none_of_notMem (same ▸ nodup.1)]
      · simp [same, Ne.symm same]
  exact appended first

end OrderedMap
