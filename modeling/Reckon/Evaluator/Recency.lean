/-! A store that remembers which of its keys was used last. Its entries stand in the
order of their last use, the most recent one at the end. -/

namespace Reckon.Recency

variable {κ ν : Type}

/-- Gives up the least recent entries until no more than `size` are left. -/
def trim (size : Nat) (entries : List (κ × ν)) : List (κ × ν) :=
  entries.drop (entries.length - size)

theorem length_trim_le (size : Nat) (entries : List (κ × ν)) :
    (trim size entries).length ≤ size := by
  simp only [trim, List.length_drop]
  omega

variable [DecidableEq κ]

def erase (key : κ) (entries : List (κ × ν)) : List (κ × ν) :=
  entries.filter fun entry => entry.1 != key

/-- Writes an entry and makes its key the most recent one. -/
def put (key : κ) (value : ν) (entries : List (κ × ν)) : List (κ × ν) :=
  erase key entries ++ [(key, value)]

theorem lookup_put (key : κ) (value : ν) (entries : List (κ × ν)) :
    (put key value entries).lookup key = some value := by
  have absent : (erase key entries).lookup key = none := by
    simp only [List.lookup_eq_none_iff, erase, List.mem_filter, bne_iff_ne]
    exact fun entry inside => inside.2.symm
  simp [put, List.lookup_append, absent]

theorem keys_nodup_put {key : κ} {value : ν} {entries : List (κ × ν)}
    (distinct : (entries.map Prod.fst).Nodup) : ((put key value entries).map Prod.fst).Nodup := by
  have kept : ((erase key entries).map Prod.fst).Nodup :=
    distinct.sublist (List.filter_sublist.map _)
  rw [put, List.map_append, List.nodup_append]
  refine ⟨kept, by simp, ?_⟩
  intro first inside second last
  simp only [List.map_cons, List.map_nil, List.mem_singleton] at last
  simp only [erase, List.mem_map, List.mem_filter, bne_iff_ne] at inside
  obtain ⟨entry, ⟨_, other⟩, rfl⟩ := inside
  exact last ▸ other

end Reckon.Recency
