/-!
A list of entries with distinct keys. Putting a key again replaces its value where it stands.
-/
namespace TypeHints

structure Keyed (κ ν : Type) where
  entries : List (κ × ν)
  distinct : (entries.map Prod.fst).Nodup
  deriving DecidableEq

namespace Keyed

variable {κ ν : Type} [DecidableEq κ]

def empty : Keyed κ ν := ⟨[], List.nodup_nil⟩

instance : Inhabited (Keyed κ ν) := ⟨empty⟩

def keys (m : Keyed κ ν) : List κ := m.entries.map Prod.fst

def size (m : Keyed κ ν) : Nat := m.entries.length

/-- Replaces the value of the first entry with key `k`, or appends an entry. -/
def putEntry (k : κ) (v : ν) : List (κ × ν) → List (κ × ν)
  | [] => [(k, v)]
  | e :: rest => if e.1 = k then (k, v) :: rest else e :: putEntry k v rest

def valueAt? (k : κ) : List (κ × ν) → Option ν
  | [] => none
  | e :: rest => if e.1 = k then some e.2 else valueAt? k rest

def dropEntry (k : κ) (es : List (κ × ν)) : List (κ × ν) := es.filter (·.1 ≠ k)

theorem length_dropEntry_lt {k : κ} {v : ν} {es : List (κ × ν)} (h : valueAt? k es = some v) :
    (dropEntry k es).length < es.length := by
  induction es with
  | nil => simp [valueAt?] at h
  | cons e rest ih =>
    by_cases same : e.1 = k
    · have bound : (dropEntry k rest).length ≤ rest.length := List.length_filter_le _ _
      simp only [dropEntry] at bound ⊢
      simp only [List.filter_cons, same, ne_eq, not_true_eq_false, decide_false,
        Bool.false_eq_true, if_false, List.length_cons] at bound ⊢
      omega
    · simp only [valueAt?, same, if_false] at h
      have := ih h
      simpa [dropEntry, List.filter_cons, same] using this

theorem map_fst_putEntry (k : κ) (v : ν) (es : List (κ × ν)) :
    (putEntry k v es).map Prod.fst =
      if k ∈ es.map Prod.fst then es.map Prod.fst else es.map Prod.fst ++ [k] := by
  induction es with
  | nil => simp [putEntry]
  | cons e rest ih =>
    by_cases same : e.1 = k
    · simp [putEntry, same]
    · have other : ¬ k = e.1 := fun h => same h.symm
      simp only [putEntry, same, if_false, List.map_cons, ih, List.mem_cons, other, false_or]
      split <;> simp

theorem nodup_putEntry (k : κ) (v : ν) {es : List (κ × ν)} (h : (es.map Prod.fst).Nodup) :
    ((putEntry k v es).map Prod.fst).Nodup := by
  rw [map_fst_putEntry]
  split
  · exact h
  next absent =>
    rw [List.nodup_append]
    refine ⟨h, by simp, ?_⟩
    intro a member b single
    rw [List.mem_singleton.mp single]
    exact fun same => absent (same ▸ member)

theorem mem_putEntry {k : κ} {v : ν} {es : List (κ × ν)} {e : κ × ν}
    (h : e ∈ putEntry k v es) : e = (k, v) ∨ e ∈ es := by
  induction es with
  | nil => simpa [putEntry] using h
  | cons d rest ih =>
    by_cases same : d.1 = k
    · simp only [putEntry, same, if_true, List.mem_cons] at h ⊢
      exact h.imp_right Or.inr
    · simp only [putEntry, same, if_false, List.mem_cons] at h ⊢
      rcases h with rfl | h
      · exact Or.inr (Or.inl rfl)
      · exact (ih h).imp_right Or.inr

def put (m : Keyed κ ν) (k : κ) (v : ν) : Keyed κ ν :=
  ⟨putEntry k v m.entries, nodup_putEntry k v m.distinct⟩

def find? (m : Keyed κ ν) (k : κ) : Option ν := valueAt? k m.entries

def contains (m : Keyed κ ν) (k : κ) : Bool := (m.find? k).isSome

def ofList (es : List (κ × ν)) : Keyed κ ν := es.foldl (fun m e => m.put e.1 e.2) empty

def putAll (m other : Keyed κ ν) : Keyed κ ν := other.entries.foldl (fun m e => m.put e.1 e.2) m

/-- Puts only the entries of `other` whose keys are new. -/
def putMissing (m other : Keyed κ ν) : Keyed κ ν :=
  other.entries.foldl (fun m e => if m.contains e.1 then m else m.put e.1 e.2) m

theorem keys_put (m : Keyed κ ν) (k : κ) (v : ν) :
    (m.put k v).keys = if k ∈ m.keys then m.keys else m.keys ++ [k] :=
  map_fst_putEntry k v m.entries

theorem valueAt?_putEntry_self (k : κ) (v : ν) (es : List (κ × ν)) :
    valueAt? k (putEntry k v es) = some v := by
  induction es with
  | nil => simp [putEntry, valueAt?]
  | cons e rest ih =>
    by_cases same : e.1 = k
    · simp [putEntry, valueAt?, same]
    · simpa [putEntry, valueAt?, same] using ih

theorem valueAt?_putEntry_of_ne {k j : κ} (v : ν) (different : j ≠ k) (es : List (κ × ν)) :
    valueAt? j (putEntry k v es) = valueAt? j es := by
  induction es with
  | nil => simp [putEntry, valueAt?, Ne.symm different]
  | cons e rest ih =>
    by_cases same : e.1 = k
    · simp [putEntry, valueAt?, same, Ne.symm different]
    · by_cases here : e.1 = j
      · simp [putEntry, valueAt?, here, different]
      · simpa [putEntry, valueAt?, same, here] using ih

theorem find?_put_self (m : Keyed κ ν) (k : κ) (v : ν) : (m.put k v).find? k = some v :=
  valueAt?_putEntry_self k v m.entries

theorem find?_put_of_ne (m : Keyed κ ν) {k j : κ} (v : ν) (different : j ≠ k) :
    (m.put k v).find? j = m.find? j :=
  valueAt?_putEntry_of_ne v different m.entries

end Keyed

end TypeHints
