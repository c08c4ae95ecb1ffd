import TypeHints.Keyed

namespace TypeHints.Keyed

variable {κ ν : Type} [DecidableEq κ]

theorem mem_of_valueAt? {k : κ} {v : ν} {es : List (κ × ν)} (h : valueAt? k es = some v) :
    (k, v) ∈ es := by
  induction es with
  | nil => cases h
  | cons e rest ih =>
    unfold valueAt? at h
    split at h
    next same =>
      cases h
      rw [← same]
      exact List.mem_cons_self
    next => exact List.mem_cons_of_mem _ (ih h)

theorem mem_of_find? {m : Keyed κ ν} {k : κ} {v : ν} (h : m.find? k = some v) :
    (k, v) ∈ m.entries :=
  mem_of_valueAt? h

theorem putEntry_new {k : κ} {v : ν} {es : List (κ × ν)} (new : k ∉ es.map Prod.fst) :
    putEntry k v es = es ++ [(k, v)] := by
  induction es with
  | nil => rfl
  | cons e es ih =>
    simp only [List.map_cons, List.mem_cons, not_or] at new
    simp only [putEntry, Ne.symm new.1, if_false, ih new.2, List.cons_append]

theorem isSome_valueAt?_iff {k : κ} {es : List (κ × ν)} :
    (valueAt? k es).isSome ↔ k ∈ es.map Prod.fst := by
  induction es with
  | nil => simp [valueAt?]
  | cons e rest ih =>
    by_cases same : e.1 = k
    · simp [valueAt?, same]
    · have other : k ≠ e.1 := Ne.symm same
      simp [valueAt?, same, other, ih]

theorem isSome_find?_iff {m : Keyed κ ν} {k : κ} : (m.find? k).isSome ↔ k ∈ m.keys :=
  isSome_valueAt?_iff

theorem valueAt?_dropEntry_self (k : κ) (es : List (κ × ν)) : valueAt? k (dropEntry k es) = none := by
  refine Option.not_isSome_iff_eq_none.mp fun found => ?_
  obtain ⟨e, member, key⟩ := List.mem_map.mp (isSome_valueAt?_iff.mp found)
  exact of_decide_eq_true (List.mem_filter.mp member).2 key

theorem valueAt?_dropEntry_of_ne {k j : κ} (different : j ≠ k) (es : List (κ × ν)) :
    valueAt? j (dropEntry k es) = valueAt? j es := by
  induction es with
  | nil => rfl
  | cons e rest ih =>
    by_cases same : e.1 = k
    · have other : e.1 ≠ j := fun here => different (here ▸ same)
      simpa [dropEntry, valueAt?, same, Ne.symm different] using ih
    · by_cases here : e.1 = j
      · simp [dropEntry, valueAt?, here, different]
      · simpa [dropEntry, valueAt?, same, here] using ih

def putNew (m : Keyed κ ν) (k : κ) (v : ν) : Keyed κ ν := if m.contains k then m else m.put k v

theorem find?_putNew (m : Keyed κ ν) (k j : κ) (v : ν) :
    (m.putNew k v).find? j = (m.find? j).or (if j = k then some v else none) := by
  unfold putNew contains
  by_cases same : j = k
  · subst same
    cases old : m.find? j with
    | some known => simpa using old
    | none => simpa using m.find?_put_self j v
  · rw [if_neg same, Option.or_none]
    split
    · rfl
    · exact m.find?_put_of_ne v same

/-! ### Keys in order of arrival -/

def arrive (keys : List κ) (k : κ) : List κ := if k ∈ keys then keys else keys ++ [k]

theorem filter_arrive (keys : List κ) (k : κ) (later : List κ) :
    arrive keys k ++ (later.filter (· ∉ arrive keys k)).eraseDups =
      keys ++ ((k :: later).filter (· ∉ keys)).eraseDups := by
  unfold arrive
  split
  next old => rw [List.filter_cons_of_neg (by simpa using old)]
  next new =>
    have others : later.filter (· ∉ keys ++ [k]) = (later.filter (· ∉ keys)).filter (!· == k) := by
      rw [List.filter_filter]
      refine List.filter_congr fun j _ => ?_
      by_cases same : j = k <;> simp [same]
    rw [List.filter_cons_of_pos (by simpa using new), List.eraseDups_cons, others, List.append_assoc]
    rfl

/-- Keys stay where they are, and new ones come behind them in the order of their first arrival. -/
theorem foldl_arrive (later keys : List κ) :
    later.foldl arrive keys = keys ++ (later.filter (· ∉ keys)).eraseDups := by
  induction later generalizing keys with
  | nil => simp
  | cons k later ih => rw [List.foldl_cons, ih, filter_arrive]

theorem eraseDups_of_nodup {keys : List κ} (distinct : keys.Nodup) : keys.eraseDups = keys := by
  induction keys with
  | nil => rfl
  | cons k keys ih =>
    rw [List.nodup_cons] at distinct
    have others : keys.filter (!· == k) = keys := by
      refine List.filter_eq_self.mpr fun j member => ?_
      have other : j ≠ k := fun same => distinct.1 (same ▸ member)
      simpa using other
    rw [List.eraseDups_cons, others, ih distinct.2]

theorem keys_foldl {add : Keyed κ ν → κ × ν → Keyed κ ν} (one : ∀ m e, (add m e).keys = arrive m.keys e.1)
    {es : List (κ × ν)} (distinct : (es.map Prod.fst).Nodup) (m : Keyed κ ν) :
    (es.foldl add m).keys = m.keys ++ (es.map Prod.fst).filter (· ∉ m.keys) := by
  have arrives : (es.foldl add m).keys = (es.map Prod.fst).foldl arrive m.keys := by
    clear distinct
    induction es generalizing m with
    | nil => rfl
    | cons e es ih => rw [List.foldl_cons, ih, one, List.map_cons, List.foldl_cons]
  rw [arrives, foldl_arrive, eraseDups_of_nodup (distinct.filter _)]

/-! ### Putting all entries -/

theorem valueAt?_eq_none {k : κ} {es : List (κ × ν)} (absent : k ∉ es.map Prod.fst) :
    valueAt? k es = none :=
  Option.not_isSome_iff_eq_none.mp (mt isSome_valueAt?_iff.mp absent)

theorem entries_ext {es fs : List (κ × ν)} (distinct : (es.map Prod.fst).Nodup)
    (keys : es.map Prod.fst = fs.map Prod.fst) (lookup : ∀ k, valueAt? k es = valueAt? k fs) :
    es = fs := by
  induction es generalizing fs with
  | nil => exact (List.map_eq_nil_iff.mp keys.symm).symm
  | cons e es ih =>
    cases fs with
    | nil => cases keys
    | cons f fs =>
      obtain ⟨first, later⟩ := List.cons.inj keys
      rw [List.map_cons, List.nodup_cons] at distinct
      have value : e.2 = f.2 := by
        have here := lookup e.1
        simpa [valueAt?, first] using here
      obtain rfl : e = f := Prod.ext first value
      refine congrArg _ (ih distinct.2 later fun k => ?_)
      by_cases same : e.1 = k
      · subst same
        rw [valueAt?_eq_none distinct.1, valueAt?_eq_none (later ▸ distinct.1)]
      · simpa [valueAt?, same] using lookup k

theorem ext {m other : Keyed κ ν} (keys : m.keys = other.keys) (lookup : ∀ k, m.find? k = other.find? k) :
    m = other := by
  obtain ⟨entries, distinct⟩ := m
  obtain ⟨entries', distinct'⟩ := other
  obtain rfl : entries = entries' := entries_ext distinct keys lookup
  rfl

theorem find?_foldl_put {es : List (κ × ν)} (distinct : (es.map Prod.fst).Nodup) (m : Keyed κ ν)
    (k : κ) : (es.foldl (fun m e => m.put e.1 e.2) m).find? k = (valueAt? k es).or (m.find? k) := by
  induction es generalizing m with
  | nil => rfl
  | cons e es ih =>
    rw [List.map_cons, List.nodup_cons] at distinct
    rw [List.foldl_cons, ih distinct.2]
    by_cases same : e.1 = k
    · subst same
      rw [valueAt?_eq_none distinct.1, find?_put_self]
      simp [valueAt?]
    · rw [find?_put_of_ne _ _ (Ne.symm same)]
      simp [valueAt?, same]

theorem find?_putAll (m other : Keyed κ ν) (k : κ) :
    (m.putAll other).find? k = (other.find? k).or (m.find? k) :=
  find?_foldl_put other.distinct m k

theorem keys_putAll (m other : Keyed κ ν) :
    (m.putAll other).keys = m.keys ++ other.keys.filter (· ∉ m.keys) :=
  keys_foldl (fun m e => m.keys_put e.1 e.2) other.distinct m

theorem empty_putAll (m : Keyed κ ν) : empty.putAll m = m := by
  refine ext ?_ fun k => ?_
  · rw [keys_putAll]
    simp [keys, empty]
  · rw [find?_putAll]
    exact Option.or_none

theorem putAll_assoc (a b c : Keyed κ ν) : (a.putAll b).putAll c = a.putAll (b.putAll c) := by
  refine ext ?_ fun k => ?_
  · simp only [keys_putAll, List.filter_append, List.filter_filter, List.append_assoc]
    congr 2
    refine List.filter_congr fun k _ => ?_
    by_cases inA : k ∈ a.keys <;> by_cases inB : k ∈ b.keys <;> simp [inA, inB]
  · simp only [find?_putAll, Option.or_assoc]

theorem find?_foldl_putAll (tables : List (Keyed κ ν)) (m : Keyed κ ν) (k : κ) :
    (tables.foldl putAll m).find? k = (tables.reverse.findSome? (·.find? k)).or (m.find? k) := by
  induction tables generalizing m with
  | nil => rfl
  | cons table tables ih =>
    rw [List.foldl_cons, ih, find?_putAll, List.reverse_cons, List.findSome?_append, ← Option.or_assoc]
    simp

/-! ### Putting entries whose keys are new -/

theorem keys_putNew (m : Keyed κ ν) (k : κ) (v : ν) :
    (m.putNew k v).keys = arrive m.keys k := by
  unfold putNew contains arrive
  by_cases old : k ∈ m.keys
  · rw [if_pos (isSome_find?_iff.mpr old), if_pos old]
  · rw [if_neg (mt isSome_find?_iff.mp old), keys_put]

theorem find?_foldl_putNew (es : List (κ × ν)) (m : Keyed κ ν) (k : κ) :
    (es.foldl (fun m e => m.putNew e.1 e.2) m).find? k = (m.find? k).or (valueAt? k es) := by
  induction es generalizing m with
  | nil => exact Option.or_none.symm
  | cons e es ih =>
    rw [List.foldl_cons, ih, find?_putNew, Option.or_assoc]
    by_cases same : e.1 = k
    · simp [valueAt?, same]
    · simp [valueAt?, same, Ne.symm same]

theorem find?_putMissing (m other : Keyed κ ν) (k : κ) :
    (m.putMissing other).find? k = (m.find? k).or (other.find? k) :=
  find?_foldl_putNew other.entries m k

theorem keys_putMissing (m other : Keyed κ ν) :
    (m.putMissing other).keys = m.keys ++ other.keys.filter (· ∉ m.keys) :=
  keys_foldl (fun m e => m.keys_putNew e.1 e.2) other.distinct m

/-! ### Values -/

def Holds (P : ν → Prop) (m : Keyed κ ν) : Prop := ∀ e ∈ m.entries, P e.2

omit [DecidableEq κ] in
theorem holds_empty (P : ν → Prop) : Holds P (empty : Keyed κ ν) := nofun

omit [DecidableEq κ] in
theorem Holds.mono {P Q : ν → Prop} {m : Keyed κ ν} (h : m.Holds P) (weaker : ∀ v, P v → Q v) :
    m.Holds Q :=
  fun e member => weaker e.2 (h e member)

theorem Holds.put {P : ν → Prop} {m : Keyed κ ν} {k : κ} {v : ν} (h : m.Holds P) (new : P v) :
    (m.put k v).Holds P := by
  intro e member
  rcases mem_putEntry member with rfl | old
  · exact new
  · exact h e old

theorem holds_foldl_putNew {P : ν → Prop} (es : List (κ × ν)) (given : ∀ e ∈ es, P e.2)
    (m : Keyed κ ν) (h : m.Holds P) :
    (es.foldl (fun m e => if m.contains e.1 then m else m.put e.1 e.2) m).Holds P := by
  induction es generalizing m with
  | nil => exact h
  | cons e rest ih =>
    rw [List.foldl_cons]
    refine ih (fun d member => given d (List.mem_cons_of_mem _ member)) _ ?_
    split
    · exact h
    · exact h.put (given e List.mem_cons_self)

theorem Holds.putMissing {P : ν → Prop} {m other : Keyed κ ν} (h : m.Holds P)
    (given : other.Holds P) : (m.putMissing other).Holds P :=
  holds_foldl_putNew other.entries given m h

theorem Holds.find? {P : ν → Prop} {m : Keyed κ ν} {k : κ} {v : ν} (h : m.Holds P)
    (found : m.find? k = some v) : P v :=
  h (k, v) (mem_of_find? found)

end TypeHints.Keyed
