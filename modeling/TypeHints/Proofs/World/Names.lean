import TypeHints.Proofs.Keyed
import TypeHints.Proofs.World.Ancestry
import TypeHints.World.Basic

namespace TypeHints

namespace ClassTable

variable {t : ClassTable}

theorem find?_congr {a b : String} (same : ClassName.key a = ClassName.key b) :
    t.find? a = t.find? b := by
  rw [find?, find?, same]

theorem name_of_find? {name : String} {c : ClassDecl} (found : t.find? name = some c) :
    ClassName.key c.name = ClassName.key name ∧ ClassName.stripRoot c.name = c.name := by
  obtain ⟨key, bare⟩ := t.named _ (Keyed.mem_of_find? found)
  exact ⟨key.symm, bare⟩

theorem isA_congr {a b : String} (same : ClassName.key a = ClassName.key b) (ancestor : String) :
    t.isA a ancestor = t.isA b ancestor := by
  unfold isA
  by_cases here : ClassName.key a = ClassName.key ancestor
  · have there : ClassName.key b = ClassName.key ancestor := same.symm.trans here
    rw [leadsTo_here here, leadsTo_here there]
  · have there : ClassName.key b ≠ ClassName.key ancestor := by rwa [← same]
    cases found : Keyed.valueAt? (ClassName.key a) t.byKey.entries with
    | some c =>
      have again : Keyed.valueAt? (ClassName.key b) t.byKey.entries = some c := by rw [← same, found]
      rw [leadsTo_step here found, leadsTo_step there again, same]
    | none =>
      have again : Keyed.valueAt? (ClassName.key b) t.byKey.entries = none := by rw [← same, found]
      rw [leadsTo_skip here found, leadsTo_skip there again]

theorem isCollectionLike_congr {a b : String} (same : ClassName.key a = ClassName.key b) :
    t.isCollectionLike a = t.isCollectionLike b := by
  unfold isCollectionLike
  exact congrArg _ (funext fun ancestor => isA_congr same ancestor)

theorem isEnum_congr {a b : String} (same : ClassName.key a = ClassName.key b) :
    t.isEnum a = t.isEnum b := by
  rw [isEnum, isEnum, find?_congr same, isA_congr same]

end ClassTable

namespace World

variable {w : World}

theorem key_canonicalName (name : String) :
    ClassName.key (w.canonicalName name) = ClassName.key name := by
  unfold canonicalName
  split
  next c found => exact (ClassTable.name_of_find? found).1
  next => exact ClassName.key_stripRoot name

theorem canonicalName_stripRoot (name : String) :
    w.canonicalName (ClassName.stripRoot name) = w.canonicalName name := by
  have found : w.find? (ClassName.stripRoot name) = w.find? name :=
    ClassTable.find?_congr (ClassName.key_stripRoot name)
  rw [canonicalName, canonicalName, found, ClassName.stripRoot_stripRoot]

theorem classify_stripRoot (name : String) :
    w.classify (ClassName.stripRoot name) = w.classify name := by
  simp only [classify, canonicalName_stripRoot]

theorem classify_eq_object_iff {name className : String} :
    w.classify name = .ok (.object className) ↔
      w.table.isEnum name = false ∧ w.canonicalName name = className := by
  have enum : w.table.isEnum (w.canonicalName name) = w.table.isEnum name :=
    ClassTable.isEnum_congr (key_canonicalName name)
  simp only [classify, enum]
  cases w.table.isEnum name with
  | false => simp
  | true =>
    simp only [if_true, Bool.true_eq_false, false_and, iff_false]
    unfold Ty.enumeration Ty.backedEnumOf
    split
    · simp
    · split <;> simp
    · simp

end World

end TypeHints
