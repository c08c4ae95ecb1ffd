import TypeHints.World.Ancestry

namespace TypeHints.ClassTable

variable {ancestor name : String} {left : List (String × ClassDecl)} {queue : List String}

@[simp] theorem leadsTo_nil (ancestor : String) (left : List (String × ClassDecl)) :
    leadsTo ancestor left [] = false := by
  rw [leadsTo]

theorem leadsTo_here (same : ClassName.key name = ancestor) :
    leadsTo ancestor left (name :: queue) = true := by
  rw [leadsTo]
  simp [same]

theorem leadsTo_step {c : ClassDecl} (other : ClassName.key name ≠ ancestor)
    (found : Keyed.valueAt? (ClassName.key name) left = some c) :
    leadsTo ancestor left (name :: queue) =
      leadsTo ancestor (Keyed.dropEntry (ClassName.key name) left) (c.supertypes ++ queue) := by
  rw [leadsTo]
  simp only [other, if_false]
  split
  next d again =>
    rw [found] at again
    cases again
    rfl
  next none =>
    rw [found] at none
    cases none

theorem leadsTo_skip (other : ClassName.key name ≠ ancestor)
    (absent : Keyed.valueAt? (ClassName.key name) left = none) :
    leadsTo ancestor left (name :: queue) = leadsTo ancestor left queue := by
  rw [leadsTo]
  simp only [other, if_false]
  split
  next c found =>
    rw [absent] at found
    cases found
  next => rfl

theorem isA_of_alone {t : ClassTable} {name ancestor : String} {c : ClassDecl}
    (found : t.find? name = some c) (alone : c.supertypes = [])
    (other : ClassName.key name ≠ ClassName.key ancestor) : t.isA name ancestor = false := by
  rw [isA, leadsTo_step other found, alone]
  exact leadsTo_nil _ _

theorem isCollectionLike_of_alone {t : ClassTable} {name : String} {c : ClassDecl}
    (found : t.find? name = some c) (alone : c.supertypes = [])
    (other : ∀ i ∈ collectionInterfaces, ClassName.key name ≠ ClassName.key i) :
    t.isCollectionLike name = false := by
  refine List.any_eq_false.mpr fun i member => ?_
  rw [isA_of_alone found alone (other i member)]
  exact Bool.false_ne_true

end TypeHints.ClassTable
