import TypeHints.Proofs.ClassName
import TypeHints.Proofs.World.Names
import TypeHints.Proofs.World.Query
import TypeHints.Scope.Basic

/-!
A parent that is registered is given as it is registered. One that is not is read again as a name of
the scope, and inside the scope's own namespace it comes back unless the rest of its name has the
namespace in it once more.
-/
namespace TypeHints.Scope
open ClassName Query

variable {w : World} {s : Scope} {space rest left parent : String}

/-! ### Names read in a scope -/

theorem qualify_rooted (rooted : left.toList.head? = some '\\') : s.qualify left = stripRoot left :=
  if_pos rooted

/-- What neither a root marker nor an alias leads elsewhere is in the namespace. -/
theorem qualify_unaliased (unrooted : left.toList.head? ≠ some '\\') (inside : s.space = some space)
    (free : s.uses.find? (splitFirst left).1 = none) : s.qualify left = space ++ "\\" ++ left := by
  unfold qualify
  rw [if_neg unrooted]
  cases parts : splitFirst left with
  | mk first rest =>
    rw [parts] at free
    simp only [free, inside]

theorem length_stripRoot_le (name : String) : (stripRoot name).length ≤ name.length := by
  rw [← String.length_toList, ← String.length_toList, stripRoot, String.toList_ofList]
  exact List.length_dropWhile_le _ _

theorem qualify_eq_behind_iff (inside : s.space = some space)
    (free : s.uses.find? (splitFirst left).1 = none) (short : left.length ≤ rest.length) :
    s.qualify left = space ++ "\\" ++ rest ↔ left.toList.head? ≠ some '\\' ∧ left = rest := by
  by_cases rooted : left.toList.head? = some '\\'
  · apply iff_of_false
    · intro same
      have stripped := length_stripRoot_le left
      have longer : rest.length < (space ++ "\\" ++ rest).length := by
        rw [String.length_append, String.length_append]
        show rest.length < space.length + 1 + rest.length
        omega
      rw [qualify_rooted rooted] at same
      rw [same] at stripped
      omega
    · intro both
      exact both.1 rooted
  · rw [qualify_unaliased rooted inside free]
    constructor
    · intro same
      have texts : (space ++ "\\").toList ++ left.toList = (space ++ "\\").toList ++ rest.toList := by
        rw [← String.toList_append, ← String.toList_append, same]
      exact ⟨rooted, String.toList_inj.mp (List.append_cancel_left texts)⟩
    · rintro ⟨-, rfl⟩
      rfl

/-! ### Parents -/

theorem parentClass_registered {p : ClassDecl} (given : w.parentOf? s.declaringClass = some p.name)
    (registered : w.find? p.name = some p) : s.parentClass.Settles w (.ok p.name) := by
  have asked := settles_ofWorld (w := w) (·.parentOf? s.declaringClass)
  have known := settles_parentExists (w := w) p.name
  rw [given] at asked
  rw [registered] at known
  exact asked.bind (known.bind (settles_pure _))

theorem parentClass_unknown (given : w.parentOf? s.declaringClass = some parent)
    (unknown : w.find? parent = none) (inside : s.space = some space) :
    s.parentClass.Settles w (.ok (s.qualify (withoutSpace space parent))) := by
  have asked := settles_ofWorld (w := w) (·.parentOf? s.declaringClass)
  have known := settles_parentExists (w := w) parent
  rw [given] at asked
  rw [unknown] at known
  simp only [parentClass, inside]
  exact asked.bind (known.bind (settles_pure _))

theorem parentOf?_of_find? {name : String} {c : ClassDecl} (found : w.find? name = some c)
    (above : c.parent = some parent) : w.parentOf? name = some (w.canonicalName parent) := by
  rw [World.parentOf?, found, Option.bind_some, above, Option.map_some]

theorem stripRoot_behind (named : space ≠ "") (unrooted : space.toList.head? ≠ some '\\') :
    stripRoot (space ++ "\\" ++ rest) = space ++ "\\" ++ rest := by
  apply stripRoot_eq_iff.mpr
  have front : (space ++ "\\" ++ rest).toList = space.toList ++ ('\\' :: rest.toList) := by simp
  rw [front]
  cases text : space.toList with
  | nil => exact absurd (String.toList_eq_nil_iff.mp text) named
  | cons c cs =>
    rw [text] at unrooted
    exact unrooted

/-- Where the declaring class is registered and extends another class, the parent is that class as it is
registered. A parent that is not registered, but stands in the namespace of the scope, is read again
behind the namespace, after that has been dropped from the whole of its name. No alias in the way, it
comes back exactly if its first segment is not empty and nothing else was dropped. -/
theorem parentClass_within {c : ClassDecl} (found : w.find? s.declaringClass = some c)
    (above : c.parent = some parent) :
    (∀ p, w.find? parent = some p → s.parentClass.Settles w (.ok p.name)) ∧
    ∀ space rest, s.space = some space → space ≠ "" → space.toList.head? ≠ some '\\' →
      parent = space ++ "\\" ++ rest → w.find? parent = none →
      s.parentClass.Settles w (.ok (s.qualify (withoutSpace space rest))) ∧
      (s.uses.find? (splitFirst (withoutSpace space rest)).1 = none →
        (s.qualify (withoutSpace space rest) = parent ↔
          rest.toList.head? ≠ some '\\' ∧ ¬ (space.toList ++ ['\\']) <:+: rest.toList)) ∧
      (s.uses.find? (splitFirst rest).1 = none → rest.toList.head? ≠ some '\\' →
        ¬ (space.toList ++ ['\\']) <:+: rest.toList → s.parentClass.Settles w (.ok parent)) := by
  have given := parentOf?_of_find? found above
  constructor
  · intro p registered
    have named := (ClassTable.name_of_find? registered).1
    have again : w.find? p.name = some p := (ClassTable.find?_congr named).trans registered
    rw [World.canonicalName, registered] at given
    exact parentClass_registered given again
  · intro space rest inside named unrooted behind unknown
    have settles : s.parentClass.Settles w (.ok (s.qualify (withoutSpace space rest))) := by
      have bare : w.canonicalName parent = parent := by
        rw [World.canonicalName, unknown, behind]
        exact stripRoot_behind named unrooted
      rw [bare] at given
      have read := parentClass_unknown given unknown inside
      rw [behind, withoutSpace_behind] at read
      exact read
    have back (free : s.uses.find? (splitFirst (withoutSpace space rest)).1 = none) :
        s.qualify (withoutSpace space rest) = parent ↔
          rest.toList.head? ≠ some '\\' ∧ ¬ (space.toList ++ ['\\']) <:+: rest.toList := by
      rw [behind, qualify_eq_behind_iff inside free (length_withoutSpace_le space rest),
        ← withoutSpace_eq_self_iff]
      constructor
      · rintro ⟨front, same⟩
        rw [same] at front
        exact ⟨front, same⟩
      · rintro ⟨front, same⟩
        rw [same]
        exact ⟨front, rfl⟩
    refine ⟨settles, back, ?_⟩
    intro free front absent
    have same : withoutSpace space rest = rest := withoutSpace_eq_self_iff.mpr absent
    rw [← same] at free
    rw [(back free).mpr ⟨front, absent⟩] at settles
    exact settles

/-- A class of an application that extends what is not there. -/
def app (parent : String) : World where
  table := ClassTable.empty.insertAll [{ name := "App\\User", parent := some parent }]

def appUser : Scope where
  called := "User"
  declaring := "User"
  space := some "App"

/-- A name in a deeper namespace comes back. -/
theorem parentClass_within_app :
    appUser.parentClass.Settles (app "App\\Model\\Base") (.ok "App\\Model\\Base") := by
  have found : (app "App\\Model\\Base").find? appUser.declaringClass =
      some { name := "App\\User", parent := some "App\\Model\\Base" } := rfl
  obtain ⟨-, unknown⟩ := parentClass_within found rfl
  obtain ⟨-, -, back⟩ := unknown "App" "Model\\Base" rfl (by decide) (by decide) rfl rfl
  exact back rfl (by decide) (withoutSpace_eq_self_iff.mp rfl)

/-- The namespace is dropped twice from a name that has a segment of the same name. -/
theorem parentClass_strays :
    (∃ c, (app "App\\App\\Model").find? appUser.declaringClass = some c ∧
      c.parent = some "App\\App\\Model") ∧
    (app "App\\App\\Model").find? "App\\App\\Model" = none ∧
    appUser.uses.find? "App" = none ∧
    appUser.parentClass.Settles (app "App\\App\\Model") (.ok "App\\Model") ∧
    ¬ appUser.parentClass.Settles (app "App\\App\\Model") (.ok "App\\App\\Model") := by
  have found : (app "App\\App\\Model").find? appUser.declaringClass =
      some { name := "App\\User", parent := some "App\\App\\Model" } := rfl
  have unknown : (app "App\\App\\Model").find? "App\\App\\Model" = none := rfl
  have given : (app "App\\App\\Model").parentOf? appUser.declaringClass = some "App\\App\\Model" := rfl
  have outcome : appUser.qualify (withoutSpace "App" "App\\App\\Model") = "App\\Model" := by decide
  have settles : appUser.parentClass.Settles (app "App\\App\\Model") (.ok "App\\Model") := by
    rw [← outcome]
    exact parentClass_unknown given unknown rfl
  refine ⟨⟨_, found, rfl⟩, unknown, rfl, settles, ?_⟩
  intro other
  have same := Except.ok.inj (settles.unique other)
  exact absurd same (by decide)

end TypeHints.Scope
