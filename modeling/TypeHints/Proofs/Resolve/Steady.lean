import TypeHints.Proofs.World.Query
import TypeHints.Resolve.Native

namespace TypeHints.Resolve
open Query Hint

variable {w : World} {scope : Option Scope}

/-! ### Names -/

theorem parentClass_orphan {s : Scope} (orphan : w.parentOf? s.declaringClass = none) :
    s.parentClass.Settles w (.error (.noParent s.declaringClass)) := by
  have asked := settles_ofWorld (w := w) (·.parentOf? s.declaringClass)
  rw [orphan] at asked
  exact asked.bind (settles_fail _)

theorem parentClass_found {s : Scope} {parent : String}
    (found : w.parentOf? s.declaringClass = some parent) :
    ∃ name, s.parentClass.Settles w (.ok name) := by
  have asked := settles_ofWorld (w := w) (·.parentOf? s.declaringClass)
  have known := settles_parentExists (w := w) parent
  rw [found] at asked
  cases registered : (w.find? parent).isSome with
  | true =>
    rw [registered] at known
    exact ⟨parent, asked.bind (known.bind (settles_pure _))⟩
  | false =>
    rw [registered] at known
    exact ⟨_, asked.bind (known.bind (settles_pure _))⟩

theorem parentClass_steady (s : Scope) : s.parentClass.Steady w := by
  cases found : w.parentOf? s.declaringClass with
  | none => exact ⟨_, parentClass_orphan found⟩
  | some parent =>
    obtain ⟨name, settles⟩ := parentClass_found found
    exact ⟨_, settles⟩

theorem requireScope_steady (word : String) (scope : Option Scope) :
    (requireScope word scope).Steady w := by
  cases scope with
  | none => exact steady_fail _
  | some s => exact steady_pure s

theorem scopeClass?_steady {word : String} {classOf : Scope → Query String}
    (means : scopeClass? word = some classOf) (s : Scope) : (classOf s).Steady w := by
  unfold scopeClass? at means
  split at means
  · cases means
    exact steady_pure _
  · cases means
    exact steady_pure _
  · cases means
    exact parentClass_steady s
  · cases means

theorem classOrTemplate_steady (scope : Option Scope) (name : String) :
    (classOrTemplate scope name).Steady w := by
  refine Steady.bind ⟨_, settles_classExists _⟩ fun registered _ => ?_
  split
  · exact steady_classify _
  · split
    · exact steady_pure _
    · exact steady_fail _

theorem plainName_steady (scope : Option Scope) (name : String) : (plainName scope name).Steady w := by
  unfold plainName
  split
  next t _ => exact steady_pure t
  next =>
    split
    next classOf means =>
      refine (requireScope_steady name scope).bind fun s _ => ?_
      exact (scopeClass?_steady means s).bind fun className _ => steady_pure _
    next =>
      split
      next r _ => exact steady_ofBuilt _
      next => exact classOrTemplate_steady scope name

theorem promote_steady (t : Ty) : (promote t).Steady w := by
  refine (steady_ofWorld _).bind fun isCollection _ => ?_
  split
  · exact steady_ofBuilt _
  · exact steady_pure t

theorem resolveName_steady (scope : Option Scope) (name : String) : (resolveName scope name).Steady w :=
  (plainName_steady scope name).bind fun t _ => promote_steady t

theorem constantType_steady (value : Const) : (constantType value).Steady w := by
  cases value with
  | int _ | float _ | quoted _ | array _ => exact steady_pure _
  | name _ | fetch _ _ => exact steady_fail _

/-! ### Arguments -/

theorem applyPlain_steady (t : Ty) (vars : List Ty) : (applyPlain t vars).Steady w := by
  refine (steady_ofWorld _).bind fun isCollection _ => ?_
  split
  · exact steady_ofBuilt _
  · split
    · split
      · exact steady_ofBuilt _
      · exact steady_pure _
    · exact steady_ofBuilt _

theorem applyArgs_steady (t : Ty) (vars : List Ty) : (applyArgs t vars).Steady w := by
  unfold applyArgs
  split
  · exact steady_ofBuilt _
  · exact steady_ofBuilt _
  · exact applyPlain_steady _ _
  · exact applyPlain_steady _ _

/-! ### Type expressions -/

mutual

theorem resolveNode_steady (scope : Option Scope) (node : Node) : (resolveNode scope node).Steady w := by
  cases node with
  | callable _ _ _ | arrayShape _ _ _ _ | objectShape _ => exact steady_pure _
  | array item => exact (resolveNode_steady scope item).bind fun t _ => steady_pure _
  | this => exact (requireScope_steady _ scope).bind fun s _ => steady_pure _
  | const value => exact constantType_steady value
  | name text => exact resolveName_steady scope text
  | nullable inner => exact (resolveNode_steady scope inner).bind fun t _ => steady_ofBuilt _
  | generic base args =>
    simp only [resolveNode]
    split
    next => exact steady_ofBuilt _
    next =>
      refine (resolveNode_steady scope base).bind fun t _ => ?_
      split
      · exact steady_pure t
      · exact (resolveAll_steady scope args).bind fun vars _ => applyArgs_steady t vars
  | union members =>
    refine (resolveUntilMixed_steady scope members).bind fun found _ => ?_
    cases found with
    | none => exact steady_pure _
    | some ts => exact steady_ofBuilt _
  | intersection members => exact (resolveAll_steady scope members).bind fun ts _ => steady_ofBuilt _

theorem resolveAll_steady (scope : Option Scope) (nodes : List Node) :
    (resolveAll scope nodes).Steady w := by
  cases nodes with
  | nil => exact steady_pure _
  | cons node rest =>
    refine (resolveNode_steady scope node).bind fun t _ => ?_
    exact (resolveAll_steady scope rest).bind fun ts _ => steady_pure _

theorem resolveUntilMixed_steady (scope : Option Scope) (nodes : List Node) :
    (resolveUntilMixed scope nodes).Steady w := by
  cases nodes with
  | nil => exact steady_pure _
  | cons node rest =>
    refine (resolveNode_steady scope node).bind fun t _ => ?_
    split
    · exact steady_pure _
    · exact (resolveUntilMixed_steady scope rest).bind fun found _ => steady_pure _

end

theorem resolveHint_steady (scope : Option Scope) (text : String) : (resolveHint scope text).Steady w := by
  unfold resolveHint
  split
  next => exact steady_fail _
  next node _ => exact (resolveNode_steady scope node).explain _

/-! ### Native types -/

theorem allowNull_steady (type : NamedType) (t : Ty) : (allowNull type t).Steady w := by
  unfold allowNull
  split
  · exact steady_ofBuilt _
  · exact steady_pure t

theorem namedClass_steady (scope : Option Scope) (name : String) : (namedClass scope name).Steady w := by
  unfold namedClass
  split
  next classOf means =>
    exact (requireScope_steady _ scope).bind fun s _ => scopeClass?_steady means s
  next => exact steady_pure name

theorem resolveNamed_steady (scope : Option Scope) (type : NamedType) :
    (resolveNamed scope type).Steady w := by
  unfold resolveNamed
  split
  · exact allowNull_steady type _
  split
  · exact allowNull_steady type _
  split
  · exact steady_pure _
  split
  · exact steady_pure _
  split
  · split
    next kind _ => exact allowNull_steady type _
    next => exact steady_fail _
  · refine (namedClass_steady scope _).bind fun className _ => ?_
    exact (steady_classify _).bind fun t _ => allowNull_steady type t

mutual

theorem resolveNative_steady (scope : Option Scope) (type : NativeType) :
    (resolveNative scope type).Steady w := by
  cases type with
  | named type => exact resolveNamed_steady scope type
  | union members => exact (resolveNatives_steady scope members).bind fun ts _ => steady_ofBuilt _
  | intersection members => exact (resolveNatives_steady scope members).bind fun ts _ => steady_ofBuilt _
  | other kind => exact steady_fail _

theorem resolveNatives_steady (scope : Option Scope) (types : List NativeType) :
    (resolveNatives scope types).Steady w := by
  cases types with
  | nil => exact steady_pure _
  | cons type rest =>
    refine (resolveNative_steady scope type).bind fun t _ => ?_
    exact (resolveNatives_steady scope rest).bind fun ts _ => steady_pure _

end

theorem resolveMember_steady (scope : Option Scope) (type : Option NativeType) (path : MemberPath) :
    (resolveMember scope type path).Steady w := by
  refine Steady.explain ?_ _
  cases type with
  | none => exact steady_fail _
  | some type => exact resolveNative_steady scope type

end TypeHints.Resolve
