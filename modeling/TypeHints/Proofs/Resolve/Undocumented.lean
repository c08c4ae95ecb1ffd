import TypeHints.Proofs.Resolve.ScopeWord
import TypeHints.Proofs.Scope.Templates
import TypeHints.Proofs.World.Aliases
import TypeHints.Resolve.Pipeline

/-!
Such a member has its native type in either pipeline, since no native type looks at templates. The
one difference is that the documented pipeline reads the templates around the member when it makes
the scope, and fails if a bound does.
-/
namespace TypeHints

namespace Resolve
open Query

variable {w : World}

/-! ### Native types and templates -/

theorem namedClass_templates (s : Scope) (templates : Keyed String Ty) (name : String) :
    namedClass (some { s with templates }) name = namedClass (some s) name := by
  unfold namedClass
  cases means : scopeClass? (ClassName.fold name) with
  | none => rfl
  | some classOf =>
    unfold scopeClass? at means
    split at means <;> cases means <;> rfl

theorem resolveNamed_templates (s : Scope) (templates : Keyed String Ty) (type : NamedType) :
    resolveNamed (some { s with templates }) type = resolveNamed (some s) type := by
  unfold resolveNamed
  rw [namedClass_templates]

mutual

theorem resolveNative_templates (s : Scope) (templates : Keyed String Ty) (type : NativeType) :
    resolveNative (some { s with templates }) type = resolveNative (some s) type := by
  cases type with
  | named type => exact resolveNamed_templates s templates type
  | union members => rw [resolveNative, resolveNative, resolveNatives_templates s templates members]
  | intersection members =>
    rw [resolveNative, resolveNative, resolveNatives_templates s templates members]
  | other kind => rfl

theorem resolveNatives_templates (s : Scope) (templates : Keyed String Ty) (types : List NativeType) :
    resolveNatives (some { s with templates }) types = resolveNatives (some s) types := by
  cases types with
  | nil => rfl
  | cons type rest =>
    rw [resolveNatives, resolveNatives, resolveNative_templates s templates type,
      resolveNatives_templates s templates rest]

end

theorem resolveMember_templates (s : Scope) (templates : Keyed String Ty) (type : Option NativeType)
    (path : MemberPath) :
    resolveMember (some { s with templates }) type path = resolveMember (some s) type path := by
  cases type with
  | none => rfl
  | some type => simp only [resolveMember, resolveNative_templates]

end Resolve

/-! ### Members -/

/-- What has a native type and a doc comment. -/
inductive Member where
  | property (p : PropertyDecl)
  | parameter (f : FunctionDecl) (p : ParameterDecl)
  /-- A function, for its return type. -/
  | result (f : FunctionDecl)

namespace Member
open Resolve Resolver Query

variable {w : World}

def subject : Member → Subject
  | property p => .property p
  | parameter f p => .parameter f p
  | result f => .function f

def docComment : Member → Option String
  | property p => p.docComment
  | parameter f _ => f.docComment
  | result f => f.docComment

def declaringClass? : Member → Option String
  | property p => some p.declaringClass
  | parameter f _ => f.declaringClass
  | result f => f.declaringClass

def type? : Member → Option NativeType
  | property p => p.type
  | parameter _ p => p.type
  | result f => f.returnType

def path (scope : Option Scope) : Member → MemberPath
  | property p => .property p.declaringClass p.name
  | parameter f p => .parameter (scope.map (·.called)) f.name p.name
  | result f => .result (scope.map (·.called)) f.name

/-- The scope that a pipeline makes for a member. -/
def scopeOf (templated : Bool) : Member → Query (Option Scope)
  | property p => some <$> Scope.ofProperty templated p
  | parameter f _ => Scope.ofFunction templated f
  | result f => Scope.ofFunction templated f

/-- The native type of a member, in a scope that is given or made. -/
def declared (templated : Bool) (member : Member) (scope : Option Scope) : Query Ty := do
  let scope ← scopeOr (member.scopeOf templated) scope
  resolveMember scope member.type? (member.path scope)

/-- Nothing in the doc comment of a member gives the member a type. -/
def IsUndocumented (member : Member) : Prop :=
  ∀ comment, member.docComment = some comment →
    documentedHint? (DocBlock.ofComment comment) member.subject = none

theorem declaredOnly_resolve (member : Member) (scope : Option Scope) :
    Pipeline.declaredOnly.resolve member.subject scope = member.declared false scope := by
  cases member <;> rfl

theorem resolve_of_silent {member : Member} (silent : member.IsUndocumented) (inner : Resolver)
    (scope : Option Scope) :
    (Resolver.documented inner).resolve member.subject scope = inner.resolve member.subject scope := by
  have known : docCommentOf? member.subject = some member.docComment := by
    cases member <;> rfl
  rw [Resolver.resolve, known]
  cases given : member.docComment with
  | none => rfl
  | some comment => simp only [silent comment given]

theorem documented_resolve {member : Member} (silent : member.IsUndocumented) (scope : Option Scope) :
    Pipeline.documented.resolve member.subject scope = member.declared true scope := by
  cases member with
  | property p => exact resolve_of_silent silent (.property true) scope
  | parameter f p => exact resolve_of_silent silent (.parameter true) scope
  | result f => exact resolve_of_silent silent (.result true) scope

/-! ### Scopes of members -/

/-- The doc comments of a member and its class whose templates are in scope for the member. -/
def scopeComments (c : ClassDecl) : Member → List (Option String)
  | property _ => [c.docComment]
  | parameter f _ => [f.docComment, c.docComment]
  | result f => [f.docComment, c.docComment]

/-- A template that is in scope for a member has a bound that fails. -/
def TemplatesFail (w : World) (member : Member) (f : Failure) : Prop :=
  ∃ name c scope, member.declaringClass? = some name ∧ w.find? name = some c ∧
    (Scope.bareOf c (ClassName.short c.name) (ClassName.short c.name)).Settles w (.ok scope) ∧
    ∃ comment ∈ member.scopeComments c, Scope.TemplatesFail w scope comment f

def templatesOf (templated : Bool) (c : ClassDecl) (scope : Scope) : Member → Query (Keyed String Ty)
  | property _ => Scope.docTemplates templated scope c.docComment
  | parameter f _ | result f => do
    let own ← Scope.docTemplates templated scope f.docComment
    let inherited ← Scope.docTemplates templated scope c.docComment
    return own.putMissing inherited

def scopeIn (templated : Bool) (member : Member) (c : ClassDecl) : Query (Option Scope) := do
  let scope ← Scope.bareOf c (ClassName.short c.name) (ClassName.short c.name)
  let templates ← member.templatesOf templated c scope
  return some { scope with templates }

theorem scopeOf_eq {member : Member} {name : String} (given : member.declaringClass? = some name)
    (templated : Bool) :
    member.scopeOf templated = Query.theClass name >>= member.scopeIn templated := by
  cases member with
  | property p =>
    cases given
    simp only [scopeOf, Scope.ofProperty, Scope.ofClass, map_bind, map_pure]
    rfl
  | parameter f p | result f =>
    have declared : f.declaringClass = some name := given
    simp only [scopeOf, Scope.ofFunction, declared]
    refine bind_congr fun c => ?_
    simp only [scopeIn, templatesOf, bind_assoc, pure_bind]

theorem templatesOf_cases (member : Member) (c : ClassDecl) (scope : Scope) :
    ((∃ templates, (member.templatesOf true c scope).Settles w (.ok templates)) ∧
      ∀ comment ∈ member.scopeComments c, ∀ f, ¬ Scope.TemplatesFail w scope comment f) ∨
    ∃ f, (member.templatesOf true c scope).Settles w (.error f) ∧
      ∃ comment ∈ member.scopeComments c, Scope.TemplatesFail w scope comment f := by
  have inherits := Scope.docTemplates_cases (w := w) scope c.docComment
  cases member with
  | property p =>
    rcases inherits with ⟨collects, sound⟩ | ⟨f, settles, fails⟩
    · exact .inl ⟨collects, List.forall_mem_singleton.mpr sound⟩
    · exact .inr ⟨f, settles, _, List.mem_singleton_self _, fails⟩
  | parameter f p | result f =>
    rcases Scope.docTemplates_cases (w := w) scope f.docComment with
      ⟨⟨own, collects⟩, sound⟩ | ⟨g, settles, fails⟩
    · rcases inherits with ⟨⟨inherited, others⟩, sounds⟩ | ⟨g, settles, fails⟩
      · refine .inl ⟨⟨_, collects.bind (others.bind (settles_pure _))⟩, ?_⟩
        exact List.forall_mem_cons.mpr ⟨sound, List.forall_mem_singleton.mpr sounds⟩
      · exact .inr ⟨g, collects.bind settles.bind_error, _, List.mem_cons_of_mem _ (List.mem_singleton_self _),
          fails⟩
    · exact .inr ⟨g, settles.bind_error, _, List.mem_cons_self, fails⟩

theorem templatesOf_plain (member : Member) (c : ClassDecl) (scope : Scope) :
    (member.templatesOf false c scope).Settles w (.ok Keyed.empty) := by
  cases member <;> simp only [templatesOf, Scope.docTemplates_plain] <;> exact settles_pure _

theorem templatesFail_iff {member : Member} {name : String} {c : ClassDecl} {scope : Scope} {f : Failure}
    (given : member.declaringClass? = some name) (found : w.find? name = some c)
    (bare : (Scope.bareOf c (ClassName.short c.name) (ClassName.short c.name)).Settles w (.ok scope)) :
    member.TemplatesFail w f ↔
      ∃ comment ∈ member.scopeComments c, Scope.TemplatesFail w scope comment f := by
  constructor
  · rintro ⟨name', c', scope', given', found', bare', fails⟩
    obtain rfl : name = name' := by simpa [given] using given'
    obtain rfl : c = c' := by simpa [found] using found'
    cases bare.unique bare'
    exact fails
  · intro fails
    exact ⟨name, c, scope, given, found, bare, fails⟩

/-- The two ways to make a scope for a member have the same outcome, or else make the same scope but
for its templates, unless one of these fails. -/
theorem scopeOf_cases (member : Member) :
    ((∃ outcome, ∀ templated, (member.scopeOf templated).Settles w outcome) ∧
      ∀ f, ¬ member.TemplatesFail w f) ∨
    ∃ s, (member.scopeOf false).Settles w (.ok (some s)) ∧
      (((∃ templates, (member.scopeOf true).Settles w (.ok (some { s with templates }))) ∧
          ∀ f, ¬ member.TemplatesFail w f) ∨
        ∃ f, (member.scopeOf true).Settles w (.error f) ∧ member.TemplatesFail w f) := by
  cases given : member.declaringClass? with
  | none =>
    refine .inl ⟨⟨.ok none, ?_⟩, ?_⟩
    · intro templated
      cases member with
      | property p => cases given
      | parameter f p | result f =>
        have outside : f.declaringClass = none := given
        simp only [scopeOf, Scope.ofFunction, outside]
        exact settles_pure none
    · rintro f ⟨name, c, scope, declares, -⟩
      rw [given] at declares
      cases declares
  | some name =>
    simp only [scopeOf_eq given]
    have asked := settles_theClass (w := w) name
    cases found : w.find? name with
    | none =>
      rw [found] at asked
      refine .inl ⟨⟨_, fun templated => asked.bind_error⟩, ?_⟩
      rintro f ⟨other, c, scope, declares, known, -⟩
      obtain rfl : name = other := by simpa [given] using declares
      rw [found] at known
      cases known
    | some c =>
      rw [found] at asked
      obtain ⟨outcome, bare⟩ := Scope.bareOf_steady (w := w) c (ClassName.short c.name) (ClassName.short c.name)
      cases outcome with
      | error e =>
        refine .inl ⟨⟨_, fun templated => asked.bind bare.bind_error⟩, ?_⟩
        rintro f ⟨other, d, scope, declares, known, made, -⟩
        obtain rfl : name = other := by simpa [given] using declares
        obtain rfl : c = d := by simpa [found] using known
        cases bare.unique made
      | ok scope =>
        -- Only here are templates read, all of them in this scope, which has none yet.
        refine .inr ⟨{ scope with templates := Keyed.empty }, asked.bind (bare.bind ?_), ?_⟩
        · exact (member.templatesOf_plain c scope).bind (settles_pure _)
        simp only [templatesFail_iff given found bare]
        rcases templatesOf_cases (w := w) member c scope with
          ⟨⟨templates, collects⟩, sound⟩ | ⟨f, settles, fails⟩
        · refine .inl ⟨⟨templates, asked.bind (bare.bind (collects.bind (settles_pure _)))⟩, ?_⟩
          rintro f ⟨comment, member, fails⟩
          exact sound comment member f fails
        · exact .inr ⟨f, asked.bind (bare.bind settles.bind_error), fails⟩

/-! ### Types of members -/

theorem resolveMember_path (s : Scope) (templates : Keyed String Ty) (member : Member) :
    resolveMember (some { s with templates }) member.type?
        (member.path (some { s with templates })) =
      resolveMember (some s) member.type? (member.path (some s)) := by
  have path : member.path (some { s with templates }) = member.path (some s) := by
    cases member <;> rfl
  rw [path, resolveMember_templates]

theorem declared_cases (member : Member) :
    ((∃ outcome, ∀ templated, (member.declared templated none).Settles w outcome) ∧
      ∀ f, ¬ member.TemplatesFail w f) ∨
    ∃ f, (member.declared true none).Settles w (.error f) ∧ member.TemplatesFail w f := by
  rcases scopeOf_cases (w := w) member with
    ⟨⟨outcome, made⟩, sound⟩ | ⟨s, plain, ⟨⟨templates, made⟩, sound⟩ | ⟨f, fails⟩⟩
  · refine .inl ⟨?_, sound⟩
    cases outcome with
    | error f => exact ⟨_, fun templated => (made templated).bind_error⟩
    | ok scope =>
      obtain ⟨outcome, settles⟩ := resolveMember_steady (w := w) scope member.type? (member.path scope)
      exact ⟨outcome, fun templated => (made templated).bind settles⟩
  · obtain ⟨outcome, settles⟩ :=
      resolveMember_steady (w := w) (some s) member.type? (member.path (some s))
    refine .inl ⟨⟨outcome, ?_⟩, sound⟩
    intro templated
    cases templated with
    | false => exact plain.bind settles
    | true =>
      rw [← resolveMember_path s templates] at settles
      exact made.bind settles
  · exact .inr ⟨f, fails.1.bind_error, fails.2⟩

/-- In a scope that is given, and in one that is made around no template with a failing bound, a
member that its doc comment gives no type has the same outcome in both pipelines. Otherwise the
documented pipeline fails, and with the failure of such a bound. -/
theorem undocumented_agrees {member : Member} (silent : member.IsUndocumented) {m m' : Memory}
    (faithful : m.IsFaithful w) (faithful' : m'.IsFaithful w) :
    (∀ s, (Pipeline.documented.resolve member.subject (some s) w m).1 =
      (Pipeline.declaredOnly.resolve member.subject (some s) w m').1) ∧
    ((∀ f, ¬ member.TemplatesFail w f) →
      (Pipeline.documented.resolve member.subject none w m).1 =
        (Pipeline.declaredOnly.resolve member.subject none w m').1) ∧
    ∀ f, member.TemplatesFail w f → ∃ g, member.TemplatesFail w g ∧
      (Pipeline.documented.resolve member.subject none w m).1 = .error g := by
  simp only [documented_resolve silent, declaredOnly_resolve]
  refine ⟨?_, ?_⟩
  · intro s
    obtain ⟨outcome, settles⟩ :=
      resolveMember_steady (w := w) (some s) member.type? (member.path (some s))
    exact (settles m faithful).1.trans (settles m' faithful').1.symm
  rcases declared_cases (w := w) member with ⟨⟨outcome, settles⟩, sound⟩ | ⟨f, settles, fails⟩
  · refine ⟨?_, ?_⟩
    · intro _
      exact (settles true m faithful).1.trans (settles false m' faithful').1.symm
    · intro f fails
      exact absurd fails (sound f)
  · refine ⟨?_, ?_⟩
    · intro sound
      exact absurd fails (sound f)
    · intro _ _
      exact ⟨f, fails, (settles m faithful).1⟩

/-- A property of type `int` without doc comment. -/
def count (className : String) : PropertyDecl :=
  { name := "n", declaringClass := className, type := some (.builtin "int") }

def box : ClassDecl where
  name := "Box"
  docComment := some "/** @template T of parent */"
  properties := [count "Box"]

def crate : ClassDecl where
  name := "Crate"
  docComment := some "/** @template T of int */"
  properties := [count "Crate"]

def depot : World where
  table := ClassTable.empty.insertAll [box, crate]

def counter (className : String) : Member := .property (count className)

theorem counter_undocumented (className : String) : (counter className).IsUndocumented := nofun

theorem depot_scopes :
    (Scope.bareOf box "Box" "Box").Settles depot (.ok { called := "Box", declaring := "Box" }) ∧
      (Scope.bareOf crate "Crate" "Crate").Settles depot
        (.ok { called := "Crate", declaring := "Crate" }) := by
  have readBox : (aliasesOf box).Settles depot (.ok Keyed.empty) :=
    ClassTable.settles_aliasesOf_of_traits_nil rfl
  have readCrate : (aliasesOf crate).Settles depot (.ok Keyed.empty) :=
    ClassTable.settles_aliasesOf_of_traits_nil rfl
  exact ⟨readBox.bind (settles_pure _), readCrate.bind (settles_pure _)⟩

theorem box_templates_fail : (counter "Box").TemplatesFail depot (.noParent "Box") := by
  have tags : Scope.templateTags box.docComment = [⟨"T", some "parent"⟩] := by decide +kernel
  have means : scopeClass? "parent" = some Scope.parentClass := rfl
  have orphan := parentClass_orphan (w := depot) (s := { called := "Box", declaring := "Box" }) rfl
  refine (templatesFail_iff rfl rfl depot_scopes.1).mpr ⟨_, List.mem_singleton_self _, ?_⟩
  refine ⟨⟨"T", some "parent"⟩, ?_, "parent", rfl, word_fails means orphan, rfl⟩
  rw [tags]
  exact List.mem_singleton_self _

theorem crate_templates_hold (f : Failure) : ¬ (counter "Crate").TemplatesFail depot f := by
  have tags : Scope.templateTags crate.docComment = [⟨"T", some "int"⟩] := by decide +kernel
  have declares : (counter "Crate").declaringClass? = some "Crate" := rfl
  have found : depot.find? "Crate" = some crate := rfl
  rw [templatesFail_iff declares found depot_scopes.2]
  rintro ⟨comment, only, tag, member, text, bound, fails, -⟩
  obtain rfl := List.mem_singleton.mp only
  rw [tags] at member
  obtain rfl := List.mem_singleton.mp member
  cases bound
  have given : Hint.read "int" = .ok (.name "int") := Hint.read_name (by decide)
  have named : (resolveName (some { called := "Crate", declaring := "Crate" }) "int").Settles depot
      (.ok .int) := resolveName_keyword rfl rfl
  simp only [resolveHint, given] at fails
  cases fails.unique (named.explain _)

theorem undocumented_agrees_depot :
    (Pipeline.documented.resolve (counter "Crate").subject none depot {}).1 =
        (Pipeline.declaredOnly.resolve (counter "Crate").subject none depot {}).1 ∧
      ∃ g, (Pipeline.documented.resolve (counter "Box").subject none depot {}).1 = .error g := by
  have fresh := Memory.empty_isFaithful depot
  obtain ⟨-, agrees, -⟩ := undocumented_agrees (counter_undocumented "Crate") fresh fresh
  obtain ⟨-, -, fails⟩ := undocumented_agrees (counter_undocumented "Box") fresh fresh
  obtain ⟨g, -, outcome⟩ := fails _ box_templates_fail
  exact ⟨agrees crate_templates_hold, g, outcome⟩

/-- The bound of a class template decides over a property that does not name the template. -/
theorem undocumented_differs : depot.find? "Box" = some box ∧
    box.property? "n" = some (count "Box") ∧ (counter "Box").IsUndocumented ∧
    (Pipeline.documented.resolve (counter "Box").subject none depot {}).1 ≠
      (Pipeline.declaredOnly.resolve (counter "Box").subject none depot {}).1 := by
  have silent := counter_undocumented "Box"
  refine ⟨rfl, rfl, silent, ?_⟩
  have plain : ((counter "Box").declared false none).Settles depot (.ok .int) := by
    have made : ((counter "Box").scopeOf false).Settles depot
        (.ok (some { called := "Box", declaring := "Box" })) := by
      have declares : (counter "Box").declaringClass? = some "Box" := rfl
      rw [scopeOf_eq declares]
      exact (settles_theClass "Box").bind (depot_scopes.1.bind (settles_pure _))
    exact made.bind (settles_pure _)
  rw [documented_resolve silent, declaredOnly_resolve, (plain {} (Memory.empty_isFaithful _)).1]
  rcases declared_cases (w := depot) (counter "Box") with ⟨-, sound⟩ | ⟨f, settles, -⟩
  · exact absurd box_templates_fail (sound _)
  · rw [(settles {} (Memory.empty_isFaithful _)).1]
    exact nofun

end Member

end TypeHints
