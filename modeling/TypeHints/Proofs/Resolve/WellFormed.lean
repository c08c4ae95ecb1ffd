import TypeHints.Proofs.Keyed
import TypeHints.Proofs.Resolve.Answers
import TypeHints.Proofs.Ty.WellFormed
import TypeHints.Resolve.Pipeline

/-!
Whatever a pipeline resolves, in any world and with anything remembered, is well-formed if the
bounds of the templates in scope are; so are the bounds of every scope that is made of a
declaration.
-/
namespace TypeHints

/-- The bounds of all templates are well-formed. -/
def Scope.IsBounded (s : Scope) : Prop := s.templates.Holds Ty.WellFormed

namespace Resolve
open Ty Hint

variable {w : World} {scope : Option Scope}

/-! ### Names -/

theorem classify_wellFormed {name : String} {t : Ty} (h : w.classify name = .ok t) :
    WellFormed t := by
  simp only [World.classify] at h
  split at h
  next =>
    refine enumeration_wellFormed ?_ h
    intro b given
    obtain ⟨kind, -, rfl⟩ := Option.map_eq_some_iff.mp given
    exact ofKind_wellFormed kind
  next =>
    cases h
    exact .object

theorem keywordType_wellFormed {name : String} {t : Ty} (keyword : KeywordType name t) :
    WellFormed t := by
  cases keyword with
  | builtin kind => exact ofKind_wellFormed kind
  | plain takes => exact plain_wellFormed takes
  | list => exact listOf_wellFormed mixed_wellFormed
  | union kinds several distinct joinable => exact union_ofKind_wellFormed kinds several distinct joinable

theorem plainName_gives (bounded : ∀ s ∈ scope, s.IsBounded) (name : String) :
    (plainName scope name).Gives w WellFormed := by
  refine (plainName_means w scope name).mono fun t meaning => ?_
  cases meaning with
  | word keyword => exact keywordType_wellFormed keyword
  | scopeClass => exact .object
  | refined built => exact refined_wellFormed built
  | classified classified => exact classify_wellFormed classified
  | template given found => exact .template ((bounded _ given).find? found)

theorem promote_gives {t : Ty} (known : WellFormed t) : (promote t).Gives w WellFormed := by
  refine (Query.gives_any _).bind fun isCollection _ => ?_
  split
  · exact Query.gives_ofBuilt fun r => collectionWith_wellFormed known nofun nofun
  · exact Query.gives_pure known

theorem resolveName_gives (bounded : ∀ s ∈ scope, s.IsBounded) (name : String) :
    (resolveName scope name).Gives w WellFormed :=
  (plainName_gives bounded name).bind fun _ known => promote_gives known

theorem constantType_gives (value : Const) : (constantType value).Gives w WellFormed := by
  cases value with
  | int _ | float _ | quoted _ => exact Query.gives_pure (ofKind_wellFormed _)
  | array _ => exact Query.gives_pure (plain_wellFormed rfl)
  | name _ | fetch _ _ => exact Query.gives_fail _

/-! ### Arguments -/

theorem applyPlain_gives {t : Ty} {vars : List Ty} (known : WellFormed t)
    (knownVars : ∀ v ∈ vars, WellFormed v) : (applyPlain t vars).Gives w WellFormed := by
  refine applyPlain_gives_of ?_ (fun _ => known) fun _ r => genericOf_wellFormed known knownVars
  intro _ given r _ among
  exact Factory.collectionWith_wellFormed known fun a member => knownVars a (among a member)

theorem applyArgs_gives {t : Ty} {vars : List Ty} (known : WellFormed t)
    (knownVars : ∀ v ∈ vars, WellFormed v) : (applyArgs t vars).Gives w WellFormed := by
  unfold applyArgs
  split
  next wrapped isList value =>
    refine Query.gives_ofBuilt fun r built => ?_
    cases known with
    | collection known _ _ =>
      cases made : wrapped.bare.genericOf [wrapped.keyType, value] with
      | error e =>
        rw [made] at built
        cases built
      | ok generic =>
        rw [made] at built
        refine collectionOf_wellFormed (genericOf_wellFormed (bare_wellFormed known) ?_ made) built
        intro a member
        rcases List.mem_cons.mp member with rfl | member
        · exact keyType_wellFormed known
        · exact knownVars a member
  next wrapped isList key value =>
    refine Query.gives_ofBuilt fun r => ?_
    cases known with
    | collection known _ _ =>
      refine collectionWith_wellFormed (bare_wellFormed known) ?_ ?_
      · rintro _ ⟨⟩
        exact knownVars value (by simp)
      · rintro _ ⟨⟩
        exact knownVars key (by simp)
  next =>
    cases known with
    | collection known _ _ => exact applyPlain_gives (bare_wellFormed known) knownVars
  next => exact applyPlain_gives known knownVars

/-! ### Type expressions -/

theorem wellFormed_inductive (bounded : ∀ s ∈ scope, s.IsBounded) :
    IsInductive w scope fun _ => WellFormed where
  callable _ _ _ := ofKind_wellFormed .callable
  array _ _ := listOf_wellFormed
  arrayShape _ _ _ _ := plain_wellFormed rfl
  objectShape _ := ofKind_wellFormed .object
  this _ _ := .object
  const := constantType_gives
  name := resolveName_gives bounded
  nullable _ _ _ := orNull_wellFormed
  range _ _ _ _ _ := refined_wellFormed
  bare _ _ _ _ known _ := known
  applied _ _ _ _ _ known all :=
    applyArgs_gives known (forall_mem_of_forall₂ all fun _ _ _ holds => holds.2)
  union _ _ _ all := unionOf_wellFormed (forall_mem_of_forall₂ all fun _ _ _ holds => holds)
  mixed _ := mixed_wellFormed
  intersection _ _ _ all :=
    intersectionOf_wellFormed (forall_mem_of_forall₂ all fun _ _ _ holds => holds)

theorem resolveHint_gives (bounded : ∀ s ∈ scope, s.IsBounded) (text : String) :
    (resolveHint scope text).Gives w WellFormed :=
  ((wellFormed_inductive bounded).gives_hint text).mono fun _ ⟨_, _, known⟩ => known

theorem wellFormed_native : IsNative w WellFormed where
  builtin := ofKind_wellFormed
  array := plain_wellFormed rfl
  iterable := plain_wellFormed rfl
  classes _ _ := classify_wellFormed
  union _ _ := unionOf_wellFormed
  intersection _ _ := intersectionOf_wellFormed
  orNull _ _ := orNull_wellFormed

end Resolve

/-! ### Scopes of declarations -/

namespace Scope
open Ty

variable {w : World}

theorem templateBound_gives {scope : Scope} (bounded : scope.IsBounded) (bound : Option String) :
    (templateBound scope bound).Gives w WellFormed := by
  cases bound with
  | none => exact Query.gives_pure mixed_wellFormed
  | some text =>
    have hint : (Resolve.resolveHint (some scope) text).Gives w WellFormed := by
      refine Resolve.resolveHint_gives ?_ text
      rintro s ⟨⟩
      exact bounded
    refine hint.attempt.bind fun answer known => ?_
    split
    next t => exact Query.gives_pure (known t rfl)
    next =>
      split
      · exact Query.gives_pure mixed_wellFormed
      · exact Query.gives_fail _

theorem collectTemplates_gives {scope : Scope} (bounded : scope.IsBounded) (tags : List TemplateTag)
    {found : Keyed String Ty} (known : found.Holds WellFormed) :
    (collectTemplates scope tags found).Gives w (Keyed.Holds WellFormed) := by
  induction tags generalizing found with
  | nil => exact Query.gives_pure known
  | cons tag rest ih =>
    exact (templateBound_gives bounded tag.bound).bind fun bound knownBound => ih (known.put knownBound)

theorem docTemplates_gives {scope : Scope} (bounded : scope.IsBounded) (templated : Bool)
    (docComment : Option String) :
    (docTemplates templated scope docComment).Gives w (Keyed.Holds WellFormed) := by
  cases docComment with
  | none => exact Query.gives_pure (Keyed.holds_empty _)
  | some comment =>
    simp only [docTemplates]
    split
    · exact collectTemplates_gives bounded _ (Keyed.holds_empty _)
    · exact Query.gives_pure (Keyed.holds_empty _)

theorem bareOf_gives (c : ClassDecl) (called declaring : String) :
    (bareOf c called declaring).Gives w IsBounded :=
  (Query.gives_any _).bind fun _ _ => Query.gives_pure (Keyed.holds_empty _)

theorem ofClassName_gives (templated : Bool) (called : String) (declaring : Option String) :
    (ofClassName templated called declaring).Gives w IsBounded := by
  refine (Query.gives_any _).bind fun c _ => ?_
  refine (bareOf_gives c _ _).bind fun scope bounded => ?_
  exact (docTemplates_gives bounded templated _).bind fun templates known => Query.gives_pure known

theorem ofClass_gives (templated : Bool) (c : ClassDecl) :
    (ofClass templated c).Gives w IsBounded := by
  refine (bareOf_gives c _ _).bind fun scope bounded => ?_
  exact (docTemplates_gives bounded templated _).bind fun templates known => Query.gives_pure known

theorem ofProperty_gives (templated : Bool) (p : PropertyDecl) :
    (ofProperty templated p).Gives w IsBounded :=
  (Query.gives_any _).bind fun c _ => ofClass_gives templated c

theorem ofFunction_gives (templated : Bool) (f : FunctionDecl) :
    (ofFunction templated f).Gives w fun scope => ∀ s ∈ scope, s.IsBounded := by
  unfold ofFunction
  split
  next => exact Query.gives_pure (by simp)
  next declaring given =>
    refine (Query.gives_any _).bind fun c _ => ?_
    refine (bareOf_gives c _ _).bind fun scope bounded => ?_
    refine (docTemplates_gives bounded templated _).bind fun own knownOwn => ?_
    refine (docTemplates_gives bounded templated _).bind fun inherited known => Query.gives_pure ?_
    rintro s ⟨⟩
    exact knownOwn.putMissing known

end Scope

/-! ### Pipelines -/

namespace Resolver
open Resolve Ty

variable {w : World}

theorem scopeOr_gives {make : Query (Option Scope)} {scope : Option Scope}
    (made : make.Gives w fun scope => ∀ s ∈ scope, s.IsBounded)
    (bounded : ∀ s ∈ scope, s.IsBounded) :
    (scopeOr make scope).Gives w fun scope => ∀ s ∈ scope, s.IsBounded := by
  cases scope with
  | none => exact made
  | some s => exact Query.gives_pure bounded

theorem propertyScope_gives (templated : Bool) (p : PropertyDecl) :
    (some <$> Scope.ofProperty templated p).Gives w fun scope => ∀ s ∈ scope, s.IsBounded := by
  refine ((Scope.ofProperty_gives templated p).mono ?_).map
  intro scope bounded s same
  cases same
  exact bounded

theorem memberScope_gives (subject : Subject) :
    (memberScope subject).Gives w fun scope => ∀ s ∈ scope, s.IsBounded := by
  cases subject with
  | property p => exact propertyScope_gives true p
  | parameter f _ => exact Scope.ofFunction_gives true f
  | function f => exact Scope.ofFunction_gives true f
  | text _ | nativeType _ => exact Query.gives_pure nofun

theorem resolve_gives {scope : Option Scope} (bounded : ∀ s ∈ scope, s.IsBounded)
    (resolver : Resolver) (subject : Subject) :
    (resolver.resolve subject scope).Gives w WellFormed := by
  refine gives_of_hints wellFormed_native (fun text _ => ?_) resolver
  exact (scopeOr_gives (memberScope_gives subject) bounded).bind fun scope bounded =>
    resolveHint_gives bounded text

end Resolver

/-- No factory and no pipeline makes an ill-formed type of well-formed ones, and the scopes of
declarations have well-formed bounds. -/
theorem wellFormed_preserved :
    (∀ (call : Factory) (t : Ty), (∀ a ∈ call.args, a.WellFormed) → call.build = .ok t →
      t.WellFormed) ∧
    (∀ (p : Pipeline) (subject : Subject) (scope : Option Scope) (w : World) (m : Memory) (t : Ty),
      (∀ s ∈ scope, s.IsBounded) → (p.resolve subject scope w m).1 = .ok t → t.WellFormed) ∧
    ∀ (templated : Bool) (w : World),
      (∀ called declaring, (Scope.ofClassName templated called declaring).Gives w Scope.IsBounded) ∧
      (∀ c, (Scope.ofClass templated c).Gives w Scope.IsBounded) ∧
      (∀ p, (Scope.ofProperty templated p).Gives w Scope.IsBounded) ∧
      ∀ f, (Scope.ofFunction templated f).Gives w fun scope => ∀ s ∈ scope, s.IsBounded := by
  refine ⟨?_, ?_, ?_⟩
  · intro call t known built
    exact Factory.build_wellFormed known built
  · intro p subject scope w m t bounded answer
    exact Resolver.resolve_gives bounded p.asResolver subject m t answer
  · intro templated w
    exact ⟨Scope.ofClassName_gives templated, Scope.ofClass_gives templated,
      Scope.ofProperty_gives templated, Scope.ofFunction_gives templated⟩

theorem wellFormed_preserved_nullable :
    (Ty.nullable Ty.int).WellFormed ∧ (Ty.nullable (Ty.ofKind .float)).WellFormed := by
  refine ⟨wellFormed_preserved.1 (.orNull (.union [Ty.int, Ty.null])) (.nullable Ty.int) ?_ rfl, ?_⟩
  · intro a given
    obtain rfl := List.mem_singleton.mp given
    exact Ty.union_ofKind_wellFormed [.int, .null] (by decide) (by decide) (by decide)
  · let scope : Scope :=
      { called := "A", declaring := "A", templates := Keyed.empty.put "T" Ty.int }
    refine wellFormed_preserved.2.1 Pipeline.documented (.nativeType (.named ⟨"float", true, true⟩))
      (some scope) default {} (.nullable (.ofKind .float)) ?_ rfl
    rintro s ⟨⟩
    exact (Keyed.holds_empty _).put Ty.int_wellFormed

end TypeHints
