import TypeHints.Proofs.Resolve.Steady

namespace TypeHints.Scope
open Resolve Query

variable {w : World}

/-- A bound whose type fails by something else than by being unsupported. -/
def TagFails (w : World) (scope : Scope) (tag : TemplateTag) (f : Failure) : Prop :=
  ∃ text, tag.bound = some text ∧ (resolveHint (some scope) text).Settles w (.error f) ∧
    f.isUnsupported = false

def templateTags : (docComment : Option String) → List TemplateTag
  | none => []
  | some comment => (DocBlock.ofComment comment).templates

/-- Some template of the doc comment has a bound that fails. -/
def TemplatesFail (w : World) (scope : Scope) (docComment : Option String) (f : Failure) : Prop :=
  ∃ tag ∈ templateTags docComment, TagFails w scope tag f

theorem templateBound_settles {scope : Scope} {text : String} {outcome : Except Failure Ty}
    (settles : (resolveHint (some scope) text).Settles w outcome) :
    (templateBound scope (some text)).Settles w
      (match outcome with
        | .ok t => .ok t
        | .error f => if f.isUnsupported then .ok .mixed else .error f) := by
  refine settles.attempt.bind ?_
  cases outcome with
  | ok t => exact settles_pure t
  | error f =>
    dsimp only
    split
    · exact settles_pure _
    · exact settles_fail f

theorem templateBound_cases (scope : Scope) (tag : TemplateTag) :
    ((∃ t, (templateBound scope tag.bound).Settles w (.ok t)) ∧ ∀ f, ¬ TagFails w scope tag f) ∨
    ∃ f, (templateBound scope tag.bound).Settles w (.error f) ∧ TagFails w scope tag f := by
  cases given : tag.bound with
  | none =>
    refine .inl ⟨⟨_, settles_pure _⟩, ?_⟩
    rintro f ⟨text, bound, -⟩
    rw [given] at bound
    cases bound
  | some text =>
    have unique {f : Failure} (fails : TagFails w scope tag f) :
        (resolveHint (some scope) text).Settles w (.error f) ∧ f.isUnsupported = false := by
      obtain ⟨other, bound, settles⟩ := fails
      rw [given] at bound
      cases bound
      exact settles
    obtain ⟨outcome, settles⟩ := resolveHint_steady (w := w) (some scope) text
    have comes := templateBound_settles settles
    cases outcome with
    | ok t =>
      refine .inl ⟨⟨t, comes⟩, ?_⟩
      intro f fails
      cases settles.unique (unique fails).1
    | error f =>
      cases unsupported : f.isUnsupported with
      | true =>
        simp only [unsupported, if_true] at comes
        refine .inl ⟨⟨.mixed, comes⟩, ?_⟩
        intro g fails
        obtain ⟨again, supported⟩ := unique fails
        cases settles.unique again
        rw [unsupported] at supported
        cases supported
      | false =>
        simp only [unsupported, Bool.false_eq_true, if_false] at comes
        exact .inr ⟨f, comes, text, given, settles, unsupported⟩

theorem templateBound_steady (scope : Scope) (tag : TemplateTag) :
    (templateBound scope tag.bound).Steady w := by
  rcases templateBound_cases (w := w) scope tag with ⟨⟨t, settles⟩, -⟩ | ⟨f, settles, -⟩
  · exact ⟨_, settles⟩
  · exact ⟨_, settles⟩

theorem collectTemplates_cases (scope : Scope) (tags : List TemplateTag) (found : Keyed String Ty) :
    ((∃ templates, (collectTemplates scope tags found).Settles w (.ok templates)) ∧
      ∀ tag ∈ tags, ∀ f, ¬ TagFails w scope tag f) ∨
    ∃ f, (collectTemplates scope tags found).Settles w (.error f) ∧
      ∃ tag ∈ tags, TagFails w scope tag f := by
  -- What is found so far plays no part in what fails, so it is generalized.
  induction tags generalizing found with
  | nil => exact .inl ⟨⟨found, settles_pure found⟩, nofun⟩
  | cons tag rest ih =>
    rcases templateBound_cases (w := w) scope tag with ⟨⟨t, settles⟩, sound⟩ | ⟨f, settles, fails⟩
    · rcases ih (found.put tag.name t) with ⟨⟨templates, others⟩, sounds⟩ | ⟨f, others, bad, member, fails⟩
      · exact .inl ⟨⟨templates, settles.bind others⟩, List.forall_mem_cons.mpr ⟨sound, sounds⟩⟩
      · exact .inr ⟨f, settles.bind others, bad, List.mem_cons_of_mem _ member, fails⟩
    · exact .inr ⟨f, settles.bind_error, tag, List.mem_cons_self, fails⟩

theorem collectTemplates_steady (scope : Scope) (tags : List TemplateTag) (found : Keyed String Ty) :
    (collectTemplates scope tags found).Steady w := by
  rcases collectTemplates_cases (w := w) scope tags found with ⟨⟨_, settles⟩, -⟩ | ⟨_, settles, -⟩
  · exact ⟨_, settles⟩
  · exact ⟨_, settles⟩

/-- The templates of a doc comment are collected if no bound fails, and else one that does is the
failure. -/
theorem docTemplates_cases (scope : Scope) (docComment : Option String) :
    ((∃ templates, (docTemplates true scope docComment).Settles w (.ok templates)) ∧
      ∀ f, ¬ TemplatesFail w scope docComment f) ∨
    ∃ f, (docTemplates true scope docComment).Settles w (.error f) ∧
      TemplatesFail w scope docComment f := by
  cases docComment with
  | none =>
    refine .inl ⟨⟨_, settles_pure _⟩, ?_⟩
    rintro f ⟨tag, member, -⟩
    cases member
  | some comment =>
    simp only [docTemplates, if_true, TemplatesFail, templateTags]
    rcases collectTemplates_cases scope (DocBlock.ofComment comment).templates Keyed.empty with
      ⟨collects, sound⟩ | fails
    · refine .inl ⟨collects, ?_⟩
      rintro f ⟨tag, member, fails⟩
      exact sound tag member f fails
    · exact .inr fails

theorem docTemplates_plain (scope : Scope) (docComment : Option String) :
    docTemplates false scope docComment = pure Keyed.empty := by
  cases docComment <;> rfl

/-! ### Scopes of declarations -/

theorem docTemplates_steady (templated : Bool) (scope : Scope) (docComment : Option String) :
    (docTemplates templated scope docComment).Steady w := by
  cases templated with
  | false =>
    rw [docTemplates_plain]
    exact steady_pure _
  | true =>
    rcases docTemplates_cases (w := w) scope docComment with ⟨⟨_, collects⟩, -⟩ | ⟨_, fails, -⟩
    · exact ⟨_, collects⟩
    · exact ⟨_, fails⟩

theorem bareOf_steady (c : ClassDecl) (called declaring : String) :
    (bareOf c called declaring).Steady w :=
  Steady.bind ⟨_, settles_aliasesOf c⟩ fun _ _ => steady_pure _

theorem ofClass_steady (templated : Bool) (c : ClassDecl) : (ofClass templated c).Steady w := by
  refine (bareOf_steady c _ _).bind fun scope _ => ?_
  exact (docTemplates_steady templated scope c.docComment).bind fun _ _ => steady_pure _

theorem ofClassName_steady (templated : Bool) (called : String) (declaring : Option String) :
    (ofClassName templated called declaring).Steady w := by
  refine Steady.bind ⟨_, settles_theClass _⟩ fun c _ => ?_
  refine (bareOf_steady c _ _).bind fun scope _ => ?_
  exact (docTemplates_steady templated scope c.docComment).bind fun _ _ => steady_pure _

theorem ofProperty_steady (templated : Bool) (p : PropertyDecl) : (ofProperty templated p).Steady w :=
  Steady.bind ⟨_, settles_theClass _⟩ fun c _ => ofClass_steady templated c

theorem withTemplates_steady (templated : Bool) (scope : Scope) (comment comment' : Option String) :
    (do
      let own ← docTemplates templated scope comment
      let inherited ← docTemplates templated scope comment'
      return some { scope with templates := own.putMissing inherited } : Query (Option Scope)).Steady w :=
  (docTemplates_steady templated scope comment).bind fun _ _ =>
    (docTemplates_steady templated scope comment').bind fun _ _ => steady_pure _

theorem ofFunction_steady (templated : Bool) (f : FunctionDecl) : (ofFunction templated f).Steady w := by
  unfold ofFunction
  split
  next => exact steady_pure none
  next declaring _ =>
    refine Steady.bind ⟨_, settles_theClass declaring⟩ fun c _ => ?_
    refine (bareOf_steady c _ _).bind fun scope _ => ?_
    exact withTemplates_steady templated scope f.docComment c.docComment

end TypeHints.Scope
