import Mathlib.Data.List.Forall2
import TypeHints.Proofs.Hint.Completeness

/-!
A reader sees lexemes only. On tokens with the same lexemes it gives the same value and leaves the
same lexemes, or fails by the same fault; offsets alone tell the two apart. One lemma for each
reader.
-/
namespace TypeHints.Hint

variable {α β γ δ : Type} {ts us : List Token}

/-! ### Tokens and outcomes that match -/

abbrev Matches (ts us : List Token) : Prop := List.Forall₂ (fun t u => t.lexeme = u.lexeme) ts us

theorem matches_iff : Matches ts us ↔ lexemes ts = lexemes us := by
  unfold lexemes
  rw [← List.forall₂_eq_eq_eq, List.forall₂_map_left_iff, List.forall₂_map_right_iff]

theorem is_congr {t u : Token} (same : t.lexeme = u.lexeme) (m : Mark) : t.is m = u.is m := by
  unfold Token.is
  rw [same]

theorem unexpected_fault (same : Matches ts us) (wanted : Expectation) :
    (unexpected wanted ts).fault = (unexpected wanted us).fault := by
  cases same with
  | nil => rfl
  | cons first others =>
    unfold unexpected
    dsimp only
    rw [first]
    split <;> rfl

/-- Two values in the relation, or two errors of one fault. -/
inductive Agree (R : α → β → Prop) : Except ReadError α → Except ReadError β → Prop
  | ok {a : α} {b : β} (values : R a b) : Agree R (.ok a) (.ok b)
  | error {e e' : ReadError} (fault : e.fault = e'.fault) : Agree R (.error e) (.error e')

theorem Agree.bind {R : α → β → Prop} {S : γ → δ → Prop} {x : Except ReadError α}
    {y : Except ReadError β} {f : α → Except ReadError γ} {g : β → Except ReadError δ}
    (first : Agree R x y) (next : ∀ a b, R a b → Agree S (f a) (g b)) : Agree S (x >>= f) (y >>= g) := by
  cases first with
  | ok values => exact next _ _ values
  | error fault => exact .error fault

theorem Agree.map {R : α → β → Prop} {S : γ → δ → Prop} {x : Except ReadError α}
    {y : Except ReadError β} {f : α → γ} {g : β → δ} (first : Agree R x y)
    (keep : ∀ a b, R a b → S (f a) (g b)) : Agree S (x.map f) (y.map g) := by
  cases first with
  | ok values => exact .ok (keep _ _ values)
  | error fault => exact .error fault

theorem Agree.mapError_eq {x y : Except ReadError α} (h : Agree Eq x y) :
    x.mapError ReadError.fault = y.mapError ReadError.fault := by
  cases h with
  | ok values => exact congrArg Except.ok values
  | error fault => exact congrArg Except.error fault

def Read.Matches (r : Read ts α) (r' : Read us α) : Prop := r.value = r'.value ∧ Hint.Matches r.rest r'.rest

def Trail.Matches (r : Trail ts α) (r' : Trail us α) : Prop :=
  r.value = r'.value ∧ Hint.Matches r.rest r'.rest

/-- The reader sees no more of its tokens than the lexemes. -/
def Blind (read : Reader α) : Prop :=
  ∀ ⦃ts us⦄, Matches ts us → Agree Read.Matches (read ts) (read us)

def BlindTest (test : List Token → Bool) : Prop := ∀ ⦃ts us⦄, Matches ts us → test ts = test us

/-! ### Single tokens -/

theorem nextIs_blind (m : Mark) : BlindTest (nextIs m) := by
  intro ts us same
  cases same with
  | nil => rfl
  | cons first others => exact is_congr first m

theorem atIntersection_blind : BlindTest atIntersection := by
  intro ts us same
  cases same with
  | nil => rfl
  | cons first others =>
    cases others with
    | nil => exact is_congr first .amp
    | cons second others =>
      unfold atIntersection
      dsimp only
      rw [is_congr first, second]

theorem expect_blind (m : Mark) : Blind (expect m) := by
  intro ts us same
  cases same with
  | nil => exact .error rfl
  | cons first others =>
    unfold expect
    dsimp only
    rw [is_congr first]
    split
    · exact .ok ⟨rfl, others⟩
    · exact .error (unexpected_fault (.cons first others) _)

theorem optionally_matches (same : Matches ts us) (m : Mark) (last last' : Nat) :
    (optionally m last ts).Matches (optionally m last' us) := by
  cases same with
  | nil => exact ⟨rfl, .nil⟩
  | cons first others =>
    unfold optionally
    dsimp only
    rw [is_congr first]
    split
    · exact ⟨rfl, others⟩
    · exact ⟨rfl, .cons first others⟩

/-! ### Lists -/

section
variable {item : Reader α} (blind : Blind item)
include blind

theorem many_agree {joins : List Token → Bool} (test : BlindTest joins) {ts us : List Token}
    (same : Matches ts us) (last last' : Nat) :
    Agree Trail.Matches (many joins item last ts) (many joins item last' us) := by
  induction size : ts.length using Nat.strongRecOn generalizing ts us last last' with
  | _ size ih =>
    subst size
    cases same with
    | nil =>
      rw [many, many]
      exact .ok ⟨rfl, .nil⟩
    | @cons t u rest more first others =>
      rw [many, many, test (.cons first others)]
      split
      · refine (blind others).bind ?_
        rintro a b ⟨value, left⟩
        have fewer : a.rest.length < (t :: rest).length := Nat.lt_succ_of_lt a.shorter
        refine (ih _ fewer left a.last b.last rfl).bind ?_
        rintro c d ⟨values, left⟩
        exact .ok ⟨congrArg₂ List.cons value values, left⟩
      · exact .ok ⟨rfl, .cons first others⟩

theorem listing_blind (close : Mark) : Blind (listing close item) := by
  intro ts us same
  induction size : ts.length using Nat.strongRecOn generalizing ts us with
  | _ size ih =>
    subst size
    rw [listing, listing, nextIs_blind close same]
    split
    · exact (expect_blind close same).map fun _ _ fine => ⟨rfl, fine.2⟩
    · refine (blind same).bind ?_
      rintro ⟨value, last, rest, shorter⟩ ⟨value', last', rest', shorter'⟩ ⟨item, left⟩
      cases left with
      | nil => exact .error rfl
      | @cons t u rest more first others =>
        dsimp only
        rw [is_congr first .comma, is_congr first close]
        split
        · refine (ih rest.length (Nat.lt_of_succ_lt shorter) others rfl).bind ?_
          rintro c d ⟨values, left⟩
          exact .ok ⟨congrArg₂ List.cons item values, left⟩
        split
        · exact .ok ⟨congrArg (fun x => [x]) item, others⟩
        · exact .error (unexpected_fault (.cons first others) _)

end

/-! ### Types over a given atom -/

theorem atSuffix_blind : BlindTest atSuffix := by
  intro ts us same
  cases same with
  | nil => rfl
  | cons first others =>
    cases others with
    | nil => rfl
    | cons second others => exact congrArg₂ and (is_congr first .openSquare) (is_congr second .closeSquare)

theorem suffixes_matches_of_stop {node : Node} {last last' : Nat} (same : Matches ts us)
    (stop : atSuffix ts = false) : (suffixes node last ts).Matches (suffixes node last' us) := by
  have stop' := (atSuffix_blind same).symm.trans stop
  rw [suffixes_stop stop, suffixes_stop stop']
  exact ⟨rfl, same⟩

theorem suffixes_matches (same : Matches ts us) (node : Node) (last last' : Nat) :
    (suffixes node last ts).Matches (suffixes node last' us) := by
  induction node, last, ts using suffixes.induct generalizing us last' with
  | case1 node last t u rest brackets ih =>
    have brackets' := (atSuffix_blind same).symm.trans brackets
    obtain ⟨v, more, -, others, rfl⟩ := List.forall₂_cons_left_iff.mp same
    obtain ⟨w, more, -, later, rfl⟩ := List.forall₂_cons_left_iff.mp others
    rw [suffixes_brackets brackets, suffixes_brackets brackets']
    exact ih later w.stop
  | case2 node last t u rest stop => exact suffixes_matches_of_stop same (Bool.eq_false_iff.mpr stop)
  | case3 node last ts few => exact suffixes_matches_of_stop same (atSuffix_of_few few)

section
variable {atom : Reader Node} (blind : Blind atom)
include blind

theorem postfixed_blind : Blind (postfixed atom) := by
  intro ts us same
  refine (blind same).bind ?_
  rintro a b ⟨value, left⟩
  have around := suffixes_matches left b.value a.last b.last
  rw [← value] at around ⊢
  exact .ok around

theorem nullable_blind : Blind (nullable atom) := by
  intro ts us same
  cases same with
  | nil => exact postfixed_blind blind .nil
  | cons first others =>
    unfold nullable
    dsimp only
    rw [is_congr first]
    split
    · refine (postfixed_blind blind others).bind ?_
      rintro a b ⟨value, left⟩
      exact .ok ⟨congrArg Node.nullable value, left⟩
    · exact postfixed_blind blind (.cons first others)

theorem joined_blind {joins : List Token → Bool} (test : BlindTest joins) (wrap : List Node → Node) :
    Blind (joined joins wrap atom) := by
  intro ts us same
  refine (blind same).bind ?_
  rintro a b ⟨value, left⟩
  refine (many_agree blind test left a.last b.last).bind ?_
  rintro c d ⟨values, left⟩
  refine .ok ⟨?_, left⟩
  simp only [Read.followed, value, values]

theorem typeOver_blind : Blind (typeOver atom) :=
  joined_blind (joined_blind (nullable_blind blind) atIntersection_blind _) (nextIs_blind .pipe) _

end

/-! ### Shapes -/

theorem takeSlot_matches (same : Matches ts us) :
    Option.Rel (fun a b => a.1 = b.1 ∧ Matches a.2.1 b.2.1) (takeSlot ts) (takeSlot us) := by
  cases same with
  | nil => exact .none
  | cons key others =>
    cases others with
    | nil => exact .none
    | cons first others =>
      unfold takeSlot
      dsimp only
      rw [key, is_congr first .colon, is_congr first .question]
      split
      · split
        · exact .some ⟨rfl, others⟩
        · cases others with
          | nil => exact .none
          | cons second others =>
            dsimp only
            rw [is_congr second .colon]
            split
            · exact .some ⟨rfl, others⟩
            · exact .none
      · exact .none

section
variable {type : Reader Node} (blind : Blind type)
include blind

theorem shapeItem_blind : Blind (shapeItem type) := by
  intro ts us same
  have slots := takeSlot_matches same
  unfold shapeItem
  cases keyed : takeSlot ts with
  | none =>
    cases keyed' : takeSlot us with
    | some _ =>
      rw [keyed, keyed'] at slots
      cases slots
    | none =>
      refine (blind same).bind ?_
      rintro a b ⟨value, left⟩
      exact .ok ⟨congrArg (fun node => (({} : Slot), node)) value, left⟩
  | some slot =>
    cases keyed' : takeSlot us with
    | none =>
      rw [keyed, keyed'] at slots
      cases slots
    | some slot' =>
      rw [keyed, keyed'] at slots
      obtain ⟨key, rest, fewer⟩ := slot
      obtain ⟨key', rest', fewer'⟩ := slot'
      obtain ⟨rfl, left⟩ : key = key' ∧ Matches rest rest' := by
        cases slots with
        | some here => exact here
      refine (blind left).bind ?_
      rintro a b ⟨value, left⟩
      exact .ok ⟨congrArg (Prod.mk key) value, left⟩

theorem objectItem_blind : Blind (objectItem type) := by
  intro ts us same
  refine (shapeItem_blind blind same).bind ?_
  rintro a b ⟨value, left⟩
  rw [value]
  split
  · exact .error rfl
  · exact .ok ⟨value, left⟩

theorem shapeTail_agree {ts us : List Token} (same : Matches ts us) (last last' : Nat) :
    Agree Trail.Matches (shapeTail type last ts) (shapeTail type last' us) := by
  cases same with
  | nil => exact .ok ⟨rfl, .nil⟩
  | cons first others =>
    unfold shapeTail
    dsimp only
    rw [is_congr first]
    split
    · refine (listing_blind blind .closeAngle others).bind ?_
      rintro ⟨args, last, rest, shorter⟩ ⟨_, last', rest', shorter'⟩ ⟨rfl, left⟩
      dsimp only
      split
      · exact .ok ⟨rfl, left⟩
      · exact .ok ⟨rfl, left⟩
      · exact .error rfl
    · exact .ok ⟨rfl, .cons first others⟩

theorem shapeBody_blind : Blind (shapeBody type) := by
  intro ts us same
  induction size : ts.length using Nat.strongRecOn generalizing ts us with
  | _ size ih =>
    subst size
    cases same with
    | nil =>
      rw [shapeBody]
      refine (shapeItem_blind blind .nil).bind ?_
      rintro a b ⟨value, left⟩
      exact .ok ⟨congrArg (fun x => ([x], true, none)) value, left⟩
    | @cons t u rest more first others =>
      rw [shapeBody, shapeBody, is_congr first .closeCurly, is_congr first .ellipsis]
      split
      · exact .ok ⟨rfl, others⟩
      split
      · refine (shapeTail_agree blind others t.stop u.stop).bind ?_
        rintro a b ⟨tail, left⟩
        obtain ⟨-, left⟩ := optionally_matches left .comma a.last b.last
        refine (expect_blind .closeCurly left).bind ?_
        rintro c d ⟨-, left⟩
        exact .ok ⟨congrArg (fun tail => ([], false, tail)) tail, left⟩
      · refine (shapeItem_blind blind (.cons first others)).bind ?_
        rintro ⟨value, last, rest, shorter⟩ ⟨value', last', rest', shorter'⟩ ⟨item, left⟩
        cases left with
        | nil => exact .error rfl
        | @cons v w rest more second others =>
          dsimp only
          rw [is_congr second .comma, is_congr second .closeCurly]
          split
          · refine (ih rest.length (Nat.lt_of_succ_lt shorter) others rfl).bind ?_
            rintro c d ⟨values, left⟩
            exact .ok ⟨congrArg₂ (fun item body => (item :: body.1, body.2)) item values, left⟩
          split
          · exact .ok ⟨congrArg (fun x => ([x], true, none)) item, others⟩
          · exact .error (unexpected_fault (.cons second others) _)

end

/-! ### Signatures and constants -/

theorem variableName_matches (same : Matches ts us) (last last' : Nat) :
    (variableName last ts).Matches (variableName last' us) := by
  cases same with
  | nil => exact ⟨rfl, .nil⟩
  | cons first others =>
    unfold variableName
    dsimp only
    rw [first]
    split
    · exact ⟨rfl, others⟩
    · exact ⟨rfl, .cons first others⟩

theorem param_blind {type : Reader Node} (blind : Blind type) : Blind (param type) := by
  intro ts us same
  refine (blind same).bind ?_
  rintro a b ⟨value, left⟩
  obtain ⟨byRef, left⟩ := optionally_matches left .amp a.last b.last
  obtain ⟨variadic, left⟩ := optionally_matches left .ellipsis _ _
  obtain ⟨name, left⟩ := variableName_matches left _ _
  obtain ⟨optional, left⟩ := optionally_matches left .equal _ _
  refine .ok ⟨?_, left⟩
  rw [value, byRef, variadic, name, optional]

theorem signature_blind {atom : Reader Node} (blind : Blind atom) (callee : String) :
    Blind (signature atom callee) := by
  intro ts us same
  refine (listing_blind (param_blind (typeOver_blind blind)) .closeParen same).bind ?_
  rintro a b ⟨params, left⟩
  refine (expect_blind .colon left).bind ?_
  rintro c d ⟨-, left⟩
  refine (nullable_blind blind left).bind ?_
  rintro e f ⟨result, left⟩
  exact .ok ⟨congrArg₂ (Node.callable callee) params result, left⟩

theorem constFetch_blind (owner : String) : Blind (constFetch owner) := by
  intro ts us same
  cases same with
  | nil => exact .error rfl
  | @cons t u rest more first others =>
    unfold constFetch
    dsimp only
    rw [first]
    split
    · obtain ⟨star, left⟩ := optionally_matches others .star t.stop u.stop
      refine .ok ⟨?_, left⟩
      simp only [Trail.after, Trail.map, star]
    · exact .ok ⟨rfl, others⟩
    · exact .error (unexpected_fault (.cons first others) _)

theorem constItem_blind {const : Reader Const} (blind : Blind const) : Blind (constItem const) := by
  intro ts us same
  refine (blind same).bind ?_
  rintro ⟨value, last, rest, shorter⟩ ⟨value', last', rest', shorter'⟩ ⟨item, left⟩
  cases left with
  | nil => exact .ok ⟨congrArg (Prod.mk none) item, .nil⟩
  | @cons t u rest more first others =>
    dsimp only
    rw [is_congr first]
    split
    · refine (blind others).bind ?_
      rintro c d ⟨value, left⟩
      exact .ok ⟨congrArg₂ (fun key value => (some key, value)) item value, left⟩
    · exact .ok ⟨congrArg (Prod.mk none) item, .cons first others⟩

theorem constant_blind (budget : Nat) : Blind (constant budget) := by
  induction budget with
  | zero => exact fun ts us _ => .error rfl
  | succ budget ih =>
    intro ts us same
    cases same with
    | nil => exact .error rfl
    | @cons t u rest more first others =>
      have failed := unexpected_fault (.cons first others) .constant
      obtain ⟨lexeme, start, text⟩ := t
      obtain ⟨lexeme', start', text'⟩ := u
      obtain rfl : lexeme = lexeme' := first
      cases lexeme with
      | int | float | quoted => exact .ok ⟨rfl, others⟩
      | name text =>
        cases others with
        | nil => exact .ok ⟨rfl, .nil⟩
        | @cons v w rest more second others =>
          cases colons : w.is .doubleColon with
          | true =>
            rw [constant_fetch budget rest rfl ((is_congr second _).trans colons),
              constant_fetch budget more rfl colons]
            exact (constFetch_blind text others).map fun _ _ fine => fine
          | false =>
            rw [constant_name budget (v :: rest) rfl ((is_congr second _).trans colons),
              constant_name budget (w :: more) rfl colons]
            exact .ok ⟨rfl, .cons second others⟩
      | mark m =>
        cases m with
        | openSquare =>
          rw [constant_array budget rest rfl, constant_array budget more rfl]
          refine (listing_blind (constItem_blind ih) .closeSquare others).bind ?_
          rintro a b ⟨items, left⟩
          exact .ok ⟨congrArg Const.array items, left⟩
        | _ => exact .error failed
      | _ => exact .error failed

/-! ### Atoms -/

theorem afterName_agree {atom : Reader Node} (blind : Blind atom) (name : String) (same : Matches ts us)
    (last last' : Nat) :
    Agree Trail.Matches (afterName atom name last ts) (afterName atom name last' us) := by
  have types := typeOver_blind blind
  cases same with
  | nil => exact .ok ⟨rfl, .nil⟩
  | @cons t u rest more first others =>
    have bare : Matches (t :: rest) (u :: more) := .cons first others
    unfold afterName
    dsimp only
    rw [first]
    split
    · refine (listing_blind types .closeAngle others).bind ?_
      rintro ⟨args, last, rest, shorter⟩ ⟨_, last', rest', shorter'⟩ ⟨rfl, left⟩
      dsimp only
      split
      · exact .error rfl
      · exact .ok ⟨rfl, left⟩
    · split
      next kind _ =>
        refine (shapeBody_blind types others).bind ?_
        rintro a b ⟨body, left⟩
        exact .ok ⟨congrArg (fun x : ShapeBody => Node.arrayShape kind x.1 x.2.1 x.2.2) body, left⟩
      split
      · refine (listing_blind (objectItem_blind types) .closeCurly others).bind ?_
        rintro a b ⟨items, left⟩
        exact .ok ⟨congrArg Node.objectShape items, left⟩
      · exact .ok ⟨rfl, bare⟩
    · split
      · exact (signature_blind blind _ others).bind fun _ _ fine => .ok fine
      · exact .ok ⟨rfl, bare⟩
    · refine (constFetch_blind name others).bind ?_
      rintro a b ⟨value, left⟩
      exact .ok ⟨congrArg Node.const value, left⟩
    · exact .ok ⟨rfl, bare⟩

theorem atom_blind (budget : Nat) : Blind (atom budget) := by
  induction budget with
  | zero => exact fun ts us _ => .error rfl
  | succ budget ih =>
    intro ts us same
    cases same with
    | nil => exact .error rfl
    | @cons t u rest more first others =>
      have failed := unexpected_fault (.cons first others) .type
      have const (opens : t.lexeme.opensConst = true) :
          Agree Read.Matches (atom (budget + 1) (t :: rest)) (atom (budget + 1) (u :: more)) := by
        rw [atom_const budget rest opens, atom_const budget more (first ▸ opens)]
        refine (constant_blind budget (.cons first others)).map ?_
        rintro a b ⟨value, left⟩
        exact ⟨congrArg Node.const value, left⟩
      obtain ⟨lexeme, start, text⟩ := t
      obtain ⟨lexeme', start', text'⟩ := u
      obtain rfl : lexeme = lexeme' := first
      cases lexeme with
      | int | float | quoted => exact const rfl
      | this => exact .ok ⟨rfl, others⟩
      | name name =>
        rw [atom_name budget rest rfl, atom_name budget more rfl]
        exact (afterName_agree ih name others _ _).map fun _ _ fine => fine
      | mark m =>
        cases m with
        | openSquare => exact const rfl
        | openParen =>
          rw [atom_group budget rest rfl, atom_group budget more rfl]
          refine (typeOver_blind ih others).bind ?_
          rintro a b ⟨inner, left⟩
          refine (expect_blind .closeParen left).bind ?_
          rintro c d ⟨-, left⟩
          exact .ok ⟨inner, left⟩
        | _ => exact .error failed
      | _ => exact .error failed

/-! ### Texts -/

section
variable {s s' : String} (same : lexemes (tokens s) = lexemes (tokens s'))
include same

theorem readPrefix_of_lexemes : ((readPrefix s).map Prod.fst).mapError ReadError.fault =
    ((readPrefix s').map Prod.fst).mapError ReadError.fault := by
  have front := typeOver_blind (atom_blind maxDepth) (matches_iff.mpr same)
  unfold readPrefix typeRead
  refine Agree.mapError_eq ((front.map (S := fun a b => a.1 = b.1) ?_).map fun _ _ fine => fine)
  exact fun _ _ fine => fine.1

theorem read_of_lexemes : (read s).mapError ReadError.fault = (read s').mapError ReadError.fault := by
  refine Agree.mapError_eq ?_
  refine (typeOver_blind (atom_blind maxDepth) (matches_iff.mpr same)).bind ?_
  rintro ⟨node, last, rest, shorter⟩ ⟨_, last', rest', shorter'⟩ ⟨rfl, left⟩
  cases left with
  | nil => exact .ok rfl
  | cons first others =>
    dsimp only
    rw [first]
    split
    · exact .ok rfl
    · exact .error (unexpected_fault (.cons first others) _)

end

end TypeHints.Hint
