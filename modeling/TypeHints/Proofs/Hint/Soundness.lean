import TypeHints.Proofs.Except
import TypeHints.Proofs.Hint.Grammar
import TypeHints.Proofs.Hint.Tokens

/-!
# Readers are sound

What a reader makes of its tokens is spelled by those that it takes, and the offset it reports is
where the last of them ends. `typeOver_sound` climbs the levels over a sound atom, and `atom_sound`
is the induction on the budget.
-/
namespace TypeHints

namespace Hint

variable {α β γ : Type}

/-- The tokens `ts` down to `rest` spell `v`, and end at `last` when the text before ends at `start`. -/
def Spelled (P : Phrase α) (v : α) (start last : Nat) (ts rest : List Token) : Prop :=
  ∃ used, ts = used ++ rest ∧ last = endOf start used ∧ P v (lexemes used)

namespace Spelled

variable {P : Phrase α} {Q : Phrase β} {R : Phrase γ} {v : α} {w : β} {x : γ}
  {start mid last : Nat} {ts ms rest : List Token}

theorem append (h : Spelled P v start mid ts ms) (more : Spelled Q w mid last ms rest)
    (spell : ∀ a b, P v a → Q w b → R x (a ++ b)) : Spelled R x start last ts rest := by
  obtain ⟨used, rfl, rfl, first⟩ := h
  obtain ⟨others, rfl, rfl, second⟩ := more
  refine ⟨used ++ others, (List.append_assoc ..).symm, (endOf_append ..).symm, ?_⟩
  rw [lexemes_append]
  exact spell _ _ first second

theorem cons {t : Token} (h : Spelled P v t.stop last ts rest)
    (spell : ∀ a, P v a → R x (t.lexeme :: a)) : Spelled R x start last (t :: ts) rest := by
  obtain ⟨used, rfl, rfl, first⟩ := h
  exact ⟨t :: used, rfl, rfl, spell _ first⟩

theorem nil (spell : R x []) : Spelled R x start start ts ts := ⟨[], rfl, rfl, spell⟩

theorem single {t : Token} (spell : R x [t.lexeme]) : Spelled R x start t.stop (t :: ts) ts :=
  ⟨[t], rfl, rfl, spell⟩

theorem imp (h : Spelled P v start last ts rest) (spell : ∀ a, P v a → R x a) :
    Spelled R x start last ts rest := by
  obtain ⟨used, rfl, rfl, first⟩ := h
  exact ⟨used, rfl, rfl, spell _ first⟩

end Spelled

def Sound (read : Reader α) (P : Phrase α) : Prop :=
  ∀ ⦃ts : List Token⦄ ⦃r : Read ts α⦄, read ts = .ok r → ∀ start, Spelled P r.value start r.last ts r.rest

/-- The reader leaves no tokens at which `more` holds. -/
def Stops (read : Reader α) (more : List Token → Bool) : Prop :=
  ∀ ⦃ts : List Token⦄ ⦃r : Read ts α⦄, read ts = .ok r → more r.rest = false

theorem Token.lexeme_of_is {t : Token} {m : Mark} (h : t.is m = true) : t.lexeme = .mark m := by
  simpa [Token.is] using h

def Marked (m : Mark) (P : Phrase α) : Phrase α := fun x ls => ∃ tail, P x tail ∧ ls = .mark m :: tail

theorem Spelled.marked {P : Phrase α} {v : α} {start last : Nat} {t : Token} {ts rest : List Token}
    {m : Mark} (h : Spelled P v t.stop last ts rest) (isMark : t.is m = true) :
    Spelled (Marked m P) v start last (t :: ts) rest :=
  h.cons fun _ spell => ⟨_, spell, by rw [Token.lexeme_of_is isMark]⟩

def Written (text : List Lexeme) : Phrase Unit := fun _ ls => ls = text

theorem Spelled.alone {start : Nat} {t : Token} {ts : List Token} {m : Mark} (isMark : t.is m = true) :
    Spelled (Written [.mark m]) () start t.stop (t :: ts) ts :=
  Spelled.single (congrArg (fun l => [l]) (Token.lexeme_of_is isMark))

theorem Spelled.written {text more : List Lexeme} {start mid last : Nat} {ts ms rest : List Token}
    (h : Spelled (Written text) () start mid ts ms) (others : Spelled (Written more) () mid last ms rest) :
    Spelled (Written (text ++ more)) () start last ts rest :=
  h.append others fun _ _ first second => by rw [first, second]; rfl

theorem expect_sound (m : Mark) : Sound (expect m) (Written [.mark m]) := by
  intro ts r read start
  cases ts with
  | nil => cases read
  | cons t rest =>
    simp only [expect] at read
    split at read
    next isMark => cases read; exact Spelled.alone isMark
    next => cases read

theorem optionally_spelled (m : Mark) (last : Nat) (ts : List Token) :
    Spelled (Written (m.times (optionally m last ts).value)) () last (optionally m last ts).last ts
      (optionally m last ts).rest := by
  cases ts with
  | nil => exact Spelled.nil rfl
  | cons t rest =>
    simp only [optionally]
    split
    next isMark => exact Spelled.single (by rw [Token.lexeme_of_is isMark]; rfl)
    next => exact Spelled.nil rfl

/-! ### Lists -/

theorem many_stops {item : Reader α} {joins more : List Token → Bool} (stops : Stops item more)
    {last : Nat} {ts : List Token} {r : Trail ts (List α)} (read : many joins item last ts = .ok r)
    (before : more ts = false) : more r.rest = false := by
  revert before
  induction size : ts.length using Nat.strongRecOn generalizing last ts r with
  | _ size ih =>
    subst size
    intro before
    cases ts with
    | nil =>
      rw [many] at read
      cases read
      exact before
    | cons t rest =>
      rw [many] at read
      split at read
      next =>
        obtain ⟨first, readFirst, read⟩ := bind_eq_ok.mp read
        obtain ⟨others, readOthers, read⟩ := bind_eq_ok.mp read
        cases read
        have fewer : first.rest.length < (t :: rest).length := Nat.lt_succ_of_lt first.shorter
        have stopped := ih _ fewer readOthers rfl (stops readFirst)
        exact stopped
      next => cases read; exact before

section
variable {item : Reader α} {P : Phrase α} (sound : Sound item P)
include sound

theorem many_sound {m : Mark} {joins : List Token → Bool} (none : joins [] = false)
    (mark : ∀ {t ts}, joins (t :: ts) = true → t.lexeme = .mark m) {last : Nat} {ts : List Token}
    {r : Trail ts (List α)} (read : many joins item last ts = .ok r) :
    Spelled (Further m P) r.value last r.last ts r.rest ∧ joins r.rest = false := by
  induction size : ts.length using Nat.strongRecOn generalizing last ts r with
  | _ size ih =>
    subst size
    cases ts with
    | nil =>
      rw [many] at read
      cases read
      exact ⟨Spelled.nil .nil, none⟩
    | cons t rest =>
      rw [many] at read
      split at read
      next goesOn =>
        obtain ⟨first, readFirst, read⟩ := bind_eq_ok.mp read
        obtain ⟨others, readOthers, read⟩ := bind_eq_ok.mp read
        cases read
        have fewer : first.rest.length < (t :: rest).length := Nat.lt_succ_of_lt first.shorter
        obtain ⟨spelled, stops⟩ := ih _ fewer readOthers rfl
        have items : Spelled (fun xs ls => Further m P xs (.mark m :: ls)) _ _ _ _ _ :=
          (sound readFirst t.stop).append spelled fun _ _ => Further.cons
        exact ⟨items.cons fun _ h => mark goesOn ▸ h, stops⟩
      next stops =>
        cases read
        exact ⟨Spelled.nil .nil, by simpa using stops⟩

theorem listing_sound (close : Mark) : Sound (listing close item) (Listed close P) := by
  intro ts
  induction size : ts.length using Nat.strongRecOn generalizing ts with
  | _ size ih =>
    subst size
    intro r read start
    rw [listing] at read
    split at read
    next =>
      obtain ⟨_, expected, rfl⟩ := map_eq_ok.mp read
      exact (expect_sound close expected start).imp fun _ spell => spell ▸ .nil
    next =>
      obtain ⟨first, readFirst, read⟩ := bind_eq_ok.mp read
      have spelled := sound readFirst start
      have fewer := first.shorter
      split at read
      next t rest left =>
        rw [left] at spelled fewer
        split at read
        next comma =>
          obtain ⟨others, readOthers, read⟩ := bind_eq_ok.mp read
          cases read
          have more := ih rest.length (Nat.lt_of_succ_lt fewer) rfl readOthers t.stop
          refine spelled.append (more.marked comma) ?_
          rintro _ _ item ⟨_, others, rfl⟩
          exact .cons item others
        next =>
          split at read
          next closes =>
            cases read
            exact spelled.append (Spelled.alone closes) fun _ _ item same => same ▸ .last item
          next => cases read
      next => cases read

end

/-! ### Types over a given atom -/

def atSuffix : List Token → Bool
  | t :: u :: _ => t.is .openSquare && u.is .closeSquare
  | _ => false

def SoundAtom (atom : Reader Node) (A : Atoms) : Prop :=
  ∀ ⦃ts : List Token⦄ ⦃r : Read ts Node⦄, atom ts = .ok r → ∀ start,
    Spelled A.closed r.value start r.last ts r.rest ∨
      Spelled A.signature r.value start r.last ts r.rest ∧ atSuffix r.rest = false

theorem atSuffix_of_few {ts : List Token} (few : ∀ t u rest, ts = t :: u :: rest → False) :
    atSuffix ts = false := by
  unfold atSuffix
  split
  next t u rest => exact (few t u rest rfl).elim
  next => rfl

theorem suffixes_stop {node : Node} {last : Nat} {ts : List Token} (h : atSuffix ts = false) :
    suffixes node last ts = ⟨node, last, ts, Nat.le_refl _⟩ := by
  match ts with
  | t :: u :: rest => exact if_neg (Bool.eq_false_iff.mp h)
  | [] | [_] => rfl

theorem suffixes_brackets {node : Node} {last : Nat} {t u : Token} {rest : List Token}
    (brackets : (t.is .openSquare && u.is .closeSquare) = true) : suffixes node last (t :: u :: rest) =
      ⟨(suffixes (.array node) u.stop rest).value, (suffixes (.array node) u.stop rest).last,
        (suffixes (.array node) u.stop rest).rest,
        Nat.le_succ_of_le (Nat.le_succ_of_le (suffixes (.array node) u.stop rest).noLonger)⟩ :=
  if_pos brackets

theorem suffixes_spelled {base : Phrase Node} {node : Node} {start last : Nat} {front ts : List Token}
    (h : Spelled (Suffixed base) node start last front ts) :
    Spelled (Suffixed base) (suffixes node last ts).value start (suffixes node last ts).last front
      (suffixes node last ts).rest ∧ atSuffix (suffixes node last ts).rest = false := by
  induction node, last, ts using suffixes.induct with
  | case1 node last t u rest brackets ih =>
    rw [suffixes_brackets brackets]
    have marks := Bool.and_eq_true_iff.mp brackets
    refine ih (h.append (Spelled.marked (Spelled.alone marks.2) marks.1) ?_)
    rintro _ _ item ⟨_, rfl, rfl⟩
    exact .array item
  | case2 node last t u rest stop =>
    have plain : atSuffix (t :: u :: rest) = false := Bool.eq_false_iff.mpr stop
    rw [suffixes_stop plain]
    exact ⟨h, plain⟩
  | case3 node last ts few =>
    have stop := atSuffix_of_few few
    rw [suffixes_stop stop]
    exact ⟨h, stop⟩

section
variable {atom : Reader Node} {A : Atoms} (sound : SoundAtom atom A)
include sound

theorem postfixed_sound : Sound (postfixed atom) (IsOperand A) ∧ Stops (postfixed atom) atSuffix := by
  have both {ts : List Token} {r : Read ts Node} (read : postfixed atom ts = .ok r) (start : Nat) :
      Spelled (IsOperand A) r.value start r.last ts r.rest ∧ atSuffix r.rest = false := by
    obtain ⟨first, readFirst, read⟩ := bind_eq_ok.mp read
    cases read
    rcases sound readFirst start with closed | ⟨signature, stop⟩
    · obtain ⟨spelled, stop⟩ := suffixes_spelled (closed.imp fun _ => Suffixed.base)
      exact ⟨spelled.imp fun _ => .closed, stop⟩
    · simp only [Read.followed, suffixes_stop stop]
      exact ⟨signature.imp fun _ => .signature, stop⟩
  exact ⟨fun _ _ read start => (both read start).1, fun _ _ read => (both read 0).2⟩

theorem nullable_sound : Sound (nullable atom) (IsMember A) ∧ Stops (nullable atom) atSuffix := by
  obtain ⟨operand, stops⟩ := postfixed_sound sound
  have both {ts : List Token} {r : Read ts Node} (read : nullable atom ts = .ok r) (start : Nat) :
      Spelled (IsMember A) r.value start r.last ts r.rest ∧ atSuffix r.rest = false := by
    cases ts with
    | nil => exact ⟨(operand read start).imp fun _ => .operand, stops read⟩
    | cons t rest =>
      simp only [nullable] at read
      split at read
      next question =>
        obtain ⟨inner, readInner, read⟩ := bind_eq_ok.mp read
        cases read
        have stop := stops readInner
        refine ⟨Spelled.imp ((operand readInner t.stop).marked question) ?_, stop⟩
        rintro _ ⟨_, inner, rfl⟩
        exact .nullable inner
      next => exact ⟨(operand read start).imp fun _ => .operand, stops read⟩
  exact ⟨fun _ _ read start => (both read start).1, fun _ _ read => (both read 0).2⟩

end

theorem joined_sound {item : Reader Node} {P : Phrase Node} {m : Mark} {wrap : List Node → Node}
    {joins : List Token → Bool} (sound : Sound item P) (none : joins [] = false)
    (mark : ∀ {t ts}, joins (t :: ts) = true → t.lexeme = .mark m) :
    Sound (joined joins wrap item) (Joined m wrap P) ∧ Stops (joined joins wrap item) joins := by
  have both {ts : List Token} {r : Read ts Node} (read : joined joins wrap item ts = .ok r)
      (start : Nat) : Spelled (Joined m wrap P) r.value start r.last ts r.rest ∧
        joins r.rest = false := by
    obtain ⟨first, readFirst, read⟩ := bind_eq_ok.mp read
    obtain ⟨others, readOthers, read⟩ := bind_eq_ok.mp read
    cases read
    obtain ⟨spelled, stop⟩ := many_sound sound none mark readOthers
    refine ⟨(sound readFirst start).append spelled fun a b item more => ?_, stop⟩
    simp only [Read.followed]
    cases values : others.value with
    | nil =>
      rw [values] at more
      cases more
      rw [List.append_nil]
      exact .single item
    | cons w vs => exact .several item (values ▸ more)
  exact ⟨fun _ _ read start => (both read start).1, fun _ _ read => (both read 0).2⟩

theorem joined_stops {item : Reader Node} {wrap : List Node → Node} {joins more : List Token → Bool}
    (stops : Stops item more) : Stops (joined joins wrap item) more := by
  intro ts r read
  obtain ⟨first, readFirst, read⟩ := bind_eq_ok.mp read
  obtain ⟨others, readOthers, read⟩ := bind_eq_ok.mp read
  cases read
  exact many_stops stops readOthers (stops readFirst)

theorem lexeme_of_atIntersection {t : Token} {ts : List Token} (h : atIntersection (t :: ts) = true) :
    t.lexeme = .mark .amp := by
  cases ts with
  | nil => exact Token.lexeme_of_is h
  | cons u ts => exact Token.lexeme_of_is (Bool.and_eq_true_iff.mp h).1

/-- A sound atom makes whole types sound, and no `&` that would go on is left behind them. -/
theorem typeOver_sound {atom : Reader Node} {A : Atoms} (sound : SoundAtom atom A) :
    Sound (typeOver atom) (IsType A) ∧ Stops (typeOver atom) atIntersection := by
  obtain ⟨meet, stops⟩ : Sound (intersection atom) (IsMeet A) ∧ Stops (intersection atom) atIntersection :=
    joined_sound (nullable_sound sound).1 rfl lexeme_of_atIntersection
  exact ⟨(joined_sound meet rfl Token.lexeme_of_is).1, joined_stops stops⟩

/-! ### Shapes -/

def IsSlot : Phrase Slot := fun slot ls => ∃ l key optional, shapeKey? l = some key ∧
  slot = ⟨some key, optional⟩ ∧ ls = l :: (Mark.question.times optional ++ [.mark .colon])

theorem takeSlot_spelled {ts : List Token} {slot : Slot}
    {rest : { rest : List Token // rest.length < ts.length }} (h : takeSlot ts = some (slot, rest))
    (start : Nat) : ∃ last, Spelled IsSlot slot start last ts rest.1 := by
  unfold takeSlot at h
  split at h
  next k t ts =>
    split at h
    next key isKey =>
      split at h
      next colon =>
        cases h
        refine ⟨_, Spelled.cons (Spelled.alone colon) ?_⟩
        rintro _ rfl
        exact ⟨_, key, false, isKey, rfl, rfl⟩
      next =>
        split at h
        next u more =>
          split at h
          next marks =>
            obtain ⟨question, colon⟩ := Bool.and_eq_true_iff.mp marks
            cases h
            refine ⟨_, Spelled.cons ((Spelled.alone colon).marked question) ?_⟩
            rintro _ ⟨_, rfl, rfl⟩
            exact ⟨_, key, true, isKey, rfl, rfl⟩
          next => cases h
        next => cases h
    next => cases h
  next => cases h

section
variable {type : Reader Node} {P : Phrase Node} (sound : Sound type P)
include sound

theorem shapeItem_sound : Sound (shapeItem type) (IsItem P) := by
  intro ts r read start
  unfold shapeItem at read
  split at read
  next slot rest fewer taken =>
    obtain ⟨value, readValue, read⟩ := bind_eq_ok.mp read
    cases read
    obtain ⟨last, spelled⟩ := takeSlot_spelled taken start
    refine spelled.append (sound readValue last) ?_
    rintro _ _ ⟨l, key, optional, isKey, rfl, rfl⟩ spell
    simpa using IsItem.keyed optional isKey spell
  next =>
    obtain ⟨value, readValue, read⟩ := bind_eq_ok.mp read
    cases read
    exact (sound readValue start).imp fun _ => .bare

theorem shapeTail_sound {last : Nat} {ts : List Token} {r : Trail ts (Option (Option Node × Node))}
    (read : shapeTail type last ts = .ok r) :
    Spelled (IsTail P) r.value last r.last ts r.rest := by
  cases ts with
  | nil => cases read; exact Spelled.nil .none
  | cons t rest =>
    simp only [shapeTail] at read
    split at read
    next angle =>
      obtain ⟨args, readArgs, read⟩ := bind_eq_ok.mp read
      have spelled : Spelled (Marked .openAngle (Listed .closeAngle P)) _ last _ _ _ :=
        (listing_sound sound .closeAngle readArgs t.stop).marked angle
      split at read
      next value args =>
        cases read
        rw [args] at spelled
        refine spelled.imp ?_
        rintro _ ⟨_, args, rfl⟩
        exact .value args
      next key value args =>
        cases read
        rw [args] at spelled
        refine spelled.imp ?_
        rintro _ ⟨_, args, rfl⟩
        exact .entry args
      next => cases read
    next => cases read; exact Spelled.nil .none

theorem shapeBody_sound : Sound (shapeBody type) (IsShapeBody P) := by
  intro ts
  induction size : ts.length using Nat.strongRecOn generalizing ts with
  | _ size ih =>
    subst size
    intro r read start
    cases ts with
    | nil => exact absurd r.shorter (by simp)
    | cons t rest =>
      rw [shapeBody] at read
      split at read
      next closes => cases read; exact (Spelled.alone closes).imp fun _ spell => spell ▸ .close
      split at read
      next ellipsis =>
        obtain ⟨tail, readTail, read⟩ := bind_eq_ok.mp read
        obtain ⟨close, readClose, read⟩ := bind_eq_ok.mp read
        cases read
        have marks := (optionally_spelled .comma tail.last tail.rest).written
          (expect_sound .closeCurly readClose _)
        have body : Spelled (fun body ls => IsShapeBody P body (.mark .ellipsis :: ls))
            ([], false, tail.value) t.stop close.last rest close.rest :=
          (shapeTail_sound sound readTail).append marks fun _ _ args second =>
            second ▸ .unsealed _ args
        exact body.cons fun _ spell => Token.lexeme_of_is ellipsis ▸ spell
      next =>
        obtain ⟨item, readItem, read⟩ := bind_eq_ok.mp read
        have spelled := shapeItem_sound sound readItem start
        have fewer := item.shorter
        split at read
        next u more left =>
          rw [left] at spelled fewer
          split at read
          next comma =>
            obtain ⟨others, readOthers, read⟩ := bind_eq_ok.mp read
            cases read
            have body := ih more.length (Nat.lt_of_succ_lt fewer) rfl readOthers u.stop
            refine spelled.append (body.marked comma) ?_
            rintro _ _ item ⟨_, others, rfl⟩
            exact .cons item others
          next =>
            split at read
            next closes =>
              cases read
              exact spelled.append (Spelled.alone closes) fun _ _ item same => same ▸ .last item
            next => cases read
        next => cases read

theorem objectItem_sound : Sound (objectItem type) (IsObjectItem P) := by
  intro ts r read start
  obtain ⟨item, readItem, read⟩ := bind_eq_ok.mp read
  split at read
  next => cases read
  next keyed =>
    cases read
    refine (shapeItem_sound sound readItem start).imp fun _ spell => .keyed spell ?_
    simpa [Option.isSome_iff_ne_none] using keyed

end

/-! ### Signatures -/

theorem variableName_spelled (last : Nat) (ts : List Token) :
    Spelled (Written (sigiled (variableName last ts).value)) () last (variableName last ts).last ts
      (variableName last ts).rest := by
  cases ts with
  | nil => exact Spelled.nil rfl
  | cons t rest =>
    simp only [variableName]
    split
    next name same => exact Spelled.single (by rw [same]; rfl)
    next => exact Spelled.nil rfl

theorem apart_of_stop {ts : List Token} {last last' last'' : Nat} (stop : atIntersection ts = false)
    (present : (optionally .amp last ts).value = true) :
    (optionally .ellipsis last' (optionally .amp last ts).rest).value = true ∨
      (variableName last'' (optionally .ellipsis last' (optionally .amp last ts).rest).rest).value.isSome
        = true := by
  cases ts with
  | nil => simp [optionally] at present
  | cons t rest =>
    cases amp : t.is .amp with
    | false => simp [optionally, amp] at present
    | true =>
      cases rest with
      | nil => simp [atIntersection, amp] at stop
      | cons u rest =>
        simp only [atIntersection, amp, Bool.true_and, Bool.not_eq_false'] at stop
        have left : (optionally .amp last (t :: u :: rest)).rest = u :: rest := by
          simp [optionally, amp]
        rw [left]
        split at stop
        next name same =>
          have stays : (optionally .ellipsis last' (u :: rest)).rest = u :: rest := by
            simp [optionally, Token.is, same]
          rw [stays]
          simp [variableName, same]
        next same => simp [optionally, Token.is, same]
        next => cases stop

section
variable {atom : Reader Node} {A : Atoms} (sound : SoundAtom atom A)
include sound

theorem param_sound : Sound (param (typeOver atom)) (IsParam (IsType A)) := by
  intro ts r read start
  obtain ⟨type, readType, read⟩ := bind_eq_ok.mp read
  cases read
  obtain ⟨typed, stops⟩ := typeOver_sound sound
  have marks := (optionally_spelled .amp type.last type.rest).written
    ((optionally_spelled .ellipsis _ _).written
      ((variableName_spelled _ _).written (optionally_spelled .equal _ _)))
  refine (typed readType start).append marks fun a b plain same => same ▸ .marked plain ?_
  exact apart_of_stop (stops readType)

theorem signature_sound {name : String} (callee : name ∈ calleeNames) {ts : List Token}
    {r : Read ts Node} (read : signature atom name ts = .ok r) (start : Nat) :
    Spelled (fun v ls => IsSignature A v (.name name :: .mark .openParen :: ls)) r.value start
      r.last ts r.rest ∧ atSuffix r.rest = false := by
  obtain ⟨params, readParams, read⟩ := bind_eq_ok.mp read
  obtain ⟨colon, readColon, read⟩ := bind_eq_ok.mp read
  obtain ⟨result, readResult, read⟩ := bind_eq_ok.mp read
  cases read
  obtain ⟨member, stops⟩ := nullable_sound sound
  have stop := stops readResult
  refine ⟨?_, stop⟩
  have returned : Spelled (Marked .colon (IsMember A)) _ _ _ _ _ :=
    (expect_sound .colon readColon params.last).append (member readResult _) fun _ _ mark spell =>
      ⟨_, spell, by rw [mark]; rfl⟩
  exact (listing_sound (param_sound sound) .closeParen readParams start).append returned
    fun _ _ listed ⟨_, returned, same⟩ => same ▸ .callable callee listed returned

end

/-! ### Constants -/

theorem constFetch_sound (owner : String) : Sound (constFetch owner) (IsFetch owner) := by
  intro ts r read start
  cases ts with
  | nil => cases read
  | cons t rest =>
    simp only [constFetch] at read
    split at read
    next text same =>
      cases read
      refine (optionally_spelled .star t.stop rest).cons ?_
      rintro _ rfl
      simp only [Trail.after, Trail.map, same]
      cases (optionally .star t.stop rest).value
      · exact .name text
      · exact .wild text
    next same =>
      cases read
      exact Spelled.single (same ▸ .star)
    next => cases read

theorem constItem_sound {const : Reader Const} {P : Phrase Const} (sound : Sound const P) :
    Sound (constItem const) (IsConstItem P) := by
  intro ts r read start
  obtain ⟨first, readFirst, read⟩ := bind_eq_ok.mp read
  have spelled := sound readFirst start
  split at read
  next t rest left =>
    split at read
    next arrow =>
      obtain ⟨value, readValue, read⟩ := bind_eq_ok.mp read
      cases read
      rw [left] at spelled
      refine spelled.append ((sound readValue t.stop).marked arrow) ?_
      rintro _ _ key ⟨_, value, rfl⟩
      exact .entry key value
    next => cases read; exact spelled.imp fun _ => .plain
  next => cases read; exact spelled.imp fun _ => .plain

section
variable {t : Token} (budget : Nat) (rest : List Token)

theorem startsConst_of_constant {r : Read (t :: rest) Const}
    (read : constant (budget + 1) (t :: rest) = .ok r) : t.lexeme.startsConst = true := by
  obtain ⟨l, start, text⟩ := t
  cases l with
  | mark m => cases m <;> first | rfl | cases read
  | _ => first | rfl | cases read

theorem constant_int {value : Int64} (same : t.lexeme = .int value) : constant (budget + 1) (t :: rest) =
    .ok ⟨.int value, t.stop, rest, Nat.lt_succ_self _⟩ := by
  obtain ⟨_, _, _⟩ := t; subst same; rfl

theorem constant_float {value : Decimal.Binary64} (same : t.lexeme = .float value) :
    constant (budget + 1) (t :: rest) = .ok ⟨.float value, t.stop, rest, Nat.lt_succ_self _⟩ := by
  obtain ⟨_, _, _⟩ := t; subst same; rfl

theorem constant_quoted {text : String} (same : t.lexeme = .quoted text) :
    constant (budget + 1) (t :: rest) = .ok ⟨.quoted text, t.stop, rest, Nat.lt_succ_self _⟩ := by
  obtain ⟨_, _, _⟩ := t; subst same; rfl

theorem constant_array (same : t.lexeme = .mark .openSquare) : constant (budget + 1) (t :: rest) =
    (do
      let items ← listing .closeSquare (constItem (constant budget)) rest
      return (items.map Const.array).after t) := by
  obtain ⟨_, _, _⟩ := t; subst same; rfl

theorem constant_name {text : String} (same : t.lexeme = .name text)
    (alone : nextIs .doubleColon rest = false) :
    constant (budget + 1) (t :: rest) = .ok ⟨.name text, t.stop, rest, Nat.lt_succ_self _⟩ := by
  obtain ⟨_, _, _⟩ := t
  subst same
  cases rest with
  | nil => rfl
  | cons u more => exact if_neg (Bool.eq_false_iff.mp alone)

theorem constant_fetch {u : Token} {text : String} (same : t.lexeme = .name text)
    (colons : u.is .doubleColon = true) :
    constant (budget + 1) (t :: u :: rest) = (constFetch text rest).map fun r => (r.after u).after t := by
  obtain ⟨_, _, _⟩ := t
  subst same
  exact if_pos colons

end

theorem constant_sound (budget : Nat) : Sound (constant budget) (IsConst budget) := by
  induction budget with
  | zero => intro ts r read; cases read
  | succ budget ih =>
    intro ts r read start
    cases ts with
    | nil => cases read
    | cons t rest =>
      have starts := startsConst_of_constant budget rest read
      cases same : t.lexeme with
      | int value =>
        rw [constant_int budget rest same] at read
        cases read
        exact Spelled.single (same ▸ .int value)
      | float value =>
        rw [constant_float budget rest same] at read
        cases read
        exact Spelled.single (same ▸ .float value)
      | quoted text =>
        rw [constant_quoted budget rest same] at read
        cases read
        exact Spelled.single (same ▸ .quoted text)
      | mark m =>
        rw [same] at starts
        obtain rfl : m = .openSquare := of_decide_eq_true starts
        rw [constant_array budget rest same] at read
        obtain ⟨items, readItems, read⟩ := bind_eq_ok.mp read
        cases read
        exact (listing_sound (constItem_sound ih) .closeSquare readItems t.stop).cons fun _ listed =>
          same ▸ .array listed
      | name text =>
        cases colons : nextIs .doubleColon rest with
        | false =>
          rw [constant_name budget rest same colons] at read
          cases read
          exact Spelled.single (same ▸ .name text)
        | true =>
          cases rest with
          | nil => cases colons
          | cons u more =>
            rw [constant_fetch budget more same colons] at read
            obtain ⟨value, readValue, rfl⟩ := map_eq_ok.mp read
            refine ((constFetch_sound text readValue u.stop).marked colons).cons ?_
            rintro _ ⟨_, fetched, rfl⟩
            exact same ▸ .fetch fetched
      | this | var | malformed | finish => rw [same] at starts; cases starts

/-! ### Atoms -/

theorem ShapeKind.text_of_ofName? {name : String} {kind : ShapeKind}
    (h : ShapeKind.ofName? name = some kind) : kind.text = name := by
  simpa using List.find?_some h

theorem afterName_sound {atom : Reader Node} {A : Atoms} (sound : SoundAtom atom A)
    {const : Phrase Const} {name : String} {last : Nat} {ts : List Token} {r : Trail ts Node}
    (read : afterName atom name last ts = .ok r) :
    Spelled (fun v ls => ClosedOver const A v (.name name :: ls)) r.value last r.last ts r.rest ∨
      Spelled (fun v ls => IsSignature A v (.name name :: ls)) r.value last r.last ts r.rest ∧
        atSuffix r.rest = false := by
  have bare : Spelled (fun v ls => ClosedOver const A v (.name name :: ls)) (.name name) last last ts ts :=
    Spelled.nil (.name name)
  have type := (typeOver_sound sound).1
  cases ts with
  | nil => cases read; exact .inl bare
  | cons t rest =>
    simp only [afterName] at read
    split at read
    next same =>
      obtain ⟨args, readArgs, read⟩ := bind_eq_ok.mp read
      split at read
      next => cases read
      next some =>
        cases read
        left
        refine (listing_sound type .closeAngle readArgs t.stop).cons fun _ listed => ?_
        rw [same]
        show ClosedOver const A (.generic (.name name) args.value) _
        cases values : args.value with
        | nil => exact absurd (values ▸ rfl) some
        | cons arg others => exact .generic (values ▸ listed)
    next same =>
      split at read
      next kind known =>
        obtain ⟨body, readBody, read⟩ := bind_eq_ok.mp read
        cases read
        left
        refine (shapeBody_sound type readBody t.stop).cons fun _ items => ?_
        rw [same, ← ShapeKind.text_of_ofName? known]
        exact .arrayShape kind items
      next =>
        split at read
        next object =>
          subst object
          obtain ⟨items, readItems, read⟩ := bind_eq_ok.mp read
          cases read
          exact .inl ((listing_sound (objectItem_sound type) .closeCurly readItems t.stop).cons
            fun _ listed => same ▸ .objectShape listed)
        next => cases read; exact .inl bare
    next same =>
      split at read
      next callee =>
        obtain ⟨value, readValue, read⟩ := bind_eq_ok.mp read
        cases read
        obtain ⟨spelled, stop⟩ := signature_sound sound callee readValue t.stop
        exact .inr ⟨spelled.cons fun _ spell => same ▸ spell, stop⟩
      next => cases read; exact .inl bare
    next same =>
      obtain ⟨value, readValue, read⟩ := bind_eq_ok.mp read
      cases read
      exact .inl ((constFetch_sound name readValue t.stop).cons fun _ fetched => same ▸ .fetch fetched)
    next => cases read; exact .inl bare

section
variable {t : Token} (budget : Nat) (rest : List Token)

theorem opensType_of_atom {r : Read (t :: rest) Node} (read : atom (budget + 1) (t :: rest) = .ok r) :
    (t.lexeme.opensType && t.lexeme ≠ .mark .question) = true := by
  obtain ⟨l, start, text⟩ := t
  cases l with
  | mark m => cases m <;> first | rfl | cases read
  | _ => first | rfl | cases read

theorem atom_group (same : t.lexeme = .mark .openParen) : atom (budget + 1) (t :: rest) =
    (do
      let inner ← typeOver (atom budget) rest
      let close ← expect .closeParen inner.rest
      return (inner.andThen close fun node _ => node).after t) := by
  obtain ⟨_, _, _⟩ := t; subst same; rfl

theorem atom_this (same : t.lexeme = .this) :
    atom (budget + 1) (t :: rest) = .ok ⟨.this, t.stop, rest, Nat.lt_succ_self _⟩ := by
  obtain ⟨_, _, _⟩ := t; subst same; rfl

theorem atom_const (opens : t.lexeme.opensConst = true) : atom (budget + 1) (t :: rest) =
    (constant budget (t :: rest)).map (·.map Node.const) := by
  obtain ⟨l, start, text⟩ := t
  cases l with
  | mark m => cases m <;> first | rfl | cases opens
  | _ => first | rfl | cases opens

theorem atom_name {name : String} (same : t.lexeme = .name name) : atom (budget + 1) (t :: rest) =
    (afterName (atom budget) name t.stop rest).map (·.after t) := by
  obtain ⟨_, _, _⟩ := t; subst same; rfl

end

theorem atom_sound (budget : Nat) : SoundAtom (atom budget) (atoms budget) := by
  induction budget with
  | zero => intro ts r read; cases read
  | succ budget ih =>
    intro ts r read start
    cases ts with
    | nil => cases read
    | cons t rest =>
      have starts := opensType_of_atom budget rest read
      cases opens : t.lexeme.opensConst with
      | true =>
        rw [atom_const budget rest opens] at read
        obtain ⟨value, readValue, rfl⟩ := map_eq_ok.mp read
        obtain ⟨used, split, last, spell⟩ := constant_sound budget readValue start
        refine .inl ⟨used, split, last, ?_⟩
        cases used with
        | nil =>
          obtain ⟨l, more, none, -⟩ := (IsConst.shaped spell).starts
          cases none
        | cons u used =>
          obtain rfl : t = u := (List.cons.inj split).1
          exact .const spell opens
      | false =>
        cases same : t.lexeme with
        | mark m =>
          rw [same] at starts opens
          obtain rfl : m = .openParen := by
            cases m <;> first | rfl | (cases starts; done) | cases opens
          rw [atom_group budget rest same] at read
          obtain ⟨inner, readInner, read⟩ := bind_eq_ok.mp read
          obtain ⟨close, readClose, read⟩ := bind_eq_ok.mp read
          cases read
          left
          have group : Spelled (fun v ls => (atoms (budget + 1)).closed v (.mark .openParen :: ls))
              inner.value t.stop close.last rest close.rest :=
            ((typeOver_sound ih).1 readInner t.stop).append (expect_sound .closeParen readClose _)
              fun _ _ inner same => same ▸ .group inner
          exact group.cons fun _ spell => same ▸ spell
        | this =>
          rw [atom_this budget rest same] at read
          cases read
          exact .inl (Spelled.single (same ▸ .this))
        | name name =>
          rw [atom_name budget rest same] at read
          obtain ⟨value, readValue, rfl⟩ := map_eq_ok.mp read
          rcases afterName_sound ih readValue with closed | ⟨signature, stop⟩
          · exact .inl (closed.cons fun _ spell => same ▸ spell)
          · exact .inr ⟨signature.cons fun _ spell => same ▸ spell, stop⟩
        | int | float | quoted => rw [same] at opens; cases opens
        | var | malformed | finish => rw [same] at starts; cases starts

theorem typeRead_sound : Sound typeRead (IsType (atoms maxDepth)) :=
  (typeOver_sound (atom_sound maxDepth)).1

end Hint
end TypeHints
