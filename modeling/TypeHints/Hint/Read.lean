import TypeHints.Hint.Scan
import TypeHints.Hint.Tree

/-!
# Reading type expressions

Recursive descent over the tokens. Loosest first, `|` binds members, then `&`, then a leading `?`,
then the suffix `[]` on an atom. Every reader returns the tokens that it leaves with a proof that
they are fewer, so loops end; nesting is paid from a budget of `maxDepth` levels, on which `atom`
and `constant` recurse.
-/
namespace TypeHints.Hint
open Decimal

inductive Expectation where
  | type
  | mark (m : Mark)
  | constant
  | constantName
  | finish
  deriving DecidableEq, Repr

def Expectation.describe : Expectation → String
  | .type => "type"
  | .mark m => s!"\"{m.text}\""
  | .constant => "constant expression"
  | .constantName => "constant name"
  | .finish => "end of input"

inductive Fault where
  | malformed (what : Malformed)
  | unexpected (wanted : Expectation) (found : Lexeme)
  | noTypeArgument
  | shapeTail
  | keylessObjectItem
  | tooDeep
  deriving DecidableEq, Repr

def Fault.message : Fault → String
  | .malformed what => what.message
  | .unexpected wanted found => s!"expected {wanted.describe}, found {found.describe}"
  | .noTypeArgument => "generic type requires at least one argument"
  | .shapeTail => "unsealed shape takes one or two types"
  | .keylessObjectItem => "object shape items require a key"
  | .tooDeep => s!"nesting deeper than {maxDepth} levels"

/-- Why a text is no type expression, and the byte offset where that shows. -/
structure ReadError where
  fault : Fault
  offset : Nat
  deriving DecidableEq, Repr

def ReadError.message (e : ReadError) : String := s!"{e.fault.message} at offset {e.offset}"

/-! ### Readers -/

/-- A value read from `ts`, where its last token ends, and the tokens after it. -/
structure Read (ts : List Token) (α : Type) where
  value : α
  last : Nat
  rest : List Token
  shorter : rest.length < ts.length

/-- A value that may have been read from no token at all. -/
structure Trail (ts : List Token) (α : Type) where
  value : α
  last : Nat
  rest : List Token
  noLonger : rest.length ≤ ts.length

abbrev Reader (α : Type) := (ts : List Token) → Except ReadError (Read ts α)

namespace Read

def map {ts : List Token} {α β : Type} (f : α → β) (r : Read ts α) : Read ts β :=
  ⟨f r.value, r.last, r.rest, r.shorter⟩

def after {ts : List Token} {α : Type} (t : Token) (r : Read ts α) : Read (t :: ts) α :=
  ⟨r.value, r.last, r.rest, Nat.lt_succ_of_lt r.shorter⟩

def followed {ts : List Token} {α β : Type} (r : Read ts α) (t : Trail r.rest β) (f : α → β → γ) :
    Read ts γ :=
  ⟨f r.value t.value, t.last, t.rest, Nat.lt_of_le_of_lt t.noLonger r.shorter⟩

def andThen {ts : List Token} {α β : Type} (r : Read ts α) (s : Read r.rest β) (f : α → β → γ) :
    Read ts γ :=
  ⟨f r.value s.value, s.last, s.rest, Nat.lt_trans s.shorter r.shorter⟩

end Read

namespace Trail

def map {ts : List Token} {α β : Type} (f : α → β) (r : Trail ts α) : Trail ts β :=
  ⟨f r.value, r.last, r.rest, r.noLonger⟩

/-- With the token in front, at least one token has been read. -/
def after {ts : List Token} {α : Type} (t : Token) (r : Trail ts α) : Read (t :: ts) α :=
  ⟨r.value, r.last, r.rest, Nat.lt_succ_of_le r.noLonger⟩

end Trail

def Read.toTrail {ts : List Token} {α : Type} (r : Read ts α) : Trail ts α :=
  ⟨r.value, r.last, r.rest, Nat.le_of_lt r.shorter⟩

def offsetOf : List Token → Nat
  | t :: _ => t.start
  | [] => 0

/-- The error of meeting the next token; malformed text speaks for itself. -/
def unexpected (wanted : Expectation) : List Token → ReadError
  | t :: _ =>
    match t.lexeme with
    | .malformed what => ⟨.malformed what, t.start⟩
    | found => ⟨.unexpected wanted found, t.start⟩
  | [] => ⟨.unexpected wanted .finish, 0⟩

def nextIs (m : Mark) : List Token → Bool
  | t :: _ => t.is m
  | [] => false

def expect (m : Mark) : Reader Unit
  | t :: rest =>
    if t.is m then .ok ⟨(), t.stop, rest, Nat.lt_succ_self _⟩
    else .error (unexpected (.mark m) (t :: rest))
  | [] => .error (unexpected (.mark m) [])

/-- Takes the mark `m` if it comes next; `last` is where the token before ends. -/
def optionally (m : Mark) (last : Nat) : (ts : List Token) → Trail ts Bool
  | t :: rest =>
    if t.is m then ⟨true, t.stop, rest, Nat.le_succ _⟩
    else ⟨false, last, t :: rest, Nat.le_refl _⟩
  | [] => ⟨false, last, [], Nat.le_refl _⟩

variable {α : Type}

/-- Further items, each after a token at which `joins` holds. -/
def many (joins : List Token → Bool) (item : Reader α) (last : Nat) :
    (ts : List Token) → Except ReadError (Trail ts (List α))
  | [] => .ok ⟨[], last, [], Nat.le_refl _⟩
  | t :: rest =>
    if joins (t :: rest) then do
      let first ← item rest
      let others ← many joins item first.last first.rest
      return ⟨first.value :: others.value, others.last, others.rest, by
        have := first.shorter; have := others.noLonger; simp only [List.length_cons]; omega⟩
    else .ok ⟨[], last, t :: rest, Nat.le_refl _⟩
termination_by ts => ts.length
decreasing_by have := first.shorter; simp only [List.length_cons]; omega

/-- Items between commas up to `close`; a comma may stand before `close`. -/
def listing (close : Mark) (item : Reader α) (ts : List Token) :
    Except ReadError (Read ts (List α)) :=
  if nextIs close ts then (expect close ts).map (·.map fun _ => [])
  else do
    let first ← item ts
    match h : first.rest with
    | t :: rest =>
      have fewer : rest.length < ts.length := by
        have := first.shorter; simp only [h, List.length_cons] at this; omega
      if t.is .comma then do
        let others ← listing close item rest
        return ⟨first.value :: others.value, others.last, others.rest,
          Nat.lt_trans others.shorter fewer⟩
      else if t.is close then return ⟨[first.value], t.stop, rest, fewer⟩
      else throw (unexpected (.mark close) (t :: rest))
    | [] => throw (unexpected (.mark close) [])
termination_by ts.length

/-! ### Types over a given atom -/

/-- Each suffix `[]` wraps what stands before it. -/
def suffixes (node : Node) (last : Nat) : (ts : List Token) → Trail ts Node
  | t :: u :: rest =>
    if t.is .openSquare && u.is .closeSquare then
      let more := suffixes (.array node) u.stop rest
      ⟨more.value, more.last, more.rest, by
        have := more.noLonger; simp only [List.length_cons]; omega⟩
    else ⟨node, last, t :: u :: rest, Nat.le_refl _⟩
  | ts => ⟨node, last, ts, Nat.le_refl _⟩

def postfixed (atom : Reader Node) : Reader Node := fun ts => do
  let r ← atom ts
  return r.followed (suffixes r.value r.last r.rest) fun _ node => node

/-- One leading `?`, and no second one. -/
def nullable (atom : Reader Node) : Reader Node
  | t :: rest =>
    if t.is .question then do
      let r ← postfixed atom rest
      return (r.map Node.nullable).after t
    else postfixed atom (t :: rest)
  | [] => postfixed atom []

/-- `&` before a variable or `...` marks a parameter passed by reference. -/
def atIntersection : List Token → Bool
  | t :: u :: _ =>
    t.is .amp && !(match u.lexeme with
      | .var _ => true
      | .mark .ellipsis => true
      | _ => false)
  | [t] => t.is .amp
  | [] => false

/-- Items joined by a mark; a single one stays itself. -/
def joined (joins : List Token → Bool) (wrap : List Node → Node) (item : Reader Node) :
    Reader Node := fun ts => do
  let first ← item ts
  let others ← many joins item first.last first.rest
  return first.followed others fun x xs => if xs.isEmpty then x else wrap (x :: xs)

def intersection (atom : Reader Node) : Reader Node :=
  joined atIntersection .intersection (nullable atom)

def typeOver (atom : Reader Node) : Reader Node :=
  joined (nextIs .pipe) .union (intersection atom)

/-! ### Shapes -/

def shapeKey? : Lexeme → Option ShapeKey
  | .name text => some (.name text)
  | .int value => some (.int value)
  | .quoted text => some (.quoted text)
  | _ => none

/-- A key with the colon after it, and perhaps a `?` between the two. -/
def takeSlot : (ts : List Token) → Option (Slot × { rest : List Token // rest.length < ts.length })
  | k :: t :: rest =>
    match shapeKey? k.lexeme with
    | some key =>
      if t.is .colon then some (⟨some key, false⟩, ⟨rest, by simp only [List.length_cons]; omega⟩)
      else
        match rest with
        | u :: more =>
          if t.is .question && u.is .colon then
            some (⟨some key, true⟩, ⟨more, by simp only [List.length_cons]; omega⟩)
          else none
        | [] => none
    | none => none
  | _ => none

def shapeItem (type : Reader Node) : Reader (Slot × Node) := fun ts =>
  match takeSlot ts with
  | some (slot, ⟨rest, fewer⟩) => do
    let r ← type rest
    return ⟨(slot, r.value), r.last, r.rest, Nat.lt_trans r.shorter fewer⟩
  | none => do
    let r ← type ts
    return r.map fun node => ({}, node)

/-- The types in angle brackets after `...`: of the values, or of the keys and the values. -/
def shapeTail (type : Reader Node) (last : Nat) :
    (ts : List Token) → Except ReadError (Trail ts (Option (Option Node × Node)))
  | t :: rest =>
    if t.is .openAngle then do
      let args ← listing .closeAngle type rest
      match args.value with
      | [value] => return ((args.map fun _ => some (none, value)).after t).toTrail
      | [key, value] => return ((args.map fun _ => some (some key, value)).after t).toTrail
      | _ => throw ⟨.shapeTail, args.last⟩
    else .ok ⟨none, last, t :: rest, Nat.le_refl _⟩
  | [] => .ok ⟨none, last, [], Nat.le_refl _⟩

/-- The items of an array shape, whether it is sealed, and its tail. -/
abbrev ShapeBody := List (Slot × Node) × Bool × Option (Option Node × Node)

/-- What follows the opening brace of an array shape. -/
def shapeBody (type : Reader Node) : Reader ShapeBody
  | t :: rest => do
    if t.is .closeCurly then return ⟨([], true, none), t.stop, rest, Nat.lt_succ_self _⟩
    else if t.is .ellipsis then
      let tail ← shapeTail type t.stop rest
      let comma := optionally .comma tail.last tail.rest
      let close ← expect .closeCurly comma.rest
      return ⟨([], false, tail.value), close.last, close.rest, by
        have := tail.noLonger; have := comma.noLonger; have := close.shorter
        simp only [List.length_cons]; omega⟩
    else
      let item ← shapeItem type (t :: rest)
      match h : item.rest with
      | u :: more =>
        have fewer : more.length < (t :: rest).length := by
          have := item.shorter; simp only [h, List.length_cons] at this ⊢; omega
        if u.is .comma then
          let others ← shapeBody type more
          return ⟨(item.value :: others.value.1, others.value.2), others.last, others.rest,
            Nat.lt_trans others.shorter fewer⟩
        else if u.is .closeCurly then return ⟨([item.value], true, none), u.stop, more, fewer⟩
        else throw (unexpected (.mark .closeCurly) (u :: more))
      | [] => throw (unexpected (.mark .closeCurly) [])
  | [] => do
    let item ← shapeItem type []
    return item.map fun x => ([x], true, none)
termination_by ts => ts.length
decreasing_by exact fewer

def objectItem (type : Reader Node) : Reader (Slot × Node) := fun ts => do
  let item ← shapeItem type ts
  if item.value.1.key.isNone then throw ⟨.keylessObjectItem, offsetOf ts⟩
  return item

/-! ### Signatures -/

def variableName (last : Nat) : (ts : List Token) → Trail ts (Option String)
  | t :: rest =>
    match t.lexeme with
    | .var name => ⟨some name, t.stop, rest, Nat.le_succ _⟩
    | _ => ⟨none, last, t :: rest, Nat.le_refl _⟩
  | [] => ⟨none, last, [], Nat.le_refl _⟩

def param (type : Reader Node) : Reader (Node × ParamMarks) := fun ts => do
  let r ← type ts
  let byRef := optionally .amp r.last r.rest
  let variadic := optionally .ellipsis byRef.last byRef.rest
  let name := variableName variadic.last variadic.rest
  let optional := optionally .equal name.last name.rest
  return ⟨(r.value, ⟨byRef.value, variadic.value, name.value, optional.value⟩), optional.last,
    optional.rest, by
      have := r.shorter; have := byRef.noLonger; have := variadic.noLonger
      have := name.noLonger; have := optional.noLonger; omega⟩

def signature (atom : Reader Node) (callee : String) : Reader Node := fun ts => do
  let params ← listing .closeParen (param (typeOver atom)) ts
  let colon ← expect .colon params.rest
  let result ← nullable atom colon.rest
  return ⟨.callable callee params.value result.value, result.last, result.rest, by
    have := params.shorter; have := colon.shorter; have := result.shorter; omega⟩

/-! ### Constants -/

/-- The constant after `::`, a name or a wildcard or a name ending in one. -/
def constFetch (owner : String) : Reader Const
  | t :: rest =>
    match t.lexeme with
    | .name text =>
      let star := optionally .star t.stop rest
      .ok ((star.map fun wild => .fetch owner (if wild then text ++ "*" else text)).after t)
    | .mark .star => .ok ⟨.fetch owner "*", t.stop, rest, Nat.lt_succ_self _⟩
    | _ => .error (unexpected .constantName (t :: rest))
  | [] => .error (unexpected .constantName [])

/-- An item of a constant array, with its key before `=>` if it has one. -/
def constItem (const : Reader Const) : Reader (Option Const × Const) := fun ts => do
  let first ← const ts
  match h : first.rest with
  | t :: rest =>
    if t.is .arrow then
      let value ← const rest
      return ⟨(some first.value, value.value), value.last, value.rest, by
        have fewer := first.shorter; have := value.shorter
        simp only [h, List.length_cons] at fewer; omega⟩
    else return first.map fun value => (none, value)
  | [] => return first.map fun value => (none, value)

/-- A constant expression within `budget` levels. -/
def constant : (budget : Nat) → Reader Const
  | 0 => fun ts => .error ⟨.tooDeep, offsetOf ts⟩
  | budget + 1 => fun ts =>
    match ts with
    | t :: rest =>
      match t.lexeme with
      | .int value => .ok ⟨.int value, t.stop, rest, Nat.lt_succ_self _⟩
      | .float value => .ok ⟨.float value, t.stop, rest, Nat.lt_succ_self _⟩
      | .quoted text => .ok ⟨.quoted text, t.stop, rest, Nat.lt_succ_self _⟩
      | .mark .openSquare => do
        let items ← listing .closeSquare (constItem (constant budget)) rest
        return (items.map Const.array).after t
      | .name text =>
        match rest with
        | u :: more =>
          if u.is .doubleColon then (constFetch text more).map fun r => (r.after u).after t
          else .ok ⟨.name text, t.stop, u :: more, Nat.lt_succ_self _⟩
        | [] => .ok ⟨.name text, t.stop, [], Nat.lt_succ_self _⟩
      | _ => .error (unexpected .constant (t :: rest))
    | [] => .error (unexpected .constant [])

/-! ### Atoms -/

/-- What a name turns into by what follows it; `last` is where the name ends. -/
def afterName (atom : Reader Node) (name : String) (last : Nat) :
    (ts : List Token) → Except ReadError (Trail ts Node)
  | t :: rest =>
    match t.lexeme with
    | .mark .openAngle => do
      let args ← listing .closeAngle (typeOver atom) rest
      if args.value.isEmpty then throw ⟨.noTypeArgument, args.last⟩
      return ((args.map fun args => .generic (.name name) args).after t).toTrail
    | .mark .openCurly =>
      match ShapeKind.ofName? name with
      | some kind => do
        let body ← shapeBody (typeOver atom) rest
        return ((body.map fun (items, isSealed, tail) =>
          .arrayShape kind items isSealed tail).after t).toTrail
      | none =>
        if name = "object" then do
          let items ← listing .closeCurly (objectItem (typeOver atom)) rest
          return ((items.map Node.objectShape).after t).toTrail
        else .ok ⟨.name name, last, t :: rest, Nat.le_refl _⟩
    | .mark .openParen =>
      if name ∈ calleeNames then do
        let r ← signature atom name rest
        return (r.after t).toTrail
      else .ok ⟨.name name, last, t :: rest, Nat.le_refl _⟩
    | .mark .doubleColon => do
      let r ← constFetch name rest
      return ((r.map Node.const).after t).toTrail
    | _ => .ok ⟨.name name, last, t :: rest, Nat.le_refl _⟩
  | [] => .ok ⟨.name name, last, [], Nat.le_refl _⟩

def atom : (budget : Nat) → Reader Node
  | 0 => fun ts => .error ⟨.tooDeep, offsetOf ts⟩
  | budget + 1 => fun ts =>
    match ts with
    | t :: rest =>
      match t.lexeme with
      | .mark .openParen => do
        let inner ← typeOver (atom budget) rest
        let close ← expect .closeParen inner.rest
        return (inner.andThen close fun node _ => node).after t
      | .this => .ok ⟨.this, t.stop, rest, Nat.lt_succ_self _⟩
      | .int _ | .float _ | .quoted _ | .mark .openSquare =>
        (constant budget (t :: rest)).map (·.map Node.const)
      | .name name => (afterName (atom budget) name t.stop rest).map (·.after t)
      | _ => .error (unexpected .type (t :: rest))
    | [] => .error (unexpected .type [])

/-! ### Whole texts -/

def typeRead : Reader Node := typeOver (atom maxDepth)

/-- The type expression that a text starts with, and the byte offset right after it. -/
def readPrefix (text : String) : Except ReadError (Node × Nat) :=
  (typeRead (tokens text)).map fun r => (r.value, r.last)

def read (text : String) : Except ReadError Node := do
  let r ← typeRead (tokens text)
  match r.rest with
  | t :: _ => if t.lexeme = .finish then return r.value else throw (unexpected .finish r.rest)
  | [] => return r.value

end TypeHints.Hint
