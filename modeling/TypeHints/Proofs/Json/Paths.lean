import TypeHints.Json.Decode
import TypeHints.Proofs.Json.Scalars

/-!
What a path leads to in a document, which complaints fit a value, and when an error points at a
value that it fits. Marking what is nested too deep hides nothing from a path.
-/
namespace TypeHints.Json

/-! ### Paths -/

/-- The path leads from one document to another. A name leads to every member that has it. -/
inductive Leads : Document → Path → Document → Prop
  | here (d : Document) : Leads d [] d
  | key {members : List (Label × Document)} {stop : Option Fault} {name : String}
      {child : Document} {path : Path} {v : Document} (member : (.ok name, child) ∈ members)
      (more : Leads child path v) : Leads (.object members stop) (.key name :: path) v
  | index {items : List Document} {stop : Option Fault} {n : Nat} {child : Document} {path : Path}
      {v : Document} (item : items[n]? = some child) (more : Leads child path v) :
      Leads (.list items stop) (.index n :: path) v

def Document.labels? : Document → Option (List Label)
  | .object members _ => some (members.map Prod.fst)
  | _ => none

namespace Document

theorem within_eq_object {room : Nat} {d : Document} {members : List (Label × Document)}
    {stop : Option Fault} (h : d.within room = .object members stop) :
    ∃ given room', d = .object given stop ∧
      members = given.map fun m => (m.1, m.2.within room') := by
  cases room <;> cases d <;> cases h
  exact ⟨_, _, rfl, rfl⟩

theorem within_eq_list {room : Nat} {d : Document} {items : List Document} {stop : Option Fault}
    (h : d.within room = .list items stop) :
    ∃ given room', d = .list given stop ∧ items = given.map (within room') := by
  cases room <;> cases d <;> cases h
  exact ⟨_, _, rfl, rfl⟩

theorem labels?_within {room : Nat} {d : Document} {labels : List Label}
    (h : (d.within room).labels? = some labels) : d.labels? = some labels := by
  cases room <;> cases d <;> cases h
  simp [labels?]

theorem kind_within (room : Nat) (d : Document) : (d.within room).kind = d.kind := by
  cases room <;> cases d <;> rfl

end Document

theorem Leads.of_within {room : Nat} {d v : Document} {path : Path}
    (h : Leads (d.within room) path v) :
    ∃ v' room', Leads d path v' ∧ v = v'.within room' := by
  generalize marked : d.within room = d' at h
  induction h generalizing d room with
  | here => exact ⟨d, room, .here d, marked.symm⟩
  | key member _ ih =>
    obtain ⟨given, room', rfl, rfl⟩ := Document.within_eq_object marked
    obtain ⟨⟨label, child⟩, given, same⟩ := List.mem_map.mp member
    cases same
    obtain ⟨v', room', leads, rfl⟩ := ih rfl
    exact ⟨v', room', .key given leads, rfl⟩
  | index item _ ih =>
    obtain ⟨given, room', rfl, rfl⟩ := Document.within_eq_list marked
    rw [List.getElem?_map] at item
    obtain ⟨child, given, rfl⟩ := Option.map_eq_some_iff.mp item
    obtain ⟨v', room', leads, rfl⟩ := ih rfl
    exact ⟨v', room', .index given leads, rfl⟩

/-! ### Complaints about values -/

/-- What a complaint says is so of the value. -/
def Fits (v : Document) : Complaint → Prop
  | .malformed _ => True
  | .missingField name => ∃ labels, v.labels? = some labels ∧ .ok name ∉ labels
  | .duplicateField name => ∃ labels, v.labels? = some labels ∧ [.ok name, .ok name].Sublist labels
  | .unknownField _ _ => False
  | .unknownVariant name _ => v = .text name ∨ ∃ labels, v.labels? = some (.ok name :: labels)
  | .invalidType found _ => found = v.kind ∧ ∀ start fault passed, v ≠ .broken start fault passed
  | .invalidLength _ _ => ∃ items stop, v = .list items stop

theorem Fits.of_within {room : Nat} {v : Document} {complaint : Complaint}
    (h : Fits (v.within room) complaint) : Fits v complaint := by
  cases complaint with
  | malformed fault => trivial
  | missingField name =>
    obtain ⟨labels, shown, absent⟩ := h
    exact ⟨labels, Document.labels?_within shown, absent⟩
  | duplicateField name =>
    obtain ⟨labels, shown, twice⟩ := h
    exact ⟨labels, Document.labels?_within shown, twice⟩
  | unknownField name known => exact h
  | unknownVariant name known =>
    obtain text | ⟨labels, shown⟩ := h
    · cases room <;> cases v <;> cases text <;> exact .inl rfl
    · exact .inr ⟨labels, Document.labels?_within shown⟩
  | invalidType found expected =>
    obtain ⟨kind, whole⟩ := h
    refine ⟨kind.trans (Document.kind_within room v), fun start fault passed same => ?_⟩
    subst same
    exact whole start fault passed (by cases room <;> rfl)
  | invalidLength length expected =>
    obtain ⟨items, stop, isList⟩ := h
    obtain ⟨given, _, isList, -⟩ := Document.within_eq_list isList
    exact ⟨given, stop, isList⟩

/-- The error points at a value that it fits. There are two errors whose last step leads nowhere: that of
a name that holds half a surrogate pair, and that of a case with a value where only its name was
written. The steps before lead to the object with the name, and to the name of the case. -/
inductive Points (d : Document) : DecodeError → Prop
  | value {path : Path} {v : Document} {complaint : Complaint} (leads : Leads d path v)
      (fits : Fits v complaint) : Points d ⟨path, complaint⟩
  | name {path : Path} {v : Document} {labels : List Label} {fault : Fault}
      (leads : Leads d path v) (shown : v.labels? = some labels)
      (undecodable : .error fault ∈ labels) (surrogate : fault ∈ surrogateFaults) :
      Points d ⟨path ++ [.unknown], .malformed fault⟩
  | bareCase {path : Path} {name : String} (leads : Leads d path (.text name)) :
      Points d ⟨path ++ [.key name], .invalidType "unit variant" "newtype variant"⟩

namespace Points

variable {d child : Document} {e : DecodeError}

theorem root {complaint : Complaint} (fits : Fits d complaint) : Points d ⟨[], complaint⟩ :=
  .value (.here d) fits

theorem under_key {members : List (Label × Document)} {stop : Option Fault} {name : String}
    (member : (.ok name, child) ∈ members) (h : Points child e) :
    Points (.object members stop) ⟨.key name :: e.path, e.complaint⟩ := by
  cases h with
  | value leads fits => exact .value (.key member leads) fits
  | name leads shown undecodable surrogate =>
    exact .name (.key member leads) shown undecodable surrogate
  | bareCase leads => exact .bareCase (.key member leads)

theorem under_index {items : List Document} {stop : Option Fault} {n : Nat}
    (item : items[n]? = some child) (h : Points child e) :
    Points (.list items stop) ⟨.index n :: e.path, e.complaint⟩ := by
  cases h with
  | value leads fits => exact .value (.index item leads) fits
  | name leads shown undecodable surrogate =>
    exact .name (.index item leads) shown undecodable surrogate
  | bareCase leads => exact .bareCase (.index item leads)

theorem of_within {room : Nat} (h : Points (d.within room) e) : Points d e := by
  cases h with
  | value leads fits =>
    obtain ⟨v, _, found, rfl⟩ := leads.of_within
    exact .value found fits.of_within
  | name leads shown undecodable surrogate =>
    obtain ⟨v, _, found, rfl⟩ := leads.of_within
    exact .name found (Document.labels?_within shown) undecodable surrogate
  | bareCase leads =>
    obtain ⟨v, room', leads, same⟩ := leads.of_within
    cases room' <;> cases v <;> cases same <;> exact .bareCase leads

end Points

/-! ### Documents of the grammar -/

/-- Every object that a path leads to is closed, and names of its members fail to be decoded for nothing
but half a surrogate pair. -/
def Proper (d : Document) : Prop :=
  ∀ path members stop, Leads d path (.object members stop) →
    stop = none ∧ ∀ fault, .error fault ∈ members.map Prod.fst → fault ∈ surrogateFaults

namespace Proper

variable {d child : Document}

theorem key {members : List (Label × Document)} {stop : Option Fault} {name : String}
    (h : Proper (.object members stop)) (member : (.ok name, child) ∈ members) : Proper child :=
  fun _ _ _ leads => h _ _ _ (.key member leads)

theorem index {items : List Document} {stop : Option Fault} {n : Nat}
    (h : Proper (.list items stop)) (item : items[n]? = some child) : Proper child :=
  fun _ _ _ leads => h _ _ _ (.index item leads)

theorem within (h : Proper d) (room : Nat) : Proper (d.within room) := by
  intro path members stop leads
  obtain ⟨v, room', found, same⟩ := leads.of_within
  obtain ⟨given, _, rfl, rfl⟩ := Document.within_eq_object same.symm
  rw [List.map_map]
  exact h path given stop found

end Proper

def Written (d : Document) : Prop := ∃ cs, TextOf d cs

theorem PaddedOf.written {d : Document} {cs : List Char} (h : PaddedOf d cs) : Written d := by
  obtain ⟨_, text, _⟩ := h
  exact ⟨_, text⟩

theorem ItemsOf.written {items : List Document} {cs : List Char} (h : ItemsOf items cs) :
    ∀ d ∈ items, Written d := by
  match h with
  | .last item => exact List.forall_mem_singleton.mpr item.written
  | .cons item others => exact List.forall_mem_cons.mpr ⟨item.written, others.written⟩

theorem MemberOf.written {m : Label × Document} {cs : List Char} (h : MemberOf m cs) :
    (∃ content, IsContent content ∧ m.1 = labelOf content) ∧ Written m.2 := by
  obtain ⟨_, name, _, value⟩ := h
  exact ⟨⟨_, name, rfl⟩, value.written⟩

theorem MembersOf.written {members : List (Label × Document)} {cs : List Char}
    (h : MembersOf members cs) :
    ∀ m ∈ members, (∃ content, IsContent content ∧ m.1 = labelOf content) ∧ Written m.2 := by
  match h with
  | .last member => exact List.forall_mem_singleton.mpr member.written
  | .cons member others => exact List.forall_mem_cons.mpr ⟨member.written, others.written⟩

theorem Numeral.document_leaf (n : Numeral) :
    (∀ items stop, n.document ≠ .list items stop) ∧
      ∀ members stop, n.document ≠ .object members stop := by
  rw [document]
  obtain ⟨i, scalar⟩ | ⟨x, scalar⟩ | scalar := n.scalar_cases <;> rw [scalar] <;>
    exact ⟨nofun, nofun⟩

theorem Label.document_leaf (label : Label) :
    (∀ items stop, label.document ≠ .list items stop) ∧
      ∀ members stop, label.document ≠ .object members stop := by
  cases label <;> exact ⟨nofun, nofun⟩

theorem Written.object {members : List (Label × Document)} {stop : Option Fault}
    (h : Written (.object members stop)) :
    stop = none ∧
      ∀ m ∈ members, (∃ content, IsContent content ∧ m.1 = labelOf content) ∧ Written m.2 := by
  obtain ⟨cs, text⟩ := h
  generalize same : Document.object members stop = d at text
  cases text with
  | number valid => exact absurd same.symm ((Numeral.document_leaf _).2 _ _)
  | text valid => exact absurd same.symm ((Label.document_leaf _).2 _ _)
  | noMembers => cases same; exact ⟨rfl, nofun⟩
  | object given => cases same; exact ⟨rfl, given.written⟩
  | _ => cases same

theorem Written.list {items : List Document} {stop : Option Fault}
    (h : Written (.list items stop)) : ∀ d ∈ items, Written d := by
  obtain ⟨cs, text⟩ := h
  generalize same : Document.list items stop = d at text
  cases text with
  | number valid => exact absurd same.symm ((Numeral.document_leaf _).1 _ _)
  | text valid => exact absurd same.symm ((Label.document_leaf _).1 _ _)
  | noItems => cases same; exact nofun
  | list given => cases same; exact given.written
  | _ => cases same

theorem Leads.written {d v : Document} {path : Path} (h : Leads d path v) (written : Written d) :
    Written v := by
  induction h with
  | here => exact written
  | key member _ ih => exact ih (written.object.2 _ member).2
  | index item _ ih => exact ih (written.list _ (List.mem_of_getElem? item))

theorem IsJson.proper {text : String} {d : Document} (h : IsJson text d) : Proper d := by
  intro path members stop leads
  obtain ⟨closed, each⟩ := (leads.written (PaddedOf.written h)).object
  refine ⟨closed, fun fault undecodable => ?_⟩
  obtain ⟨m, given, same⟩ := List.mem_map.mp undecodable
  obtain ⟨⟨content, valid, label⟩, -⟩ := each m given
  exact labelOf_error valid (label.symm.trans same)

end TypeHints.Json
