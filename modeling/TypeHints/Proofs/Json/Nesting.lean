import TypeHints.Json.Read

namespace TypeHints.Json

mutual

/-- The levels of lists and objects; what is marked as too deep has none. -/
def Document.nesting : Document → Nat
  | .list items _ => nestingItems items + 1
  | .object members _ => nestingMembers members + 1
  | _ => 0

def nestingItems : List Document → Nat
  | [] => 0
  | d :: rest => max d.nesting (nestingItems rest)

def nestingMembers : List (Label × Document) → Nat
  | [] => 0
  | (_, d) :: rest => max d.nesting (nestingMembers rest)

end

theorem nestingItems_le {items : List Document} {n : Nat} :
    nestingItems items ≤ n ↔ ∀ d ∈ items, d.nesting ≤ n := by
  induction items with
  | nil => simp [nestingItems]
  | cons d rest ih => rw [nestingItems, Nat.max_le, List.forall_mem_cons, ih]

theorem nestingMembers_le {members : List (Label × Document)} {n : Nat} :
    nestingMembers members ≤ n ↔ ∀ m ∈ members, m.2.nesting ≤ n := by
  induction members with
  | nil => simp [nestingMembers]
  | cons m rest ih => rw [nestingMembers, Nat.max_le, List.forall_mem_cons, ih]

namespace Document

theorem nesting_list_le {items : List Document} {stop : Option Fault} {n : Nat} :
    (list items stop).nesting ≤ n + 1 ↔ ∀ d ∈ items, d.nesting ≤ n := by
  rw [nesting, Nat.add_le_add_iff_right, nestingItems_le]

theorem nesting_object_le {members : List (Label × Document)} {stop : Option Fault} {n : Nat} :
    (object members stop).nesting ≤ n + 1 ↔ ∀ m ∈ members, m.2.nesting ≤ n := by
  rw [nesting, Nat.add_le_add_iff_right, nestingMembers_le]

theorem nesting_item {items : List Document} {stop : Option Fault} {d : Document}
    (member : d ∈ items) : d.nesting < (list items stop).nesting :=
  Nat.lt_succ_of_le (nestingItems_le.mp (Nat.le_refl _) d member)

theorem nesting_member {members : List (Label × Document)} {stop : Option Fault}
    {m : Label × Document} (member : m ∈ members) : m.2.nesting < (object members stop).nesting :=
  Nat.lt_succ_of_le (nestingMembers_le.mp (Nat.le_refl _) m member)

theorem nesting_ofList_le {items : List Document} {n : Nat} :
    (ofList items).nesting ≤ n ↔ 0 < n ∧ ∀ d ∈ items, d.nesting < n := by
  cases n with
  | zero => simp [ofList, nesting]
  | succ n =>
    rw [ofList, nesting_list_le]
    simp only [Nat.lt_succ_iff, Nat.zero_le, true_and]

theorem nesting_ofMembers_le {members : List (String × Document)} {n : Nat} :
    (ofMembers members).nesting ≤ n ↔ 0 < n ∧ ∀ m ∈ members, m.2.nesting < n := by
  cases n with
  | zero => simp [ofMembers, nesting]
  | succ n =>
    rw [ofMembers, nesting_object_le, List.forall_mem_map]
    simp only [Nat.lt_succ_iff, Nat.zero_le, true_and]

theorem nesting_ofText? (s : Option String) : (ofText? s).nesting = 0 := by
  cases s <;> rfl

theorem within_of_nesting {room : Nat} {d : Document} (shallow : d.nesting ≤ room) :
    d.within room = d := by
  induction room generalizing d with
  | zero => cases d <;> simp [nesting, within] at shallow ⊢
  | succ room ih =>
    cases d with
    | list items stop =>
      have each := nesting_list_le.mp shallow
      have same : items.map (within room) = items :=
        (List.map_congr_left fun d member => ih (each d member)).trans (List.map_id _)
      rw [within, same]
    | object members stop =>
      have each := nesting_object_le.mp shallow
      have same : members.map (fun m => (m.1, m.2.within room)) = members :=
        (List.map_congr_left fun m member => congrArg (m.1, ·) (ih (each m member))).trans
          (List.map_id _)
      exact congrArg (object · stop) same
    | _ => rfl

theorem nesting_within (room : Nat) (d : Document) : (d.within room).nesting ≤ room := by
  induction room generalizing d with
  | zero => cases d <;> simp [nesting, within]
  | succ room ih =>
    cases d with
    | list items stop =>
      rw [within, nesting_list_le]
      intro d member
      obtain ⟨d, -, rfl⟩ := List.mem_map.mp member
      exact ih d
    | object members stop =>
      rw [within, nesting_object_le]
      intro m member
      obtain ⟨m, -, rfl⟩ := List.mem_map.mp member
      exact ih m.2
    | _ => exact Nat.zero_le _

end Document

end TypeHints.Json
