import TypeHints.Native.Table

/-!
# Aliases of a class

The aliases in effect for a class are those of its file, overridden by those of the traits it uses,
each of these with what its own traits override. No class is visited twice.
-/
namespace TypeHints.ClassTable

/-- Adds the aliases of the classes with these names, which are looked for among the classes that are
`left`, and tells which are left then. A class brings its own aliases and those of its traits. Reading
the aliases of a class may fail. -/
def harvest {ε : Type} (aliases : ClassDecl → Except ε (Keyed String String))
    (left : List (String × ClassDecl)) (found : Keyed String String) : (names : List String) →
      Except ε (Keyed String String × { rest : List (String × ClassDecl) // rest.length ≤ left.length })
  | [] => .ok (found, ⟨left, Nat.le_refl _⟩)
  | name :: names =>
    match h : Keyed.valueAt? (ClassName.key name) left with
    | none => harvest aliases left found names
    | some c => do
      have fewer := Keyed.length_dropEntry_lt h
      let own ← aliases c
      let (brought, ⟨rest, visited⟩) ←
        harvest aliases (Keyed.dropEntry (ClassName.key name) left) own c.traits
      let (all, ⟨last, _⟩) ← harvest aliases rest (found.putAll brought) names
      return (all, ⟨last, by omega⟩)
termination_by names => (left.length, names.length)
decreasing_by
  · exact Prod.Lex.right _ (Nat.lt_succ_self _)
  · exact Prod.Lex.left _ _ fewer
  · exact Prod.Lex.left _ _ (Nat.lt_of_le_of_lt visited fewer)

/-- The aliases of a class, registered or not, and of all registered traits that it uses. -/
def aliasesOf {ε : Type} (t : ClassTable) (aliases : ClassDecl → Except ε (Keyed String String))
    (c : ClassDecl) : Except ε (Keyed String String) := do
  let own ← aliases c
  let left := Keyed.dropEntry (ClassName.fold c.name) t.byKey.entries
  (harvest aliases left own c.traits).map Prod.fst

end TypeHints.ClassTable
