import Mathlib.Data.List.Forall2
import TypeHints.Proofs.Except
import TypeHints.Proofs.World.Names
import TypeHints.Proofs.World.Query
import TypeHints.Proofs.World.Reachability
import TypeHints.World.Aliases

/-!
The aliases of a class are gathered class by class in depth-first order, although each class first
gathers those of its own traits.
-/
namespace TypeHints.ClassTable

variable {left : List (String × ClassDecl)} {name : String} {queue : List String}

/-! ### Depth-first order -/

/-- The classes that the names in `queue` and the traits behind them stand for among those that are
`left`, depth first and each one once, and what is left then. -/
def visit (left : List (String × ClassDecl)) : (queue : List String) →
    List ClassDecl × List (String × ClassDecl)
  | [] => ([], left)
  | name :: queue =>
    match _h : Keyed.valueAt? (ClassName.key name) left with
    | some c =>
      let (later, rest) := visit (Keyed.dropEntry (ClassName.key name) left) (c.traits ++ queue)
      (c :: later, rest)
    | none => visit left queue
termination_by queue => (left.length, queue.length)
decreasing_by
  · exact Prod.Lex.left _ _ (Keyed.length_dropEntry_lt _h)
  · exact Prod.Lex.right _ (Nat.lt_succ_self _)

/-- A class and the traits that it uses, directly or through others: each class comes before its traits,
and all that comes with a trait before the next trait. -/
def traitOrder (t : ClassTable) (name : String) : List ClassDecl := (visit t.byKey.entries [name]).1

@[simp] theorem visit_nil (left : List (String × ClassDecl)) : visit left [] = ([], left) := by
  rw [visit]

theorem visit_step {c : ClassDecl} (known : Keyed.valueAt? (ClassName.key name) left = some c) :
    visit left (name :: queue) =
      (c :: (visit (Keyed.dropEntry (ClassName.key name) left) (c.traits ++ queue)).1,
        (visit (Keyed.dropEntry (ClassName.key name) left) (c.traits ++ queue)).2) := by
  rw [visit]
  split
  next d again =>
    rw [known] at again
    cases again
    rfl
  next none =>
    rw [known] at none
    cases none

theorem visit_skip (absent : Keyed.valueAt? (ClassName.key name) left = none) :
    visit left (name :: queue) = visit left queue := by
  rw [visit]
  split
  next c found =>
    rw [absent] at found
    cases found
  next => rfl

theorem visit_append (names queue : List String) : visit left (names ++ queue) =
    ((visit left names).1 ++ (visit (visit left names).2 queue).1,
      (visit (visit left names).2 queue).2) := by
  fun_induction visit left names with
  | case1 left => simp
  | case2 left name names c known later rest visited ih =>
    rw [List.append_assoc] at ih
    rw [List.cons_append, visit_step known, ih]
    simp [visited]
  | case3 left name names absent ih => rw [List.cons_append, visit_skip absent, ih]

theorem length_visit_le (left : List (String × ClassDecl)) (queue : List String) :
    (visit left queue).2.length ≤ left.length := by
  fun_induction visit left queue with
  | case1 left => exact Nat.le_refl _
  | case2 left name queue c known later rest visited ih =>
    rw [visited] at ih
    exact Nat.le_trans ih (List.length_filter_le _ _)
  | case3 left name queue absent ih => exact ih

theorem mem_visit_iff {d : ClassDecl} : d ∈ (visit left queue).1 ↔
    ∃ key, Keyed.valueAt? key left = some d ∧ ∃ name ∈ queue, Leads ClassDecl.traits left key name := by
  fun_induction visit left queue with
  | case1 left => simp
  | case2 left name queue c known later rest visited ih =>
    rw [visited] at ih
    constructor
    · intro member
      rcases List.mem_cons.mp member with rfl | member
      · exact ⟨_, known, name, List.mem_cons_self, .here rfl⟩
      · obtain ⟨key, found, way⟩ := ih.mp member
        have other : ClassName.key name ≠ key := by
          rintro rfl
          rw [Keyed.valueAt?_dropEntry_self] at found
          cases found
        rw [Keyed.valueAt?_dropEntry_of_ne (Ne.symm other)] at found
        exact ⟨key, found, (exists_leads_visit other known).mpr way⟩
    · rintro ⟨key, found, way⟩
      by_cases same : ClassName.key name = key
      · subst same
        cases known.symm.trans found
        exact List.mem_cons_self
      · refine List.mem_cons_of_mem _ (ih.mpr ⟨key, ?_, (exists_leads_visit same known).mp way⟩)
        rw [Keyed.valueAt?_dropEntry_of_ne (Ne.symm same), found]
  | case3 left name queue absent ih =>
    rw [ih]
    refine exists_congr fun key => and_congr_right fun found => ?_
    have other : ClassName.key name ≠ key := by
      rintro rfl
      rw [absent] at found
      cases found
    exact (exists_leads_skip other absent).symm

theorem visit_nodup (named : ∀ e ∈ left, e.1 = ClassName.key e.2.name) :
    ((visit left queue).1.map fun d => ClassName.key d.name).Nodup := by
  fun_induction visit left queue with
  | case1 left => exact List.nodup_nil
  | case2 left name queue c known later rest visited ih =>
    have kept : ∀ e ∈ Keyed.dropEntry (ClassName.key name) left, e.1 = ClassName.key e.2.name :=
      fun e member => named e (List.mem_filter.mp member).1
    have own : ClassName.key name = ClassName.key c.name :=
      named (ClassName.key name, c) (Keyed.mem_of_valueAt? known)
    rw [visited] at ih
    have others := ih kept
    rw [List.map_cons, List.nodup_cons]
    refine ⟨fun again => ?_, others⟩
    obtain ⟨d, member, same⟩ := List.mem_map.mp again
    have member : d ∈ (visit (Keyed.dropEntry (ClassName.key name) left) (c.traits ++ queue)).1 := by
      rwa [visited]
    obtain ⟨key, found, -⟩ := mem_visit_iff.mp member
    have there : key = ClassName.key d.name := kept (key, d) (Keyed.mem_of_valueAt? found)
    obtain rfl : key = ClassName.key name := there.trans (same.trans own.symm)
    rw [Keyed.valueAt?_dropEntry_self] at found
    cases found
  | case3 left name queue absent ih => exact ih named

/-! ### Aliases read class by class -/

variable {ε : Type} {aliases : ClassDecl → Except ε (Keyed String String)}

def gather (aliases : ClassDecl → Except ε (Keyed String String)) (found : Keyed String String)
    (order : List ClassDecl) : Except ε (Keyed String String) := do
  let tables ← order.mapM aliases
  return tables.foldl Keyed.putAll found

@[simp] theorem gather_nil (found : Keyed String String) : gather aliases found [] = .ok found := rfl

theorem gather_cons (found : Keyed String String) (c : ClassDecl) (order : List ClassDecl) :
    gather aliases found (c :: order) =
      (aliases c >>= fun own => gather aliases (found.putAll own) order) := by
  simp only [gather, List.mapM_cons, bind_assoc, pure_bind, List.foldl_cons]

theorem gather_append (found : Keyed String String) (order later : List ClassDecl) :
    gather aliases found (order ++ later) =
      (gather aliases found order >>= fun found => gather aliases found later) := by
  induction order generalizing found with
  | nil => rfl
  | cons c order ih => simp only [List.cons_append, gather_cons, ih, bind_assoc]

theorem gather_putAll (found own : Keyed String String) (order : List ClassDecl) :
    gather aliases (found.putAll own) order = found.putAll <$> gather aliases own order := by
  induction order generalizing own with
  | nil => rfl
  | cons c order ih => simp only [gather_cons, Keyed.putAll_assoc, ih, map_bind]

def harvestAll (aliases : ClassDecl → Except ε (Keyed String String))
    (left : List (String × ClassDecl)) (found : Keyed String String) (names : List String) :
    Except ε (Keyed String String × List (String × ClassDecl)) :=
  (fun r => (r.1, r.2.val)) <$> harvest aliases left found names

theorem harvestAll_step (found : Keyed String String) {names : List String} {c : ClassDecl}
    (known : Keyed.valueAt? (ClassName.key name) left = some c) :
    harvestAll aliases left found (name :: names) = (do
      let own ← aliases c
      let (brought, rest) ←
        harvestAll aliases (Keyed.dropEntry (ClassName.key name) left) own c.traits
      harvestAll aliases rest (found.putAll brought) names) := by
  rw [harvestAll, harvest]
  split
  next none =>
    rw [known] at none
    cases none
  next d again =>
    rw [known] at again
    cases again
    simp only [harvestAll, bind_map_left, map_bind]
    rfl

theorem harvestAll_skip (found : Keyed String String) {names : List String}
    (absent : Keyed.valueAt? (ClassName.key name) left = none) :
    harvestAll aliases left found (name :: names) = harvestAll aliases left found names := by
  rw [harvestAll, harvest]
  split
  next => rfl
  next c known =>
    rw [absent] at known
    cases known

/-- Gathering what each class brings is reading the classes in depth-first order. -/
theorem harvestAll_eq (found : Keyed String String) (names : List String) :
    harvestAll aliases left found names =
      (fun all => (all, (visit left names).2)) <$> gather aliases found (visit left names).1 := by
  -- The induction is that of the walk. The names behind a class are visited with what its traits
  -- have left over, which is no longer than what there was (`length_visit_le`).
  fun_induction harvest aliases left found names with
  | case1 left found =>
    rw [harvestAll, harvest, visit_nil]
    rfl
  | case2 left found name names absent ih => rw [harvestAll_skip found absent, visit_skip absent, ih]
  | case3 left found name names c known fewer ihTraits ihNames =>
    have rest (brought : Keyed String String) := ihNames brought _ (length_visit_le _ c.traits)
    rw [harvestAll_step found known, visit_step known, gather_cons, map_bind, visit_append]
    refine bind_congr fun own => ?_
    simp only [ihTraits, bind_map_left, rest, gather_append, gather_putAll, map_bind]

theorem aliasesOf_eq_gather (t : ClassTable) (c : ClassDecl) :
    t.aliasesOf aliases c = gather aliases Keyed.empty
      (c :: (visit (Keyed.dropEntry (ClassName.fold c.name) t.byKey.entries) c.traits).1) := by
  rw [aliasesOf, gather_cons]
  refine bind_congr fun own => ?_
  have first (left : List (String × ClassDecl)) : (harvest aliases left own c.traits).map Prod.fst =
      Prod.fst <$> harvestAll aliases left own c.traits := by
    rw [harvestAll, Functor.map_map]
    rfl
  rw [first, harvestAll_eq, Functor.map_map, Keyed.empty_putAll]
  exact id_map _

theorem aliasesOf_eq {t : ClassTable} {c : ClassDecl} (registered : t.find? name = some c) :
    t.aliasesOf aliases c = gather aliases Keyed.empty (t.traitOrder name) := by
  obtain ⟨named, unrooted⟩ := name_of_find? registered
  have same : ClassName.fold c.name = ClassName.key name := by rw [← named, ClassName.key, unrooted]
  rw [aliasesOf_eq_gather, same, traitOrder, visit_step registered, List.append_nil]

theorem aliasesOf_of_traits_nil {t : ClassTable} {c : ClassDecl} (alone : c.traits = []) :
    t.aliasesOf aliases c = aliases c := by
  rw [aliasesOf_eq_gather, alone, visit_nil, gather_cons]
  simp only [gather_nil, Keyed.empty_putAll]
  exact bind_pure _

theorem settles_aliasesOf_of_traits_nil {w : World} {c : ClassDecl} (alone : c.traits = []) :
    (Query.aliasesOf c).Settles w (w.fileAliases c) := by
  have read := Query.settles_aliasesOf (w := w) c
  rwa [aliasesOf_of_traits_nil alone] at read

/-! ### What is gathered -/

theorem gather_eq_ok {found uses : Keyed String String} {order : List ClassDecl} :
    gather aliases found order = .ok uses ↔ ∃ tables,
      List.Forall₂ (fun d own => aliases d = .ok own) order tables ∧
        uses = tables.foldl Keyed.putAll found := by
  induction order generalizing found with
  | nil => simp [eq_comm]
  | cons d order ih =>
    simp only [gather_cons, bind_eq_ok, ih]
    constructor
    · rintro ⟨own, read, tables, rest, rfl⟩
      exact ⟨own :: tables, .cons read rest, rfl⟩
    · rintro ⟨tables, read, rfl⟩
      cases read with
      | cons read rest => exact ⟨_, read, _, rest, rfl⟩

theorem gather_eq_error {found : Keyed String String} {order : List ClassDecl} {e : ε} :
    gather aliases found order = .error e ↔ ∃ before d after, order = before ++ d :: after ∧
      (∀ b ∈ before, ∃ own, aliases b = .ok own) ∧ aliases d = .error e := by
  induction order generalizing found with
  | nil => simp
  | cons c order ih =>
    simp only [gather_cons, bind_eq_error, ih]
    constructor
    · rintro (failed | ⟨own, read, before, d, after, rfl, reads, failed⟩)
      · exact ⟨[], c, order, rfl, List.forall_mem_nil _, failed⟩
      · exact ⟨c :: before, d, after, rfl, List.forall_mem_cons.mpr ⟨⟨own, read⟩, reads⟩, failed⟩
    · rintro ⟨before, d, after, same, reads, failed⟩
      cases before with
      | nil =>
        cases same
        exact .inl failed
      | cons b before =>
        cases same
        obtain ⟨⟨own, read⟩, reads⟩ := List.forall_mem_cons.mp reads
        exact .inr ⟨own, read, before, d, after, rfl, reads, failed⟩

theorem exists_forall₂_iff {order : List ClassDecl} :
    (∃ tables, List.Forall₂ (fun d own => aliases d = .ok own) order tables) ↔
      ∀ d ∈ order, ∃ own, aliases d = .ok own := by
  induction order with
  | nil => simp
  | cons d order ih =>
    rw [List.forall_mem_cons, ← ih]
    constructor
    · rintro ⟨_, read⟩
      cases read with
      | cons read rest => exact ⟨⟨_, read⟩, _, rest⟩
    · rintro ⟨⟨own, read⟩, tables, rest⟩
      exact ⟨own :: tables, .cons read rest⟩

/-! ### The order of the traits -/

/-- A way through the traits of a table. -/
def UsesTrait (t : ClassTable) (name trait : String) : Prop :=
  Leads ClassDecl.traits t.byKey.entries (ClassName.key trait) name

theorem mem_traitOrder_iff {t : ClassTable} {d : ClassDecl} :
    d ∈ t.traitOrder name ↔ t.find? d.name = some d ∧ t.UsesTrait name d.name := by
  rw [traitOrder, mem_visit_iff]
  simp only [List.mem_singleton, exists_eq_left]
  constructor
  · rintro ⟨key, found, way⟩
    obtain rfl : key = ClassName.key d.name := (t.named (key, d) (Keyed.mem_of_valueAt? found)).1
    exact ⟨found, way⟩
  · rintro ⟨found, way⟩
    exact ⟨_, found, way⟩

theorem traitOrder_nodup (t : ClassTable) (name : String) :
    ((t.traitOrder name).map fun d => ClassName.key d.name).Nodup :=
  visit_nodup fun e member => (t.named e member).1

theorem head?_traitOrder {t : ClassTable} {c : ClassDecl} (registered : t.find? name = some c) :
    (t.traitOrder name).head? = some c := by
  rw [traitOrder, visit_step registered]
  rfl

/-- Aliases of a class are harvested from the classes that traits lead to, the class first, each one
once and in depth-first order. They are there if all of these can be read, and else the first that
cannot decides over the failure. The tables are put in this order, so an alias has the target in the
last table that has one for it. -/
theorem aliasesOf_iff_fold (t : ClassTable) (aliases : ClassDecl → Except ε (Keyed String String))
    {name : String} {c : ClassDecl} (registered : t.find? name = some c) :
    ((t.traitOrder name).head? = some c ∧
      ((t.traitOrder name).map fun d => ClassName.key d.name).Nodup ∧
      ∀ d, d ∈ t.traitOrder name ↔ t.find? d.name = some d ∧ t.UsesTrait name d.name) ∧
    ((∃ uses, t.aliasesOf aliases c = .ok uses) ↔
      ∀ d ∈ t.traitOrder name, ∃ own, aliases d = .ok own) ∧
    (∀ e, t.aliasesOf aliases c = .error e ↔ ∃ before d after,
      t.traitOrder name = before ++ d :: after ∧ (∀ b ∈ before, ∃ own, aliases b = .ok own) ∧
        aliases d = .error e) ∧
    ∀ uses, t.aliasesOf aliases c = .ok uses → ∃ tables,
      List.Forall₂ (fun d own => aliases d = .ok own) (t.traitOrder name) tables ∧
        uses = tables.foldl Keyed.putAll Keyed.empty ∧
        ∀ word, uses.find? word = tables.reverse.findSome? (·.find? word) := by
  rw [aliasesOf_eq registered]
  refine ⟨⟨head?_traitOrder registered, traitOrder_nodup t name, fun d => mem_traitOrder_iff⟩,
    ?_, fun e => gather_eq_error, fun uses gathered => ?_⟩
  · rw [← exists_forall₂_iff]
    constructor
    · rintro ⟨uses, gathered⟩
      obtain ⟨tables, read, -⟩ := gather_eq_ok.mp gathered
      exact ⟨tables, read⟩
    · rintro ⟨tables, read⟩
      exact ⟨_, gather_eq_ok.mpr ⟨tables, read, rfl⟩⟩
  · obtain ⟨tables, read, rfl⟩ := gather_eq_ok.mp gathered
    refine ⟨tables, read, rfl, fun word => ?_⟩
    rw [Keyed.find?_foldl_putAll]
    exact Option.or_none

/-- A class whose traits use each other and the class, one of them twice and one that nobody knows. -/
def shop : ClassDecl :=
  { name := "Shop", traits := ["Logs", "\\LOGS", "Ghost", "Sells"],
    uses := (Keyed.empty.put "Log" "App\\Log").put "Item" "App\\Item" }

def logs : ClassDecl :=
  { name := "Logs", kind := .trait, traits := ["Sells"], uses := Keyed.empty.put "Log" "Vendor\\Log" }

def sells : ClassDecl :=
  { name := "Sells", kind := .trait, traits := ["shop"],
    uses := (Keyed.empty.put "Price" "Vendor\\Price").put "Item" "Vendor\\Item" }

def market : ClassTable := empty.insertAll [shop, logs, sells]

theorem traitOrder_market : market.traitOrder "\\shop" = [shop, logs, sells] := by
  have ofNobody : (visit [] ["shop", "\\LOGS", "Ghost", "Sells"]).1 = [] := by
    rw [visit_skip rfl, visit_skip rfl, visit_skip rfl, visit_skip rfl, visit_nil]
  have ofSells : (visit [("sells", sells)] ["Sells", "\\LOGS", "Ghost", "Sells"]).1 = [sells] := by
    rw [visit_step (c := sells) rfl]
    exact congrArg (sells :: ·) ofNobody
  have ofLogs : (visit [("logs", logs), ("sells", sells)] ["Logs", "\\LOGS", "Ghost", "Sells"]).1 =
      [logs, sells] := by
    rw [visit_step (c := logs) rfl]
    exact congrArg (logs :: ·) ofSells
  rw [traitOrder, visit_step (c := shop) rfl]
  exact congrArg (shop :: ·) ofLogs

/-- All three are read, the traits override the class, and the first that cannot be read is told. -/
theorem aliasesOf_iff_fold_market : market.find? "\\shop" = some shop ∧
    (∃ uses, market.aliasesOf (fun d => (.ok d.uses : Except String _)) shop = .ok uses ∧
      uses.entries =
        [("Log", "Vendor\\Log"), ("Item", "Vendor\\Item"), ("Price", "Vendor\\Price")]) ∧
    market.aliasesOf (fun d => if d.kind = .trait then .error d.name else .ok d.uses) shop =
      .error "Logs" := by
  have registered : market.find? "\\shop" = some shop := rfl
  refine ⟨registered, ?_, ?_⟩
  · obtain ⟨-, succeeds, -, fold⟩ :=
      aliasesOf_iff_fold market (fun d => (.ok d.uses : Except String _)) registered
    obtain ⟨uses, gathered⟩ := succeeds.mpr fun d _ => ⟨d.uses, rfl⟩
    obtain ⟨tables, read, rfl, -⟩ := fold uses gathered
    rw [traitOrder_market] at read
    cases read with | cons ofShop read =>
    cases read with | cons ofLogs read =>
    cases read with | cons ofSells read =>
    cases read
    cases ofShop
    cases ofLogs
    cases ofSells
    exact ⟨_, gathered, by decide⟩
  · obtain ⟨-, -, fails, -⟩ := aliasesOf_iff_fold market
      (fun d => if d.kind = .trait then .error d.name else .ok d.uses) registered
    refine (fails "Logs").mpr ⟨[shop], logs, [sells], traitOrder_market, ?_, rfl⟩
    exact List.forall_mem_singleton.mpr ⟨shop.uses, rfl⟩

end TypeHints.ClassTable
