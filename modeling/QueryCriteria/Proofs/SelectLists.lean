import QueryCriteria.Proofs.Grouping
import QueryCriteria.Proofs.Subqueries

namespace QueryCriteria

def Selection.property? : Selection → Option String
  | .column (.resolved c) _ => some c.property
  | _ => none

def Selection.bareText (say : Target → String) : Selection → String
  | .column target _ => say target
  | .native sql _ => sql
  | .aggregate func target distinct _ =>
      func.text ++ "(" ++ (if distinct then "DISTINCT " else "") ++ target.elim "*" say ++ ")"

namespace Node

def selected (n : Node) : List Selection :=
  (if n.flags.onlyFunctions ∨ ∃ s ∈ n.selections, s.isPlain then []
    else (n.entity.columns.filter fun c => !n.ignored.has c.property).map fun c => .column (.resolved c) none) ++
    n.selections

def label? (n : Node) (s : Selection) : Option String :=
  s.label <|> if n.flags.propertyLabels then s.property? else none

def itemText (ctx : Context) (n : Node) (s : Selection) : String :=
  s.bareText (fun target => (n.use target).text ctx) ++ (n.label? s).elim "" (" AS " ++ ·)

end Node

namespace Criteria

mutual
def joined : Criteria → List Criteria
  | .mk _ _ joins => allJoined joins

def allJoined : List Criteria → List Criteria
  | [] => []
  | c :: cs => c :: (c.joined ++ allJoined cs)
end

def shown (c : Criteria) : List Criteria :=
  c :: c.joined.filter (·.node.join.fetch)

def itemTexts (ctx : Context) (c : Criteria) : List String :=
  c.shown.flatMap fun m => m.node.selected.map (m.node.itemText ctx)

def listText (ctx : Context) (c : Criteria) : String :=
  if c.itemTexts ctx = [] then "*" else ", ".intercalate (c.itemTexts ctx)

def projectionText (ctx : Context) (existenceOnly : Bool) (c : Criteria) : String :=
  if existenceOnly ∧ c.node.selections = [] then "1"
  else (if c.node.flags.distinct then "DISTINCT " else "") ++ c.listText ctx

def tableText (ctx : Context) (c : Criteria) : String :=
  c.node.entity.table ++ " " ++ (ctx.alias? c.id).getD ""

def joinCondition (c : Criteria) : List Fragment :=
  predicateFragments c.id true c.predicates

end Criteria

namespace Placing

def joinsText (σ : Placing) (placed : Nat) : List Criteria → String
  | [] => ""
  | c :: cs =>
      " " ++ c.node.join.kind.text ++ " " ++ c.tableText σ.context ++ " ON " ++
        σ.fragments placed c.joinCondition ++ σ.joinsText (placed + c.joinCondition.countP Fragment.isBind) cs

def sourceText (σ : Placing) (placed : Nat) (c : Criteria) : String :=
  c.tableText σ.context ++ σ.joinsText placed c.joined

end Placing

open Fragment

section Items

theorem selections_foldl (m : Criteria) (calls : List Selection) :
    (calls.foldl Criteria.select m).node.selections = m.node.selections ++ calls := by
  induction calls generalizing m with
  | nil => simp
  | cons s calls ih =>
      rw [List.foldl_cons, ih]
      simp [Criteria.select, Criteria.mapNode, Criteria.node]

@[simp]
theorem label?_column (n : Node) (target : Target) (label : Option String) :
    n.label? (.column target label) = (label <|> n.propertyLabel target) := by
  cases target <;> simp [Node.label?, Node.propertyLabel, Selection.label, Selection.property?]

@[simp]
theorem label?_native (n : Node) (sql : String) (label : Option String) : n.label? (.native sql label) = label := by
  simp [Node.label?, Selection.label, Selection.property?]

@[simp]
theorem label?_aggregate (n : Node) (func : Aggregate) (target : Option Target) (distinct : Bool)
    (label : Option String) : n.label? (.aggregate func target distinct label) = label := by
  simp [Node.label?, Selection.label, Selection.property?]

theorem label?_eq_some_iff {n : Node} {s : Selection} {label : String} :
    n.label? s = some label ↔ s.label = some label ∨ n.flags.propertyLabels = true ∧
      ∃ column, s = .column (.resolved column) none ∧ label = column.property := by
  cases s with
  | column target given =>
      rw [label?_column]
      cases target <;> cases given <;> simp [Node.propertyLabel, Selection.label, @eq_comm _ label]
  | native sql given => simp [Selection.label]
  | aggregate func target distinct given => simp [Selection.label]

theorem items_eq_map (n : Node) : n.items = n.selected.map n.selectionItem := by
  have hdefault : n.selectsDefault = false ↔ n.flags.onlyFunctions = true ∨ ∃ s ∈ n.selections, s.isPlain = true := by
    cases hflag : n.flags.onlyFunctions <;> simp [Node.selectsDefault, hflag]
  rw [Node.items, Node.defaultItems, Node.selected, List.map_append]
  cases hselects : n.selectsDefault with
  | false => rw [if_pos (hdefault.mp hselects), if_neg Bool.false_ne_true, List.map_nil]
  | true =>
      rw [if_neg (hdefault.not.mp (by simp [hselects])), if_pos rfl, List.map_map]
      rfl

theorem countP_isBind_selectionItem (n : Node) (s : Selection) : (n.selectionItem s).countP isBind = 0 := by
  have hlabelled : ∀ (parts : List Fragment) (label : Option String),
      (labelled parts label).countP isBind = parts.countP isBind := by
    intro parts label
    cases label <;> simp [labelled, isBind]
  cases s with
  | column target label => simp [Node.selectionItem, hlabelled, Node.column, isBind]
  | native sql label => simp [Node.selectionItem, hlabelled, isBind]
  | aggregate func target distinct label =>
      cases target <;> simp [Node.selectionItem, hlabelled, Node.column, isBind]

theorem allJoined_eq_flatMap (js : List Criteria) :
    Criteria.allJoined js = js.flatMap fun c => c :: c.joined := by
  induction js with
  | nil => rfl
  | cons c cs ih => rw [Criteria.allJoined, ih, List.flatMap_cons, List.cons_append]

theorem allFetchedItems_of {js : List Criteria} (h : ∀ c ∈ js,
      fetchedItems c = ((c :: c.joined).filter (·.node.join.fetch)).flatMap (·.node.items)) :
    allFetchedItems js = ((Criteria.allJoined js).filter (·.node.join.fetch)).flatMap (·.node.items) := by
  rw [allFetchedItems_eq_flatMap, allJoined_eq_flatMap, List.filter_flatMap, List.flatMap_assoc]
  exact List.flatMap_congr h

theorem fetchedItems_eq_flatMap (c : Criteria) :
    fetchedItems c = ((c :: c.joined).filter (·.node.join.fetch)).flatMap (·.node.items) := by
  revert c
  refine (tree_induction (P := fun _ => True) ?_ ?_ ?_ ?_ ?_).1
  case refine_1 =>
    intro node ps js _ hj
    rw [fetchedItems, allFetchedItems_of hj, Criteria.joined, List.filter_cons]
    cases hfetch : node.join.fetch <;> simp [Criteria.node, hfetch]
  all_goals simp

theorem items_projection (node : Node) (ps : List Predicate) (js : List Criteria) :
    node.items ++ allFetchedItems js = (Criteria.mk node ps js).shown.flatMap (·.node.items) := by
  rw [allFetchedItems_of fun c _ => fetchedItems_eq_flatMap c]
  rfl

def Criteria.entry (c : Criteria) : List Fragment :=
  .sql (" " ++ c.node.join.kind.text ++ " ") :: .source c.id c.node.entity.table :: .sql " ON " :: c.joinCondition

theorem joinFragments_of {js : List Criteria}
    (h : ∀ c ∈ js, Accepted (participantFragments c) →
      participantFragments c = (c :: c.joined).flatMap Criteria.entry)
    (hacc : Accepted (joinFragments js)) : joinFragments js = (Criteria.allJoined js).flatMap Criteria.entry := by
  rw [joinFragments_eq_flatMap, allJoined_eq_flatMap, List.flatMap_assoc]
  exact List.flatMap_congr fun c hc => h c hc (within_of_joinFragments hacc c hc)

theorem participantFragments_eq_flatMap (c : Criteria) (hacc : Accepted (participantFragments c)) :
    participantFragments c = (c :: c.joined).flatMap Criteria.entry := by
  revert c
  refine (tree_induction (P := fun _ => True) ?_ ?_ ?_ ?_ ?_).1
  case refine_1 =>
    intro node ps js _ hj hacc
    have hne := ne_nil_of_accepted hacc
    rw [participantFragments_mk hne, joinFragments_of hj (within_of_participant hne hacc).1, List.flatMap_cons]
    rfl
  all_goals simp

end Items

namespace Placing

variable (σ : Placing) (placed : Nat)

theorem fragments_nil : σ.fragments placed [] = "" := rfl

theorem fragments_column_cons (use : ColumnUse) (fs : List Fragment) :
    σ.fragments placed (.column use :: fs) = use.text σ.context ++ σ.fragments placed fs := by
  rw [fragments, List.map_cons]
  exact Piece.write_append σ.fill [.text _] _

theorem fragments_source_cons (c : Criteria) (fs : List Fragment) :
    σ.fragments placed (.source c.id c.node.entity.table :: fs) =
      c.tableText σ.context ++ σ.fragments placed fs := by
  rw [fragments, List.map_cons]
  exact Piece.write_append σ.fill [.text _] _

theorem fragments_labelled (parts : List Fragment) (label : Option String) :
    σ.fragments placed (labelled parts label) = σ.fragments placed parts ++ label.elim "" (" AS " ++ ·) := by
  cases label with
  | none => simp [labelled]
  | some label => simp [labelled, fragments_append, fragments_sql_cons, fragments_nil]

theorem fragments_selectionItem (n : Node) (s : Selection) :
    σ.fragments placed (n.selectionItem s) = n.itemText σ.context s := by
  cases s with
  | column target label =>
      simp [Node.selectionItem, fragments_labelled, Node.column, fragments_column_cons, fragments_nil,
        Node.itemText, Selection.bareText, Node.use]
  | native sql label =>
      simp [Node.selectionItem, fragments_labelled, fragments_sql_cons, fragments_nil, Node.itemText,
        Selection.bareText]
  | aggregate func target distinct label =>
      cases target <;>
        simp [Node.selectionItem, fragments_labelled, fragments_sql_cons, fragments_column_cons, fragments_nil,
          Node.itemText, Selection.bareText, Node.column, Node.use, String.append_assoc]

theorem fragments_listed {items : List (List Fragment)} (hfree : ∀ item ∈ items, item.countP isBind = 0) :
    σ.fragments placed (listed items) = ", ".intercalate (items.map (σ.fragments placed)) := by
  induction items with
  | nil => rfl
  | cons item items ih =>
      obtain ⟨hitem, hitems⟩ := List.forall_mem_cons.mp hfree
      cases items with
      | nil => simp [listed]
      | cons next items =>
          have hrest := ih hitems
          rw [listed] at hrest ⊢
          rw [List.intercalate_cons_cons, List.append_assoc, fragments_append, hitem, Nat.add_zero,
            List.singleton_append, fragments_sql_cons, hrest]
          simp only [List.map_cons, String.intercalate_cons_cons, String.append_assoc]

theorem fragments_projection (node : Node) (ps : List Predicate) (js : List Criteria) :
    σ.fragments placed (projection node js) =
      (if node.flags.distinct then "DISTINCT " else "") ++ (Criteria.mk node ps js).listText σ.context := by
  have hfree : ∀ item ∈ node.items ++ allFetchedItems js, item.countP isBind = 0 := by
    intro item hitem
    rw [items_projection node ps js, List.mem_flatMap] at hitem
    obtain ⟨m, -, hitem⟩ := hitem
    rw [items_eq_map] at hitem
    obtain ⟨s, -, rfl⟩ := List.mem_map.mp hitem
    exact countP_isBind_selectionItem m.node s
  have htexts : (node.items ++ allFetchedItems js).map (σ.fragments placed) =
      (Criteria.mk node ps js).itemTexts σ.context := by
    rw [items_projection node ps js, List.map_flatMap]
    refine List.flatMap_congr fun m _ => ?_
    rw [items_eq_map, List.map_map]
    exact List.map_congr_left fun s _ => σ.fragments_selectionItem placed m.node s
  have hlist : σ.fragments placed (if (node.items ++ allFetchedItems js).isEmpty then [.sql "*"]
      else listed (node.items ++ allFetchedItems js)) = (Criteria.mk node ps js).listText σ.context := by
    rw [Criteria.listText, ← htexts]
    by_cases hnone : node.items ++ allFetchedItems js = []
    · simp [hnone, fragments_sql_cons, fragments_nil]
    · rw [if_neg (by simpa using hnone), if_neg (by simpa using hnone), fragments_listed σ placed hfree]
  rw [projection]
  split
  · rw [fragments_sql_cons, hlist]
  · rw [hlist, String.empty_append]

theorem fragments_entries (cs : List Criteria) :
    σ.fragments placed (cs.flatMap Criteria.entry) = σ.joinsText placed cs := by
  induction cs generalizing placed with
  | nil => rfl
  | cons c cs ih =>
      have hbound : c.entry.countP isBind = c.joinCondition.countP isBind := by simp [Criteria.entry, isBind]
      rw [List.flatMap_cons, fragments_append, hbound, ih, Criteria.entry, fragments_sql_cons,
        fragments_source_cons, fragments_sql_cons, joinsText]
      simp only [String.append_assoc]

variable {existenceOnly : Bool} {c : Criteria}

theorem fragments_select (existenceOnly : Bool) (c : Criteria) :
    σ.fragments placed (draft existenceOnly c).select = c.projectionText σ.context existenceOnly := by
  obtain ⟨node, ps, js⟩ := c
  by_cases hconstant : existenceOnly = true ∧ node.selections = []
  · simp [draft, Criteria.projectionText, Criteria.node, hconstant, fragments_sql_cons, fragments_nil]
  · rw [Criteria.projectionText, if_neg (by simpa [Criteria.node] using hconstant), draft,
      if_neg (by simpa using hconstant)]
    exact σ.fragments_projection placed node ps js

theorem fragments_source (hacc : Accepted (draft existenceOnly c).bindingOrder) :
    σ.fragments placed (draft existenceOnly c).source = σ.sourceText placed c := by
  obtain ⟨node, ps, js⟩ := c
  have hjoins := joinFragments_of (fun c _ => participantFragments_eq_flatMap c) (within_of_draft hacc).1
  rw [draft, hjoins, sourceText, ← fragments_entries, Criteria.joined]
  exact σ.fragments_source_cons placed (.mk node ps js) _

theorem exists_fragments_statement (hacc : Accepted (draft existenceOnly c).bindingOrder) :
    ∃ rest, σ.fragments placed (draft existenceOnly c).statement =
      "SELECT " ++ c.projectionText σ.context existenceOnly ++ " FROM " ++ σ.sourceText placed c ++ rest := by
  have hfree : (draft existenceOnly c).select.countP isBind = 0 := by
    rw [← length_holes_piece σ.context]
    exact List.length_eq_zero_iff.mpr (holes_draft σ.context existenceOnly c).1
  obtain ⟨rest, hstatement⟩ : ∃ rest, (draft existenceOnly c).statement =
      .sql "SELECT " :: ((draft existenceOnly c).select ++
        .sql " FROM " :: ((draft existenceOnly c).source ++ rest)) :=
    ⟨_, by simp only [Clauses.statement, Clauses.query, List.append_assoc, List.cons_append]; rfl⟩
  refine ⟨σ.fragments (placed + (draft existenceOnly c).source.countP isBind) rest, ?_⟩
  rw [hstatement, fragments_sql_cons, fragments_append, hfree, Nat.add_zero, fragments_select, fragments_sql_cons,
    fragments_append, σ.fragments_source placed hacc]
  simp only [String.append_assoc]

end Placing

section Constants

variable {ctx : Context} {c : Criteria}

theorem intercalate_eq_singleton_iff {items : List String} (hne : items ≠ []) (a : Char) :
    ", ".intercalate items = String.singleton a ↔ items = [String.singleton a] := by
  cases items with
  | nil => exact absurd rfl hne
  | cons item items =>
      cases items with
      | nil => simp
      | cons next items =>
          -- Between two items stands the separator, which is longer than one character.
          refine iff_of_false (fun h => ?_) (by simp)
          have hlength := congrArg String.length h
          rw [String.intercalate_cons_cons, String.length_append, String.length_append] at hlength
          have hcomma : ", ".length = 2 := rfl
          have hone : (String.singleton a).length = 1 := by simp
          omega

theorem listText_eq_singleton_iff (ctx : Context) (c : Criteria) (a : Char) : c.listText ctx = String.singleton a ↔
    c.itemTexts ctx = [] ∧ a = '*' ∨ c.itemTexts ctx = [String.singleton a] := by
  rw [Criteria.listText]
  split
  case isTrue hnone =>
    have hstar : "*" = String.singleton a ↔ a = '*' := by
      rw [← String.toList_inj]
      simp [eq_comm]
    simp [hnone, hstar]
  case isFalse hsome => simp [hsome, intercalate_eq_singleton_iff hsome a]

theorem listText_eq_star_iff :
    c.listText ctx = "*" ↔ c.itemTexts ctx = [] ∨ c.itemTexts ctx = ["*"] := by
  simpa using listText_eq_singleton_iff ctx c '*'

theorem projectionText_eq_one_iff : c.projectionText ctx true = "1" ↔
    c.node.selections = [] ∨ c.node.flags.distinct = false ∧ c.itemTexts ctx = ["1"] := by
  rw [Criteria.projectionText]
  split
  case isTrue hconstant => simp [hconstant.2]
  case isFalse hlisted =>
    have hselections : c.node.selections ≠ [] := fun hnone => hlisted ⟨rfl, hnone⟩
    cases hdistinct : c.node.flags.distinct with
    | true =>
        refine iff_of_false (fun h => ?_) (by simp [hselections])
        have hlength := congrArg String.length h
        have hword : "DISTINCT ".length = 9 := rfl
        have hone : "1".length = 1 := rfl
        rw [if_pos rfl, String.length_append] at hlength
        omega
    | false => simpa [hselections] using listText_eq_singleton_iff ctx c '1'

end Constants

def Compiled.Encloses (compiled : Compiled) (σ : Placing) (p : Predicate)
    (before inside after : List (Piece Parameter)) : Prop :=
  compiled.statementParts = before ++ .text "(" :: inside ++ .text ")" :: after ∧
    ∃ enclosing lead, lead <:+ before ∧ lead ++ .text "(" :: inside ++ [.text ")"] =
      numberFrom σ.names (Piece.holes before).length ((predicateFragment enclosing p).map (piece σ.context))

theorem projections_follow_sources {s u : Scope} {c : Criteria} {compiled : Compiled}
    (h : s.compile c = (.ok compiled, u)) :
    let σ := s.placing c
    compiled.selectText = c.projectionText σ.context false ∧ compiled.sourceText = σ.sourceText 0 c ∧
    (∀ p ∈ c.conditions, ∀ existenceOnly q, p.query? = some (existenceOnly, q) →
      ∃ before inside after rest, compiled.Encloses σ p before inside after ∧
        compiled.write inside = "SELECT " ++ q.projectionText σ.context existenceOnly ++ " FROM " ++
          σ.sourceText (Piece.holes before).length q ++ rest) ∧
    ∀ m ∈ c.members, σ.context.alias? m.id = u.alias? m.id ∧ (u.alias? m.id).isSome ∧
      (∀ calls : List Selection, (calls.foldl Criteria.select m).node.selections = m.node.selections ++ calls) ∧
      (∀ selection label, m.node.label? selection = some label ↔ selection.label = some label ∨
        m.node.flags.propertyLabels = true ∧
          ∃ column, selection = .column (.resolved column) none ∧ label = column.property) ∧
      (m.listText σ.context = "*" ↔ m.itemTexts σ.context = [] ∨ m.itemTexts σ.context = ["*"]) ∧
      (m.projectionText σ.context true = "1" ↔
        m.node.selections = [] ∨ m.node.flags.distinct = false ∧ m.itemTexts σ.context = ["1"]) := by
  intro σ
  obtain ⟨-, hfaults, hfailure, hcompiled, halias⟩ := Scope.compile_eq_ok h
  have hacc := accepted_of_firstFailure? hfailure
  have hresolved := (s.referenceFaults_eq_nil_iff c).mp hfaults
  refine ⟨?_, ?_, fun p hp existenceOnly q hquery => ?_, fun m hm => ⟨(halias m.id).symm, ?_,
    fun calls => selections_foldl m calls, fun _ _ => label?_eq_some_iff, listText_eq_star_iff,
    projectionText_eq_one_iff⟩⟩
  · rw [hcompiled, ← σ.fragments_select _ false c]
    rfl
  · rw [hcompiled, ← σ.fragments_source 0 hacc]
    rfl
  · obtain ⟨before, inside, after, hparts, hinside, hpredicate⟩ :=
      exists_parts_of_query hacc hp hquery s.config.placeholder σ.context s.parameters
    obtain ⟨rest, hrest⟩ :=
      σ.exists_fragments_statement (Piece.holes before).length (accepted_of_query hacc hp hquery)
    refine ⟨before, inside, after, rest, ⟨?_, hpredicate⟩, ?_⟩
    · rw [hcompiled]
      exact hparts
    · rw [hcompiled, ← hrest, hinside]
      rfl
  · rw [halias]
    exact (Scope.isSome_alias?_settled hm).mpr (hresolved.registered m hm)

def printRun : Criteria :=
  .mk { member 2 "printings" with
      selections := [.aggregate .max (some (.resolved { name := "run", property := "copies" })) false (some "largest")]
      flags := { onlyFunctions := true }
      join := { kind := .left, fetch := true } }
    [absent "pulped" .and] []

def catalogue : Criteria :=
  .mk { member 0 "books" with
      entity := { name := "books", table := "books", columns :=
        [{ name := "book_id", property := "id" }, { name := "price", property := "price" }] }
      ignored := NameSet.add {} "price"
      flags := { propertyLabels := true } }
    [.existence {} true (.mk (member 3 "recalls") [absent "closed" .and] [])]
    [.mk (member 1 "editions") [absent "sold" .and] [printRun]]

def catalogueScope : Scope :=
  { Scope.fresh {} {} with
    slots := ["books", "editions", "printings", "recalls"].map fun table =>
      { entity := { name := table, table }, parent := none } }

theorem catalogue_follows_source :
    ∃ compiled u, catalogueScope.compile catalogue = (.ok compiled, u) ∧
      compiled.selectText = "t1.book_id AS id, MAX(t4.run) AS largest" ∧
      compiled.sourceText = "books t1 INNER JOIN editions t3 ON sold IS NULL" ++
        " LEFT JOIN printings t4 ON pulped IS NULL" := by
  obtain ⟨hselect, hsource, -⟩ := projections_follow_sources (s := catalogueScope) (c := catalogue) rfl
  exact ⟨_, _, rfl, hselect.trans rfl, hsource.trans rfl⟩

def verbatim (sql : String) : Criteria :=
  .mk { member 0 "staff" with selections := [.native sql none] } [] []

theorem star_by_hand :
    (∃ compiled u, shiftScope.compile (verbatim "*") = (.ok compiled, u) ∧ compiled.selectText = "*" ∧
      (verbatim "*").itemTexts (shiftScope.placing (verbatim "*")).context ≠ []) ∧
    ∃ compiled u, shiftScope.compile (verbatim "") = (.ok compiled, u) ∧ compiled.selectText ≠ "*" ∧
      ", ".intercalate ((verbatim "").itemTexts (shiftScope.placing (verbatim "")).context) = "" :=
  ⟨⟨_, _, rfl, rfl, List.cons_ne_nil _ _⟩, _, _, rfl, by decide, rfl⟩

end QueryCriteria
