import QueryCriteria.Proofs.ColumnUses
import QueryCriteria.Proofs.Recompilation
import QueryCriteria.Proofs.WrittenClauses

namespace QueryCriteria

open Fragment

def Predicate.query? : Predicate → Option (Bool × Criteria)
  | .existence _ _ query => some (true, query)
  | .subquery _ _ query => some (false, query)
  | _ => none

def Predicate.StandsIn (p : Predicate) (fs : List Fragment) : Prop :=
  ∃ enclosing, predicateFragment enclosing p <:+: fs

section StandsIn

variable {p : Predicate} {fs gs : List Fragment} {enclosing : CriteriaId}

theorem Predicate.StandsIn.mono (h : p.StandsIn fs) (hfs : fs <:+: gs) : p.StandsIn gs := by
  obtain ⟨enclosing, hp⟩ := h
  exact ⟨enclosing, hp.trans hfs⟩

def Predicate.opening (enclosing : CriteriaId) : Predicate → List Fragment
  | .existence _ negated _ => [.sql (if negated then "NOT EXISTS " else "EXISTS ")]
  | .subquery head op _ => [subjectFragment enclosing head op.text, .sql (" " ++ op.text ++ " ")]
  | _ => []

theorem predicateFragment_of_query? {existenceOnly : Bool} {q : Criteria} (h : p.query? = some (existenceOnly, q)) :
    predicateFragment enclosing p =
      p.opening enclosing ++ .openQuery :: (draft existenceOnly q).statement ++ [.closeQuery] := by
  cases p with
  | existence head negated query =>
      cases h
      simp [predicateFragment, Predicate.opening]
  | subquery head op query =>
      cases h
      simp [predicateFragment, Predicate.opening]
  | _ => cases h

theorem openQuery_mem (h : p.query?.isSome) : .openQuery ∈ predicateFragment enclosing p := by
  obtain ⟨⟨existenceOnly, q⟩, hq⟩ := Option.isSome_iff_exists.mp h
  simp [predicateFragment_of_query? hq]

theorem standsIn_statement (hp : p.query?.isSome) {d : Clauses Fragment}
    (h : p.StandsIn d.source ∨ p.StandsIn d.filter) : p.StandsIn d.statement := by
  rcases h with ⟨enclosing, h⟩ | ⟨enclosing, h⟩
  · exact ⟨enclosing, h.trans d.source_infix_statement⟩
  · exact ⟨enclosing, Clauses.infix_statement_of_filter h ⟨_, openQuery_mem hp, rfl⟩⟩

theorem standsIn_draft (hp : p.query?.isSome) :
    (∀ c : Criteria, p ∈ c.conditions →
      (∀ existenceOnly, Accepted (draft existenceOnly c).bindingOrder →
        p.StandsIn (draft existenceOnly c).source ∨ p.StandsIn (draft existenceOnly c).filter) ∧
      (Accepted (participantFragments c) → p.StandsIn (participantFragments c))) ∧
    ∀ r : Predicate, p ∈ r.conditions → ∀ enclosing, Accepted (predicateFragment enclosing r) →
      p.StandsIn (predicateFragment enclosing r) := by
  have hstatement : ∀ {d : Clauses Fragment}, Accepted d.statement → Accepted d.bindingOrder :=
    within_bindingOrder accepted_of_isEmpty
  apply tree_induction
  case criteria =>
    intro node ps js hps hjs hmem
    have hfound : Accepted (joinFragments js) → Accepted (predicateFragments node.id true ps) →
        p.StandsIn (joinFragments js) ∨ p.StandsIn (predicateFragments node.id true ps) := by
      intro hjoins hfilter
      rw [Criteria.conditions_mk, List.mem_append, List.mem_flatMap, List.mem_flatMap] at hmem
      rcases hmem with ⟨r, hr, hmem⟩ | ⟨c, hc, hmem⟩
      · have hin := hps r hr hmem node.id (within_of_predicateFragments hfilter r hr)
        exact .inr (hin.mono (infix_predicateFragments hr))
      · have hin := (hjs c hc hmem).2 (within_of_joinFragments hjoins c hc)
        rw [joinFragments_eq_flatMap]
        exact .inl (hin.mono (List.infix_of_mem_flatten (List.mem_map_of_mem hc)))
    refine ⟨fun existenceOnly hacc => ?_, fun hacc => ?_⟩
    · obtain ⟨hjoins, hfilter⟩ := within_of_draft hacc
      exact (hfound hjoins hfilter).imp_left fun hin => hin.mono (List.suffix_cons _ _).isInfix
    · have hne := ne_nil_of_accepted hacc
      obtain ⟨hjoins, hfilter⟩ := within_of_participant hne hacc
      rw [participantFragments_mk hne]
      rcases hfound hjoins hfilter with hin | hin
      · exact hin.mono (List.suffix_append _ _).isInfix
      · exact hin.mono ⟨[.sql (" " ++ node.join.kind.text ++ " "), .source node.id node.entity.table, .sql " ON "],
          joinFragments js, by simp⟩
  case test =>
    intro head t hmem enclosing _
    obtain rfl := List.mem_singleton.mp (Predicate.conditions_test .. ▸ hmem)
    exact ⟨enclosing, List.infix_rfl⟩
  case existence =>
    intro head negated query hq hmem enclosing hacc
    rcases List.mem_cons.mp (Predicate.conditions_existence .. ▸ hmem) with rfl | hmem
    · exact ⟨enclosing, List.infix_rfl⟩
    · have hin := (hq hmem).1 true (hstatement (within_of_existence hacc))
      rw [predicateFragment]
      exact (standsIn_statement hp hin).mono ⟨[.sql _, .openQuery], [.closeQuery], rfl⟩
  case subquery =>
    intro head op query hq hmem enclosing hacc
    rcases List.mem_cons.mp (Predicate.conditions_subquery .. ▸ hmem) with rfl | hmem
    · exact ⟨enclosing, List.infix_rfl⟩
    · have hin := (hq hmem).1 false (hstatement (within_of_subquery hacc).2)
      rw [predicateFragment]
      exact (standsIn_statement hp hin).mono ⟨[_, .sql _, .openQuery], [.closeQuery], rfl⟩
  case nested =>
    intro head negated children hchildren hmem enclosing hacc
    rcases List.mem_cons.mp (Predicate.conditions_nested .. ▸ hmem) with rfl | hmem
    · exact ⟨enclosing, List.infix_rfl⟩
    · obtain ⟨r, hr, hmem⟩ := List.mem_flatMap.mp hmem
      have hin := hchildren r hr hmem enclosing (within_of_predicateFragments (within_of_nested hacc) r hr)
      rw [predicateFragment]
      exact (hin.mono (infix_predicateFragments hr)).mono ⟨[.openGroup negated], [.closeGroup], rfl⟩

end StandsIn

section Placed

variable {ctx : Context} {names : NumberedNames} {q : Criteria} {existenceOnly : Bool}

theorem source_draft (existenceOnly : Bool) (c : Criteria) :
    (draft existenceOnly c).source = c.statementDraft.source ∧
      (draft existenceOnly c).filter = c.statementDraft.filter := by
  cases c
  exact ⟨rfl, rfl⟩

theorem accepted_statementDraft (h : Accepted (draft existenceOnly q).bindingOrder) :
    Accepted q.statementDraft.bindingOrder := by
  obtain ⟨hsource, hfilter⟩ := source_draft existenceOnly q
  obtain ⟨hselect, hgroup, horder⟩ := plain_draft false q
  simp only [Clauses.bindingOrder, within_append, hsource, hfilter] at h ⊢
  obtain ⟨⟨⟨⟨hsource, hfilter⟩, -⟩, -⟩, -⟩ := h
  exact ⟨⟨⟨⟨hsource, hfilter⟩, hgroup.accepted⟩, horder.accepted⟩, hselect.accepted⟩

theorem holes_statement_draft (ctx : Context) (existenceOnly : Bool) (c : Criteria) :
    Piece.holes ((draft existenceOnly c).statement.map (piece ctx)) =
      c.statementDraft.bindingOrder.filterMap bound? := by
  obtain ⟨hsource, hfilter⟩ := source_draft existenceOnly c
  rw [holes_map_piece, filterMap_statement_draft selective_bound?, hsource, hfilter]
  exact (filterMap_bindingOrder_draft selective_bound? false c).symm

theorem statementParts_placed (c : Criteria) (style : PlaceholderStyle) (ctx : Context) (names : NumberedNames) :
    (c.placed style ctx names).statementParts =
      numberFrom names 0 (c.statementDraft.map (piece ctx)).statement := by
  obtain ⟨hselect, hgroup, horder⟩ := holes_draft ctx false c
  exact Clauses.statement_number hselect hgroup horder names

theorem draft_of_selections (h : existenceOnly = true → q.node.selections ≠ []) :
    draft existenceOnly q = q.statementDraft := by
  cases existenceOnly with
  | false => rfl
  | true =>
      obtain ⟨node, ps, js⟩ := q
      have hne : node.selections ≠ [] := h rfl
      have hsome : node.selections.isEmpty = false := by simpa using hne
      simp [Criteria.statementDraft, draft, hsome]

theorem number_existence (h : q.node.selections = []) :
    ((draft true q).map (piece ctx)).number names =
      { (q.statementDraft.map (piece ctx)).number names with select := [.text "1"] } := by
  obtain ⟨node, ps, js⟩ := q
  have hnone : node.selections = [] := h
  simp [Criteria.statementDraft, draft, hnone, Clauses.map, Clauses.number, piece, numberFrom]

end Placed

def Compiled.constantParts (c : Compiled) : List (Piece Parameter) :=
  Clauses.statement { c.clauses with select := [.text "1"] }

structure Compiled.Holds (outer : Compiled) (ctx : Context) (names : NumberedNames) (p : Predicate)
    (existenceOnly : Bool) (q : Criteria) (alone : Compiled) (before inside after : List (Piece Parameter)) :
    Prop where
  parts : outer.statementParts = before ++ .text "(" :: inside ++ .text ")" :: after
  predicate : ∃ enclosing lead, lead <:+ before ∧ lead ++ .text "(" :: inside ++ [.text ")"] =
    numberFrom names (Piece.holes before).length ((predicateFragment enclosing p).map (piece ctx))
  text : (existenceOnly = true → q.node.selections ≠ []) → outer.write inside = Piece.filled alone.statementParts
    ((outer.bindings.placeholders outer.style).drop (Piece.holes before).length)
  bare : existenceOnly = true → q.node.selections = [] → outer.write inside =
    Piece.filled alone.constantParts
      ((outer.bindings.placeholders outer.style).drop (Piece.holes before).length)
  values : alone.bindings.values =
    (outer.bindings.values.drop (Piece.holes before).length).take alone.bindings.size

section Brackets

variable {c q : Criteria} {p : Predicate} {existenceOnly : Bool}

theorem holes_opening (ctx : Context) (enclosing : CriteriaId) (p : Predicate) :
    Piece.holes ((p.opening enclosing).map (piece ctx)) = [] := by
  cases p with
  | subquery head op query =>
      simp only [Predicate.opening, subjectFragment]
      cases head.target <;> rfl
  | _ => rfl

theorem pieces_infix_statement (hacc : Accepted c.statementDraft.bindingOrder) (hp : p ∈ c.conditions)
    (hquery : p.query?.isSome) (ctx : Context) :
    ∃ enclosing, (predicateFragment enclosing p).map (piece ctx) <:+:
      (c.statementDraft.map (piece ctx)).statement := by
  rcases ((standsIn_draft hquery).1 c hp).1 false hacc with ⟨enclosing, hin⟩ | ⟨enclosing, hin⟩
  · exact ⟨enclosing, (hin.map _).trans (Clauses.source_infix_statement (c.statementDraft.map _))⟩
  · have hopen : .openQuery ∈ predicateFragment enclosing p := openQuery_mem hquery
    have hbracket := List.mem_map_of_mem (f := piece ctx) hopen
    exact ⟨enclosing, Clauses.infix_statement_of_filter (c := c.statementDraft.map _) (hin.map _)
      ⟨_, hbracket, rfl⟩⟩

theorem exists_parts_of_query (hacc : Accepted c.statementDraft.bindingOrder) (hp : p ∈ c.conditions)
    (hquery : p.query? = some (existenceOnly, q)) (style : PlaceholderStyle) (ctx : Context)
    (names : NumberedNames) :
    ∃ before inside after,
      (c.placed style ctx names).statementParts = before ++ .text "(" :: inside ++ .text ")" :: after ∧
      inside = numberFrom names (Piece.holes before).length ((draft existenceOnly q).statement.map (piece ctx)) ∧
      ∃ enclosing lead, lead <:+ before ∧ lead ++ .text "(" :: inside ++ [.text ")"] =
        numberFrom names (Piece.holes before).length ((predicateFragment enclosing p).map (piece ctx)) := by
  obtain ⟨enclosing, pre, post, hsplit⟩ := pieces_infix_statement hacc hp (by simp [hquery]) ctx
  have hopening := holes_opening ctx enclosing p
  have hbefore : (Piece.holes (numberFrom names 0 (pre ++ (p.opening enclosing).map (piece ctx)))).length =
      (Piece.holes pre).length := by
    simp [Piece.holes_numberFrom, Piece.holes_append, hopening]
  rw [predicateFragment_of_query? hquery] at hsplit
  refine ⟨numberFrom names 0 (pre ++ (p.opening enclosing).map (piece ctx)), _,
    numberFrom names ((Piece.holes pre).length +
      (Piece.holes ((draft existenceOnly q).statement.map (piece ctx))).length) post, ?_, rfl, enclosing,
    numberFrom names (Piece.holes pre).length ((p.opening enclosing).map (piece ctx)), ?_, ?_⟩
  · rw [statementParts_placed, ← hsplit, hbefore]
    simp [numberFrom_append, hopening, piece, numberFrom]
  · rw [numberFrom_append, Nat.zero_add]
    exact List.suffix_append _ _
  · rw [predicateFragment_of_query? hquery, hbefore]
    simp [numberFrom_append, hopening, piece, numberFrom]

theorem query_mem_members (hp : p ∈ c.conditions) (hquery : p.query? = some (existenceOnly, q)) :
    q ∈ c.members := by
  have hmember : q ∈ p.members := by
    cases p with
    | existence head negated query =>
        cases hquery
        simpa using Criteria.self_mem_members _
    | subquery head op query =>
        cases hquery
        simpa using Criteria.self_mem_members _
    | _ => cases hquery
  exact (gather_subset.1 c).2 p hp hmember

theorem accepted_of_query (hacc : Accepted c.statementDraft.bindingOrder) (hp : p ∈ c.conditions)
    (hquery : p.query? = some (existenceOnly, q)) : Accepted (draft existenceOnly q).bindingOrder := by
  have hsome : p.query?.isSome := by simp [hquery]
  have hstatement : Accepted c.statementDraft.statement := by
    intro f hf
    rcases Clauses.mem_bindingOrder hf with hf | ⟨text, rfl⟩ | ⟨text, parts, -, rfl⟩
    · exact hacc f hf
    · rfl
    · rcases heading_cases text parts with heq | ⟨use, -, -, heq⟩ <;> exact heq ▸ rfl
  obtain ⟨enclosing, hin⟩ := standsIn_statement hsome (((standsIn_draft hsome).1 c hp).1 false hacc)
  refine within_bindingOrder accepted_of_isEmpty fun f hf => hstatement f (hin.subset ?_)
  simp [predicateFragment_of_query? hquery, hf]

end Brackets

section Compile

variable {s t u : Scope} {c q : Criteria} {p : Predicate} {existenceOnly : Bool} {outer : Compiled}
  {before rest : List (Piece Parameter)}

theorem placeholders_behind (h : s.compile c = (.ok outer, u)) (hparts : outer.statementParts = before ++ rest) :
    (outer.bindings.placeholders outer.style).drop (Piece.holes before).length = outer.placeholders rest := by
  rw [style_of_compile h, ← (placeholders_of_compile h).1, hparts, Compiled.placeholders, Piece.holes_append,
    List.map_append]
  exact List.drop_left' (List.length_map _)

theorem values_behind (h : s.compile c = (.ok outer, u)) (hparts : outer.statementParts = before ++ rest) :
    outer.bindings.values.drop (Piece.holes before).length = (Piece.holes rest).map Parameter.value := by
  have hvalues : outer.bindings.values = outer.parameters.map Parameter.value := by
    simp only [Compiled.bindings, Bindings.values, List.map_map]
    rfl
  rw [hvalues, ← (holes_of_compile h).1, hparts, Piece.holes_append, List.map_append]
  exact List.drop_left' (List.length_map _)

theorem exists_holds (h : s.compile c = (.ok outer, u)) (hp : p ∈ c.conditions)
    (hquery : p.query? = some (existenceOnly, q)) {ctx : Context}
    (hctx : (draft existenceOnly q).map (piece (s.settledContext c)) = (draft existenceOnly q).map (piece ctx))
    (names : NumberedNames) :
    ∃ before inside after, outer.Holds (s.settledContext c) s.parameters p existenceOnly q
      (q.placed s.config.placeholder ctx names) before inside after := by
  have hacc := accepted_of_firstFailure? (Scope.compile_eq_ok h).2.2.1
  obtain ⟨before, inside, after, hparts, hinside, hpredicate⟩ :=
    exists_parts_of_query hacc hp hquery s.config.placeholder (s.settledContext c) s.parameters
  rw [← Scope.placed_settled h] at hparts
  have hsplit : outer.statementParts = before ++ (.text "(" :: inside ++ .text ")" :: after) := by simp [hparts]
  have hholes : Piece.holes (.text "(" :: inside ++ .text ")" :: after) =
      Piece.holes inside ++ Piece.holes after := by
    simp [Piece.holes_append]
  let own := ((draft existenceOnly q).map (piece ctx)).statement
  have hown : ∀ words, Piece.filled inside words = Piece.filled own words := by
    intro words
    rw [hinside, Piece.filled_numberFrom, ← Piece.filled_written,
      written_statement (accepted_of_query hacc hp hquery), hctx, Piece.filled_written]
  have htext : outer.write inside = Piece.filled own
      ((outer.bindings.placeholders outer.style).drop (Piece.holes before).length) := by
    rw [placeholders_behind h hsplit, Compiled.placeholders, hholes, List.map_append, ← hown,
      Piece.filled_holes]
    rfl
  refine ⟨before, inside, after, hparts, hpredicate, fun hselections => ?_, fun hexistence hselections => ?_, ?_⟩
  · rw [htext, statementParts_placed, Piece.filled_numberFrom, ← draft_of_selections hselections]
  · subst hexistence
    obtain ⟨hselect, hgroup, horder⟩ := holes_draft ctx true q
    have hconstant : (q.placed s.config.placeholder ctx names).constantParts = numberFrom names 0 own := by
      rw [← Clauses.statement_number hselect hgroup horder, number_existence hselections]
      rfl
    rw [htext, hconstant, Piece.filled_numberFrom]
  · have hvalues : (q.placed s.config.placeholder ctx names).bindings.values =
        (Piece.holes inside).map Parameter.value := by
      rw [values_placed, hinside, ← holes_statement_draft (s.settledContext c) existenceOnly,
        Piece.holes_numberFrom, List.map_map]
      exact (List.zipIdx_map_fst _ _).symm
    have hsize : (q.placed s.config.placeholder ctx names).bindings.size =
        ((Piece.holes inside).map Parameter.value).length := by
      rw [← hvalues, Bindings.length_values]
    rw [values_behind h hsplit, hholes, List.map_append, hsize, List.take_left, hvalues]

theorem named_subset_of_member {m : Criteria} (hm : m ∈ c.members) : m.named ⊆ c.named := by
  rw [named_eq_gather, named_eq_gather]
  exact (gather_subset.1 c).1 m hm

theorem compile_of_query (h : s.compile c = (.ok outer, u)) (hp : p ∈ c.conditions)
    (hquery : p.query? = some (existenceOnly, q)) (hlater : u.Later t)
    (hfree : t.frozen = false)
    (hqualifies : ∀ id ∈ q.columnOwners,
      qualifies s.config.qualify q.references id = qualifies s.config.qualify c.references id) :
    ∃ alone v before inside after, t.compile q = (.ok alone, v) ∧
      outer.Holds (s.settledContext c) s.parameters p existenceOnly q alone before inside after := by
  have hacc := accepted_of_firstFailure? (Scope.compile_eq_ok h).2.2.1
  have hmember := query_mem_members hp hquery
  have hconfig : t.config = s.config := by
    rw [hlater.config, ← s.config_compile c, h]
  obtain ⟨v, hcompile, -⟩ := Scope.compile_of_accepted hfree (Scope.referenceFaults_of_later h hlater hmember)
    (accepted_statementDraft (accepted_of_query hacc hp hquery))
  have hctx : (draft existenceOnly q).map (piece (s.settledContext c)) =
      (draft existenceOnly q).map (piece (t.settledContext q)) := by
    refine pieces_congr (fun id hid => ?_) (fun id hid => ?_) existenceOnly
    · exact (Scope.alias?_settled_of_later h hlater q (named_subset_of_member hmember hid)).symm
    · simp only [Scope.settledContext, Scope.context, Scope.config_settled, hconfig, hqualifies id hid]
  obtain ⟨before, inside, after, hholds⟩ := exists_holds h hp hquery hctx t.parameters
  rw [hconfig] at hcompile
  exact ⟨_, v, before, inside, after, hcompile, hholds⟩

end Compile

theorem queries_read_alike {G : Guarded} {c q : Criteria} {p : Predicate} {existenceOnly : Bool} {outer : Compiled}
    {w : Workspace} (h : G.workspace.compile c = (.ok outer, w)) (hp : p ∈ c.conditions)
    (hquery : p.query? = some (existenceOnly, q))
    (hqualifies : ∀ id ∈ q.columnOwners, qualifies (G.scope c.scope).config.qualify q.references id =
      qualifies (G.scope c.scope).config.qualify c.references id) (ops : List Operation)
    (hfree : (((G.perform (.compile c)).2.run ops).scope c.scope).frozen = false) :
    ∃ alone v before inside after,
      ((G.perform (.compile c)).2.run ops).workspace.compile q = (.ok alone, v) ∧
      alone.statement = Piece.filled alone.statementParts (alone.bindings.placeholders alone.style) ∧
      outer.Holds ((G.scope c.scope).settledContext c) (G.scope c.scope).parameters p existenceOnly q alone
        before inside after := by
  obtain ⟨hcompile, hopened⟩ := Workspace.compile_eq_ok h
  have hstart : (G.perform (.compile c)).2 = G.moveTo w := by
    rw [Guarded.perform, Guarded.settle_snd, h]
  rw [hstart] at hfree ⊢
  have hstill := (Guarded.scope_run (G := G.moveTo w) hopened ops).1
  have hlater : (w.scope c.scope).Later (((G.moveTo w).run ops).scope c.scope) :=
    Guarded.later_run (G := G.moveTo w) hopened ops
  have hfaults := (Scope.compile_eq_ok hcompile).2.1
  have hscope : q.scope = c.scope :=
    (((G.workspace.scope c.scope).referenceFaults_eq_nil_iff c).mp hfaults).scope q (query_mem_members hp hquery)
  obtain ⟨alone, t, before, inside, after, halone, hholds⟩ :=
    compile_of_query hcompile hp hquery hlater hfree hqualifies
  obtain ⟨v, hv, -⟩ := Workspace.compile_of_scope hscope hstill halone
  refine ⟨alone, v, before, inside, after, hv, ?_, hholds⟩
  have hwhole : (alone.bindings.placeholders alone.style).drop (Piece.holes ([] : List (Piece Parameter))).length =
      alone.placeholders alone.statementParts := placeholders_behind halone rfl
  rw [Piece.holes_nil, List.length_nil, List.drop_zero] at hwhole
  have hfilled := Piece.filled_holes (fun p => alone.style.write p.name p.ordinal) alone.statementParts []
  rw [List.append_nil] at hfilled
  rw [hwhole]
  exact hfilled.symm

def smallTeams : Criteria :=
  .mk { member 1 "teams" with selections := [.column (.raw "id") none] }
    [.test { matched := .immediate, target := some (.raw "size") } (.between .between (.int 2) (.int 9))] []

def inSmallTeam : Predicate :=
  .subquery { matched := .immediate, target := some (.raw "team") } (.range .isIn) smallTeams

def rota : Criteria :=
  .mk (member 0 "staff")
    [.test { matched := .immediate, target := some (.raw "age") } (.compare .ge (.int 18)), inSmallTeam] []

def rotaRoom : Guarded :=
  { workspace := { scopes := [(Scope.fresh {} {}).run
      [.register (member 0 "staff").entity none, .register (member 1 "teams").entity none]] } }

theorem smallTeams_read_alike :
    ∃ outer w alone v before inside after,
      rotaRoom.workspace.compile rota = (.ok outer, w) ∧
      ((rotaRoom.perform (.compile rota)).2.run [.drawParameter ⟨0⟩]).workspace.compile smallTeams = (.ok alone, v) ∧
      outer.statement =
        "SELECT * FROM staff t1 WHERE age >= :p1 AND team IN " ++
          "(SELECT id FROM teams t2 WHERE size BETWEEN :p2 AND :p3)" ∧
      alone.statement = "SELECT id FROM teams t2 WHERE size BETWEEN :p5 AND :p6" ∧
      outer.write inside = Piece.filled alone.statementParts
        ((outer.bindings.placeholders outer.style).drop (Piece.holes before).length) ∧
      outer.statementParts = before ++ .text "(" :: inside ++ .text ")" :: after := by
  have hstatement : (rotaRoom.workspace.compile rota).1.map Compiled.statement =
      .ok ("SELECT * FROM staff t1 WHERE age >= :p1 AND team IN " ++
        "(SELECT id FROM teams t2 WHERE size BETWEEN :p2 AND :p3)") := by rfl
  have hquery : (((rotaRoom.perform (.compile rota)).2.run [.drawParameter ⟨0⟩]).workspace.compile smallTeams).1.map
      Compiled.statement = .ok "SELECT id FROM teams t2 WHERE size BETWEEN :p5 AND :p6" := by rfl
  rcases hcompile : rotaRoom.workspace.compile rota with ⟨result, w⟩
  rw [hcompile] at hstatement
  obtain ⟨outer, rfl, houter⟩ := map_eq_ok.mp hstatement
  obtain ⟨alone, v, before, inside, after, halone, -, hholds⟩ := queries_read_alike hcompile (p := inSmallTeam)
    (by simp [rota, inSmallTeam]) rfl (by decide) [.drawParameter ⟨0⟩] rfl
  rw [halone] at hquery
  exact ⟨outer, w, alone, v, before, inside, after, rfl, halone, houter, Except.ok.inj hquery,
    hholds.text fun hexistence => (by cases hexistence), hholds.parts⟩

end QueryCriteria
