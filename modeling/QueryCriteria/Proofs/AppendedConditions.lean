import QueryCriteria.Proofs.Conditions
import QueryCriteria.Proofs.Grouping
import QueryCriteria.Proofs.Recompilation

namespace QueryCriteria

open Fragment

def Addition.slot? : Addition → Option Connective
  | .condition e => some e.head.connective
  | .built (.ok p) => some p.head.connective
  | _ => none

def Predicate.boundValues (enclosing : CriteriaId) (p : Predicate) : List Value :=
  p.reading (fun _ => []) (fun _ => []) (fun _ => Predicate.ownValues) enclosing

section Push

variable {entities : EntityLookup} {c d : Criteria} {a : Addition} {p : Predicate} {slot : Connective}

theorem connective_bindOwner (id : CriteriaId) (p : Predicate) :
    (p.bindOwner id).head.connective = p.head.connective := by
  cases p <;> rw [Predicate.bindOwner] <;> rfl

theorem connective_build {condition : Condition} (h : condition.build entities = .ok p) :
    p.head.connective = condition.head.connective := by
  obtain ⟨head, body⟩ := condition
  obtain ⟨q, hforms, rfl⟩ := Condition.exists_forms_of_build h
  have hform : q.head.connective = head.connective := by
    cases hforms <;> rfl
  unfold Condition.Head.own
  cases head.owner with
  | none => exact hform
  | some owner => exact (connective_bindOwner owner.id q).trans hform

theorem push_of_add (hadd : c.add entities a = .ok d) (hslot : a.slot? = some slot) :
    ∃ p, d = c.push p ∧ p.head.connective = slot := by
  cases a with
  | condition condition =>
      obtain ⟨p, hp, rfl⟩ := map_eq_ok.mp hadd
      obtain rfl := Option.some.inj hslot
      exact ⟨p, rfl, (connective_build hp).trans rfl⟩
  | built result =>
      obtain ⟨p, rfl, rfl⟩ := map_eq_ok.mp (mapError_eq_ok.mp hadd)
      exact ⟨p, rfl, Option.some.inj hslot⟩
  | _ => cases hslot

theorem predicateFragments_append (enclosing : CriteriaId) (first : Bool) (ps qs : List Predicate) :
    predicateFragments enclosing first (ps ++ qs) =
      predicateFragments enclosing first ps ++ predicateFragments enclosing (first && ps.isEmpty) qs := by
  induction ps generalizing first with
  | nil => simp [predicateFragments]
  | cons p ps ih => simp [predicateFragments, ih]

def Criteria.pushed (c : Criteria) (p : Predicate) : List Fragment :=
  predicateFragments c.id c.predicates.isEmpty [p.bindOwner c.id]

theorem boundValues_push (c : Criteria) (p : Predicate) :
    (c.push p).boundValues = c.boundValues ++ (p.bindOwner c.id).boundValues c.id := by
  obtain ⟨node, ps, js⟩ := c
  simp [Criteria.boundValues, Predicate.boundValues, Criteria.push, Criteria.node, Criteria.predicates, Criteria.joins,
    Criteria.id]

end Push

namespace Clauses

variable {α β : Type}

def filteredBy (c : Clauses α) (more : List α) : Clauses α :=
  { c with filter := c.filter ++ more }

theorem map_filteredBy (f : α → β) (c : Clauses α) (more : List α) :
    (c.filteredBy more).map f = (c.map f).filteredBy (more.map f) := by
  simp [filteredBy, map]

theorem number_filteredBy {c : Clauses (Piece Value)} (hselect : Piece.holes c.select = [])
    (hgroup : Piece.holes c.group = []) (horder : Piece.holes c.order = []) (names : NumberedNames)
    (more : List (Piece Value)) :
    (c.filteredBy more).number names =
      (c.number names).filteredBy (numberFrom names (Piece.holes c.bindingOrder).length more) := by
  simp only [filteredBy, number, bindingOrder, numberFrom_append, Piece.holes_append, hselect, hgroup, horder,
    List.append_nil, List.length_append, List.length_nil, Nat.add_zero, Clauses.mk.injEq, true_and, and_true]
  exact ⟨Piece.numberFrom_of_holes hselect names _ _, Piece.numberFrom_of_holes hgroup names _ _,
    Piece.numberFrom_of_holes horder names _ _⟩

end Clauses

theorem statementDraft_push (c : Criteria) (p : Predicate) :
    (c.push p).statementDraft = c.statementDraft.filteredBy (c.pushed p) := by
  obtain ⟨node, ps, js⟩ := c
  simp [Criteria.statementDraft, Criteria.push, draft, Criteria.node, Criteria.predicates, Criteria.joins, Criteria.id,
    Clauses.filteredBy, Criteria.pushed, predicateFragments_append]

def Compiled.filteredBy (c : Compiled) (more : List (Piece Parameter)) : Compiled :=
  { c with clauses := c.clauses.filteredBy more }

section Placed

variable (c : Criteria) (p : Predicate) (style : PlaceholderStyle) (ctx : Context) (names : NumberedNames)

theorem size_placed : (c.placed style ctx names).bindings.size =
    (Piece.holes (c.statementDraft.map (piece ctx)).bindingOrder).length := by
  rw [← Bindings.length_values, values_placed, ← holes_map_piece ctx, Clauses.bindingOrder_map]

theorem placed_push : (c.push p).placed style ctx names = (c.placed style ctx names).filteredBy
    (numberFrom names (c.placed style ctx names).bindings.size ((c.pushed p).map (piece ctx))) := by
  obtain ⟨hselect, hgroup, horder⟩ := holes_draft ctx false c
  rw [show draft false c = c.statementDraft from rfl] at hselect hgroup horder
  have hnode : (c.push p).node = c.node := by
    cases c
    rfl
  rw [Criteria.placed, statementDraft_push, Clauses.map_filteredBy,
    Clauses.number_filteredBy hselect hgroup horder, ← size_placed c style ctx names]
  simp only [Criteria.compiled, hnode]
  rfl

theorem parameters_filteredBy (more : List (Piece Parameter)) :
    ((c.placed style ctx names).filteredBy more).parameters =
      (c.placed style ctx names).parameters ++ Piece.holes more := by
  obtain ⟨hselect, hgroup, horder⟩ := holes_placed c style ctx names
  simp [Compiled.parameters, Compiled.filteredBy, Clauses.filteredBy, Clauses.bindingOrder, Piece.holes_append,
    hselect, hgroup, horder]

theorem fragments_pushed (σ : Placing) (placed : Nat) :
    σ.fragments placed (c.pushed p) =
      (if c.predicates.isEmpty then "" else " " ++ p.head.connective.text ++ " ") ++
        σ.fragments placed (predicateFragment c.id (p.bindOwner c.id)) := by
  have hlead : c.pushed p =
      [.lead (if c.predicates.isEmpty then none else some (p.bindOwner c.id).head.connective)] ++
        predicateFragment c.id (p.bindOwner c.id) := by
    simp [Criteria.pushed, predicateFragments]
  rw [hlead, σ.fragments_append, connective_bindOwner]
  cases c.predicates.isEmpty <;> rfl

theorem filterText_of_nil (h : c.predicates = []) : (c.placed style ctx names).filterText = "" := by
  obtain ⟨node, ps, js⟩ := c
  obtain rfl : ps = [] := h
  rfl

end Placed

section Compile

variable {s t u v : Scope} {c : Criteria} {p : Predicate} {compiled extended : Compiled}

theorem compile_push (h : s.compile c = (.ok compiled, u)) (hassigned : ∀ id ∈ c.named, (s.alias? id).isSome)
    (hlater : s.Later t) (hpush : t.compile (c.push p) = (.ok extended, v))
    (hqualifies : ∀ id ∈ c.columnOwners, qualifies s.config.qualify (c.push p).references id =
      qualifies s.config.qualify c.references id) :
    extended = (compiled.namedFrom t.parameters).filteredBy (numberFrom t.parameters compiled.bindings.size
      ((c.pushed p).map (piece (t.settledContext (c.push p))))) := by
  have halias : ∀ id ∈ c.named, (s.settled c).alias? id = (t.settled (c.push p)).alias? id := by
    intro id hid
    obtain ⟨a, ha⟩ := Option.isSome_iff_exists.mp (hassigned id hid)
    rw [(Scope.Later.refl s).alias?_settled c ha, hlater.alias?_settled (c.push p) ha]
  have hpieces : c.statementDraft.map (piece (s.settledContext c)) =
      c.statementDraft.map (piece (t.settledContext (c.push p))) := by
    refine pieces_congr halias (fun id hid => ?_) false
    simp only [Scope.settledContext, Scope.context, Scope.config_settled, hlater.config, hqualifies id hid]
  have hnamed : compiled.namedFrom t.parameters =
      c.placed t.config.placeholder (t.settledContext (c.push p)) t.parameters := by
    rw [Scope.placed_settled h, namedFrom_placed, Criteria.placed, hpieces, hlater.config]
    rfl
  have hsize : compiled.bindings.size = (compiled.namedFrom t.parameters).bindings.size := by
    rw [← Bindings.length_values, ← Scope.values_namedFrom h t.parameters, Bindings.length_values]
  rw [Scope.placed_settled hpush, placed_push, hsize, hnamed]

end Compile

structure Compiled.Appended (compiled : Compiled) (c : Criteria) (slot : Connective) (fragment : String)
    (values : List Value) (names : NumberedNames) (extended : Compiled) : Prop where
  select : extended.selectText = compiled.selectText
  source : extended.sourceText = compiled.sourceText
  group : extended.groupText = compiled.groupText
  order : extended.orderText = compiled.orderText
  window : extended.window? = compiled.window?
  first : c.predicates = [] → extended.filterText = fragment
  behind : c.predicates ≠ [] → extended.filterText = compiled.filterText ++ " " ++ slot.text ++ " " ++ fragment
  values : extended.bindings.values = compiled.bindings.values ++ values
  placeholders : compiled.bindings.placeholders compiled.style <+: extended.bindings.placeholders extended.style
  parameters : (compiled.namedFrom names).parameters <+: extended.parameters

theorem condition_appends {s t u v : Scope} {c d : Criteria} {compiled extended : Compiled} {entities : EntityLookup}
    {a : Addition} {slot : Connective} (h : s.compile c = (.ok compiled, u))
    (hdollar : s.config.placeholder = .dollar) (hassigned : ∀ id ∈ c.named, (s.alias? id).isSome)
    (hadd : c.add entities a = .ok d) (hslot : a.slot? = some slot) (hlater : s.Later t)
    (hcompile : t.compile d = (.ok extended, v))
    (hqualifies : ∀ id ∈ c.columnOwners,
      qualifies s.config.qualify d.references id = qualifies s.config.qualify c.references id) :
    ∃ p, d = c.push p ∧ p.head.connective = slot ∧
      compiled.Appended c slot
        ((t.placing d).fragments compiled.bindings.size (predicateFragment c.id (p.bindOwner c.id)))
        ((p.bindOwner c.id).boundValues c.id) t.parameters extended := by
  obtain ⟨p, rfl, hconnective⟩ := push_of_add hadd hslot
  have hextended := compile_push h hassigned hlater hcompile hqualifies
  obtain ⟨hselect, hgroup, horder⟩ := holes_placed c s.config.placeholder (s.settledContext c) s.parameters
  rw [← Scope.placed_settled h] at hselect hgroup horder
  have hstyle : compiled.style = .dollar := (style_of_compile h).trans hdollar
  have hstyle' : extended.style = .dollar := by
    rw [style_of_compile hcompile, hlater.config, hdollar]
  have hvalues : extended.bindings.values = compiled.bindings.values ++ (p.bindOwner c.id).boundValues c.id := by
    rw [values_of_compile hcompile, values_of_compile h, boundValues_push]
  have hfilter : extended.filterText =
      compiled.filterText ++ (t.placing (c.push p)).fragments compiled.bindings.size (c.pushed p) := by
    have hnamed : (compiled.namedFrom t.parameters).filterText = compiled.filterText :=
      Compiled.write_namedFrom_dollar hstyle _
    have hfill : (t.placing (c.push p)).fill = fun p : Parameter => compiled.style.write p.name p.ordinal := by
      rw [hstyle, ← hdollar, ← hlater.config]
      rfl
    rw [Placing.fragments, hfill, ← hnamed, hextended]
    exact Piece.write_append _ _ _
  refine ⟨p, rfl, hconnective, ?_⟩
  constructor
  case select =>
    rw [hextended]
    exact Compiled.write_namedFrom_of_holes hselect
  case source =>
    rw [hextended]
    exact Compiled.write_namedFrom_dollar hstyle _
  case group =>
    rw [hextended]
    exact Compiled.write_namedFrom_of_holes hgroup
  case order =>
    rw [hextended]
    exact Compiled.write_namedFrom_of_holes horder
  case window =>
    rw [hextended]
    rfl
  case first =>
    intro hnone
    have hempty : compiled.filterText = "" := by
      rw [Scope.placed_settled h]
      exact filterText_of_nil c _ _ _ hnone
    rw [hfilter, fragments_pushed, hempty, hnone]
    simp
  case behind =>
    intro hsome
    have hmore : c.predicates.isEmpty = false := by simpa using hsome
    rw [hfilter, fragments_pushed, hmore, hconnective]
    simp [String.append_assoc]
  case values => exact hvalues
  case placeholders =>
    rw [hstyle, hstyle', Bindings.placeholders_dollar, Bindings.placeholders_dollar, hvalues, List.length_append,
      ← List.range'_append_1, List.map_append]
    exact List.prefix_append _ _
  case parameters =>
    rw [hextended, Scope.placed_settled h, namedFrom_placed, parameters_filteredBy]
    exact List.prefix_append _ _

def crew : Criteria :=
  .mk (member 0 "staff")
    [.test { matched := .immediate, target := some (.raw "age") } (.compare .ge (.int 18))]
    [.mk (member 1 "shifts")
      [.test { matched := .immediate, target := some (.raw "hours") } (.compare .lt (.int 9))] []]

def crewScope : Scope :=
  (((Scope.fresh { placeholder := .dollar } {}).run
    [.register (member 0 "staff").entity none, .register (member 1 "shifts").entity none]).compile crew).2

def crewEntities : EntityLookup where
  entity? owner := (crewScope.slot? owner.id).map (·.entity)
  registry _ := crewScope.registry

def orInTeams : Addition :=
  .condition ⟨{ column := .raw "team", connective := .or }, .range .isIn (some (.list [.int 1, .int 2]))⟩

theorem crew_in_teams :
    ∃ compiled u d extended v fragment values, crewScope.compile crew = (.ok compiled, u) ∧
      crew.add crewEntities orInTeams = .ok d ∧
      (crewScope.run [.drawParameter]).compile d = (.ok extended, v) ∧
      compiled.Appended crew .or fragment values (crewScope.run [.drawParameter]).parameters extended ∧
      compiled.statement = "SELECT * FROM staff t1 INNER JOIN shifts t2 ON hours < $1 WHERE age >= $2" ∧
      extended.statement =
        "SELECT * FROM staff t1 INNER JOIN shifts t2 ON hours < $1 WHERE age >= $2 OR team IN ($3,$4)" := by
  have hadd : crew.add crewEntities orInTeams = .ok (crew.push (.test
    { matched := .immediate, target := some (.raw "team"), connective := .or }
    (.range .isIn [.int 1, .int 2]))) := rfl
  obtain ⟨p, -, -, happended⟩ := condition_appends (s := crewScope) (t := crewScope.run [.drawParameter]) rfl rfl
    (by decide) hadd rfl (crewScope.later_run _) rfl (by decide)
  exact ⟨_, _, _, _, _, _, _, rfl, hadd, rfl, happended, by decide, by decide⟩

end QueryCriteria
