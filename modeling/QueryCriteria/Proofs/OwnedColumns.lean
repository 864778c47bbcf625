import QueryCriteria.Proofs.DerivedCopy
import QueryCriteria.Proofs.LocalSessions
import QueryCriteria.Proofs.Qualification

namespace QueryCriteria

open QueryCriteria.Model

variable {σ : ScopeId} {given : Target → Prop} {registered : CriteriaId → Option Entity}

def ColumnUse.Rooted (given : Target → Prop) (registered : CriteriaId → Option Entity) (use : ColumnUse) :
    Prop :=
  given use.target ∨ use.target.BelongsTo (registered use.owner)

section Uses

theorem rooted_itemUses {n : Node} (h : n.Rooted σ given registered) :
    ∀ use ∈ n.itemUses, use.Rooted given registered := by
  intro use huse
  obtain ⟨target, htarget, rfl⟩ := List.mem_map.mp huse
  rw [ColumnUse.Rooted, Node.use, h.entity]
  rcases List.mem_append.mp htarget with hdefault | hselected
  · unfold Node.defaultTargets at hdefault
    split at hdefault
    · obtain ⟨column, hcolumn, rfl⟩ := List.mem_map.mp hdefault
      exact .inr ⟨n.entity, rfl, (List.mem_filter.mp hcolumn).1⟩
    · cases hdefault
  · exact h.selections target hselected

theorem rooted_groupUses {n : Node} (h : n.Rooted σ given registered) :
    ∀ use ∈ n.groupUses, use.Rooted given registered := by
  intro use huse
  obtain ⟨target, htarget, rfl⟩ := List.mem_map.mp huse
  rw [ColumnUse.Rooted, Node.use, h.entity]
  exact .inr (h.groups target htarget)

theorem rooted_orderUses {n : Node} (h : n.Rooted σ given registered) :
    ∀ use ∈ n.orderUses, use.Rooted given registered := by
  intro use huse
  obtain ⟨target, htarget, rfl⟩ := List.mem_map.mp huse
  rw [ColumnUse.Rooted, Node.use, h.entity]
  exact .inr (h.orders target htarget)

variable {head : Predicate.Head} {enclosing : CriteriaId}

theorem rooted_columnUse (howner : head.owner.isSome) {target : Target}
    (h : target.BelongsTo (head.owner.bind registered)) :
    (head.columnUse enclosing target).Rooted given registered := by
  obtain ⟨owner, howner⟩ := Option.isSome_iff_exists.mp howner
  rw [howner] at h
  right
  simpa [Predicate.Head.columnUse, howner] using h

theorem rooted_testUses {t : Test} (hhead : head.Grounded registered) (ht : t.Grounded registered head.owner)
    (howner : head.owner.isSome) :
    ∀ use ∈ (Predicate.test head t).columnUses enclosing, use.Rooted given registered := by
  simp only [Predicate.columnUses, List.forall_mem_flatMap]
  intro target htarget use huse
  have hown : (head.columnUse enclosing target).Rooted given registered :=
    rooted_columnUse howner (hhead target (Option.mem_toList.mp htarget))
  cases t with
  | template args column =>
      obtain ⟨subject, hsubject, huse⟩ := List.mem_flatMap.mp huse
      rw [List.eq_of_mem_replicate huse]
      exact rooted_columnUse howner (ht subject (Option.mem_toList.mp hsubject))
  | columnEqual other =>
      rcases List.mem_pair.mp huse with rfl | rfl
      · exact hown
      · exact .inr ht
  | _ =>
      obtain rfl := List.mem_singleton.mp huse
      exact hown

theorem rooted_uses :
    (∀ c : Criteria, c.Rooted σ given registered →
      (∀ existenceOnly, ∀ use ∈ c.columnUses existenceOnly, use.Rooted given registered) ∧
      (∀ use ∈ c.participantUses, use.Rooted given registered) ∧
      ∀ use ∈ c.fetchedUses, use.Rooted given registered) ∧
    ∀ p : Predicate, p.Held σ given registered → ∀ enclosing, ∀ use ∈ p.columnUses enclosing,
      use.Rooted given registered := by
  apply tree_induction
  case criteria =>
    intro node ps js hp hj h
    obtain ⟨hnode, hps, hjs⟩ := rooted_mk.mp h
    have hconditions : ∀ use ∈ conditionUses node.id ps, use.Rooted given registered := by
      rw [conditionUses_eq_flatMap, List.forall_mem_flatMap]
      exact fun p hmem => hp p hmem (hps p hmem) node.id
    have hjoins : ∀ use ∈ joinUses js, use.Rooted given registered := by
      rw [joinUses_eq_flatMap, List.forall_mem_flatMap]
      exact fun c hc => (hj c hc (hjs c hc)).2.1
    have hfetched : ∀ use ∈ allFetchedUses js, use.Rooted given registered := by
      rw [allFetchedUses_eq_flatMap, List.forall_mem_flatMap]
      exact fun c hc => (hj c hc (hjs c hc)).2.2
    have hitems := rooted_itemUses hnode
    refine ⟨fun existenceOnly => ?_, ?_, ?_⟩
    · simp only [Criteria.columnUses, List.forall_mem_append]
      refine ⟨⟨⟨⟨?_, hjoins⟩, hconditions⟩, rooted_groupUses hnode⟩, rooted_orderUses hnode⟩
      split
      · simp
      · exact List.forall_mem_append.mpr ⟨hitems, hfetched⟩
    · exact List.forall_mem_append.mpr ⟨hconditions, hjoins⟩
    · rw [Criteria.fetchedUses, List.forall_mem_append]
      refine ⟨?_, hfetched⟩
      split
      · exact hitems
      · simp
  case test =>
    intro head t h enclosing
    obtain ⟨⟨hhead, ht⟩, howner⟩ := held_test.mp h
    exact rooted_testUses hhead ht howner
  case existence =>
    intro head negated query hq h enclosing
    exact (hq (held_existence.mp h).2.2).1 true
  case subquery =>
    intro head op query hq h enclosing
    obtain ⟨hhead, howner, hquery⟩ := held_subquery.mp h
    rw [Predicate.columnUses, List.forall_mem_append, List.forall_mem_map]
    exact ⟨fun target htarget => rooted_columnUse howner (hhead target (Option.mem_toList.mp htarget)),
      (hq hquery).1 false⟩
  case nested =>
    intro head negated children hc h enclosing
    obtain ⟨-, -, hchildren⟩ := held_nested.mp h
    rw [Predicate.columnUses, conditionUses_eq_flatMap, List.forall_mem_flatMap]
    exact fun p hmem => hc p hmem (hchildren p hmem) enclosing

end Uses

structure StandsFor {ctx : Context} (parts : List (Traced ctx)) (a : String) (id : CriteriaId)
    (table : String) : Prop where
  named : ∃ y ∈ parts, y.fragment = .source id table ∧ y.part = .text (table ++ " " ++ a)
  only : ∀ y ∈ parts, ∀ other named, y.fragment = .source other named → ctx.alias? other = some a →
    other = id ∧ named = table

def ColumnUse.UnderOwner {ctx : Context} (parts : List (Traced ctx)) (ids : List CriteriaId) (use : ColumnUse)
    (column : Column) (table : String) (x : Traced ctx) : Prop :=
  x.part = .text column.name ∨ ∃ a, ctx.alias? use.owner = some a ∧
    x.part = .text (a ++ "." ++ column.name) ∧ (use.owner ∈ ids → StandsFor parts a use.owner table)

section Compile

variable {s u : Scope} {c : Criteria} {compiled : Compiled}

theorem mem_tables {ctx : Context} {parts : List (Traced ctx)} {id : CriteriaId} {table : String} :
    (id, table) ∈ parts.filterMap (fun y => y.fragment.table?) ↔
      ∃ y ∈ parts, y.fragment = .source id table := by
  rw [List.mem_filterMap]
  refine exists_congr fun y => and_congr_right fun _ => ?_
  cases y.fragment <;> simp [Fragment.table?]

theorem standsFor_member (h : s.compile c = (.ok compiled, u)) {cs : Clauses (Traced (u.context c.references))}
    (hfragments : cs.map Traced.fragment = c.statementDraft) {m : Criteria} (hm : m ∈ c.members) {a : String}
    (ha : u.alias? m.id = some a) : StandsFor cs.statement a m.id m.node.entity.table := by
  have hperm := tables_perm_members h hfragments
  constructor
  · have hmem := hperm.mem_iff.mpr (List.mem_map_of_mem hm)
    obtain ⟨y, hy, hsource⟩ := mem_tables.mp hmem
    refine ⟨y, hy, hsource, ?_⟩
    have hagrees := y.agrees
    rw [hsource] at hagrees
    cases hpart : y.part with
    | text s => simpa [hpart, Piece.map, Fragment.piece, Scope.context, ha] using hagrees
    | hole p => simp [hpart, Piece.map, Fragment.piece] at hagrees
  · intro y hy other named hsource hother
    obtain ⟨n, hn, heq⟩ := List.mem_map.mp (hperm.mem_iff.mp (mem_tables.mpr ⟨y, hy, hsource⟩))
    obtain ⟨rfl, rfl⟩ := Prod.mk.inj heq
    obtain ⟨-, hfaults, -, -, halias⟩ := Scope.compile_eq_ok h
    have haliases := ((s.referenceFaults_eq_nil_iff c).mp hfaults).aliases
    have hsame : (s.settled c).alias? n.id = (s.settled c).alias? m.id := by
      rw [← halias, ← halias, ha]
      exact hother
    obtain rfl := List.inj_on_of_nodup_map haliases hn hm hsame
    exact ⟨rfl, rfl⟩

theorem rooted_of_traced (hc : c.Rooted σ given registered) (h : s.compile c = (.ok compiled, u))
    {ctx : Context} {cs : Clauses (Traced ctx)} (hfragments : cs.map Traced.fragment = c.statementDraft)
    {x : Traced ctx} (hx : x ∈ cs.bindingOrder) {use : ColumnUse} (huse : x.fragment = .column use) :
    use.Rooted given registered := by
  obtain ⟨-, -, hfailure, -, -⟩ := Scope.compile_eq_ok h
  have hdraft := Clauses.mem_statement (Traced.fragment_mem hfragments hx) (by rw [huse]; rfl)
  refine (rooted_uses.1 c hc).1 false use ?_
  rw [← column?_statementDraft (Fragment.accepted_of_firstFailure? hfailure)]
  exact List.mem_filterMap.mpr ⟨_, hdraft, by rw [huse]; rfl⟩

theorem underOwner_of_traced (hc : c.Rooted σ given registered) (h : s.compile c = (.ok compiled, u))
    {cs : Clauses (Traced (u.context c.references))} (hfragments : cs.map Traced.fragment = c.statementDraft)
    {x : Traced (u.context c.references)} (hx : x ∈ cs.bindingOrder) {use : ColumnUse} {column : Column}
    (huse : x.fragment = .column use) (htarget : use.target = .resolved column)
    (halias : use.tableAlias = none) {entity : Entity} (hentity : registered use.owner = some entity) :
    use.UnderOwner cs.statement (c.members.map Criteria.id) column entity.table x := by
  obtain ⟨text, hpart, hwritten⟩ := written_of_traced h hfragments hx huse
  cases hwritten with
  | given hgiven => cases halias.symm.trans hgiven
  | raw _ hraw => cases htarget.symm.trans hraw
  | bare _ hresolved _ =>
      cases htarget.symm.trans hresolved
      exact .inl hpart
  | @prefixed own a _ hresolved _ hown =>
      cases htarget.symm.trans hresolved
      refine .inr ⟨a, hown, hpart, fun hmem => ?_⟩
      obtain ⟨m, hm, hid⟩ := List.mem_map.mp hmem
      have hsame : some m.node.entity = some entity := by
        rw [← (hc.nodes m hm).entity, ← hentity, ← hid]
        rfl
      rw [← hid] at hown ⊢
      rw [← Option.some.inj hsame]
      exact standsFor_member h hfragments hm hown

end Compile

section Add

variable {w v : Workspace} {c d : Criteria} {a : Addition}

theorem adds_of_add (hmodels : w.Models c.node) (h : w.add c a = (some d, v)) :
    c.node.Adds c.node.entity.Has c.node.entity.Has d.node := by
  have hkept : c.node.Adds c.node.entity.Has c.node.entity.Has c.node :=
    ⟨rfl, rfl, rfl, fun _ => .inl, fun _ => .inl, fun _ => .inl⟩
  unfold Workspace.add at h
  split at h
  · next hbuilt =>
    cases h
    rcases add_cases hbuilt with ⟨p, rfl, -⟩ | ⟨f, rfl, hadds⟩
    · obtain ⟨node, ps, js⟩ := c
      exact hkept
    · have hfound : c.Finds w.entities = c.node.entity.Has := by
        funext target
        exact propext ⟨has_of_finds hmodels, fun htarget => ⟨_, hmodels, htarget⟩⟩
      obtain ⟨node, ps, js⟩ := c
      exact hfound ▸ hadds
  · cases h
    exact hkept
  · cases h

end Add

theorem columns_of_owners {S : Session} (hS : S.ReachableWithin σ given) :
    (∀ c ∈ S.criteria, c.Rooted σ given (S.workspace.registered σ)) ∧
    (∀ p ∈ S.predicates, p.Rooted σ given (S.workspace.registered σ)) ∧
    (∀ p ∈ S.predicates, ∀ ids q, p.Handed S.workspace.entities ids q →
      q.owners = p.owners.map (· <|> ids.head?)) ∧
    (∀ c ∈ S.criteria, ∀ a d w, S.workspace.add c a = (some d, w) →
      c.node.Adds c.node.entity.Has c.node.entity.Has d.node) ∧
    ∀ c ∈ S.criteria, ∀ compiled w, S.workspace.compile c = (.ok compiled, w) →
      ∃ cs : Clauses (Traced ((w.scope σ).context c.references)),
        cs.map Traced.part = compiled.clauses ∧ cs.map Traced.fragment = c.statementDraft ∧
          cs.statement.map Traced.part = compiled.statementParts ∧
          ∀ x ∈ cs.statement, ∀ use column, x.fragment = .column use → use.target = .resolved column →
            ¬ given use.target →
              ∃ entity, S.workspace.registered σ use.owner = some entity ∧ column ∈ entity.columns ∧
                (use.tableAlias = none →
                  use.UnderOwner cs.statement (c.members.map Criteria.id) column entity.table x) := by
  have hrooted := Session.rooted_of_reachable hS
  refine ⟨hrooted.criteria, hrooted.predicates, fun p hp ids q hq => ?_, fun c hc a d w =>
      adds_of_add (Session.models_of_reachable (Session.reachable_of_within hS) hc).self,
    fun c hc compiled w h => ?_⟩
  · exact owners_of_handed (fun m hm => ((hrooted.predicates p hp).queries m hm).owned) hq
  · have hc := hrooted.criteria c hc
    obtain ⟨hcompile, -⟩ := Workspace.compile_eq_ok h
    rw [show c.scope = σ from (hc.nodes c c.self_mem_members).scope] at hcompile
    obtain ⟨cs, hparts, hfragments, hstatement⟩ := exists_traced hcompile
    refine ⟨cs, hparts, hfragments, hstatement, fun x hx use column huse htarget hgiven => ?_⟩
    have hx := Traced.mem_bindingOrder_of_column hx huse
    have hbelongs := (rooted_of_traced hc hcompile hfragments hx huse).resolve_left hgiven
    rw [htarget] at hbelongs
    obtain ⟨entity, hentity, hcolumn⟩ := hbelongs
    exact ⟨entity, hentity, hcolumn,
      fun halias => underOwner_of_traced hc hcompile hfragments hx huse htarget halias hentity⟩

def home : Column :=
  { name := "home", property := "home" }

def city : Column :=
  { name := "city", property := "city" }

def ship : Entity :=
  { name := "Ship", table := "ships", columns := [home] }

def port : Entity :=
  { name := "Port", table := "ports", columns := [city] }

def docks : Session :=
  let opened : Session := { workspace := (Workspace.openScope {} {} { entities := [ship, port] }).2 }
  let built := opened.taking (opened.workspace.create ⟨0⟩ "Ship" none)
  built.taking (built.workspace.create ⟨0⟩ "Port" none)

def homePort : Criteria :=
  (Criteria.fresh ⟨0⟩ ⟨1⟩ port none).push
    (.test { matched := .standard, target := some (.resolved city) }
      (.columnEqual { criteria := ⟨0⟩, target := .resolved home }))

def ships : Criteria :=
  (Criteria.fresh ⟨0⟩ ⟨0⟩ ship none).join homePort

theorem reachable_homePort : (docks.holding homePort).ReachableWithin ⟨0⟩ given := by
  let registry : Registry := { entities := [ship, port] }
  let atHome : Condition := .equalsProperty .and "city" (.fresh ⟨0⟩ ⟨0⟩ ship none) "home"
  have hdocks : docks.ReachableWithin ⟨0⟩ given :=
    .tail (.tail (.single (.openScope {} registry)) (.create "Ship" none (by decide)))
      (.create "Port" none (by decide))
  have hscope : ∀ condition, Addition.condition atHome = .condition condition →
      ∀ o ∈ condition.referents, o.scope = ⟨0⟩ := by
    rintro condition ⟨⟩ o ho
    obtain rfl := List.mem_singleton.mp ho
    rfl
  have hadd : docks.workspace.add (.fresh ⟨0⟩ ⟨1⟩ port none) (.condition atHome) =
      (some homePort, docks.workspace) := rfl
  exact hdocks.tail (.add List.mem_cons_self hscope (List.nil_subset _) (List.nil_subset _) hadd)

theorem home_of_ships :
    ∃ compiled w, docks.workspace.compile ships = (.ok compiled, w) ∧
      ∃ cs : Clauses (Traced ((w.scope ⟨0⟩).context ships.references)),
        cs.map Traced.part = compiled.clauses ∧
          ∀ x ∈ cs.statement,
            x.fragment = .column { owner := ⟨0⟩, target := .resolved home, correlated := true } →
              home ∈ ship.columns ∧ (x.part = .text "home" ∨
                x.part = .text "t1.home" ∧ StandsFor cs.statement "t1" ⟨0⟩ "ships") := by
  have hships : ((docks.holding homePort).holding ships).ReachableWithin ⟨0⟩ fun _ => False :=
    reachable_homePort.tail (.join (List.mem_of_getElem? (i := 2) rfl) List.mem_cons_self)
  obtain ⟨compiled, w, hcompile, halias⟩ : ∃ compiled w, docks.workspace.compile ships = (.ok compiled, w) ∧
      (w.scope ⟨0⟩).alias? ⟨0⟩ = some "t1" := ⟨_, _, rfl, rfl⟩
  obtain ⟨-, -, -, -, hcolumns⟩ := columns_of_owners hships
  obtain ⟨cs, hparts, -, -, hplaced⟩ := hcolumns ships List.mem_cons_self compiled w hcompile
  refine ⟨compiled, w, hcompile, cs, hparts, fun x hx hhome => ?_⟩
  obtain ⟨entity, hentity, hcolumn, hunder⟩ := hplaced x hx _ _ hhome rfl not_false
  obtain rfl : entity = ship := Option.some.inj hentity.symm
  refine ⟨hcolumn, (hunder rfl).imp_right ?_⟩
  rintro ⟨a, ha, hpart, hstands⟩
  obtain rfl := Option.some.inj (halias.symm.trans ha)
  exact ⟨hpart, hstands (by decide)⟩

def sharedAlias : Session :=
  let w := docks.workspace
  let grown := (docks.holding homePort).taking (w.create ⟨0⟩ "Port" none)
  let fix := fun (S : Session) id =>
    { S with workspace := S.workspace.setScope ⟨0⟩ ((S.workspace.scope ⟨0⟩).step (.fixAlias id "t1")) }
  fix (fix grown ⟨2⟩) ⟨0⟩

def underAlias : Criteria :=
  (Criteria.fresh ⟨0⟩ ⟨0⟩ ship none).push
    (.test { matched := .standard, target := some (.resolved home), tableAlias := some "t2" }
      (.nullable .isNotNull))

def ofOtherPort : Criteria :=
  underAlias.push
    (.test { matched := .standard, target := some (.resolved city), owner := some ⟨2⟩ }
      (.nullable .isNotNull))

def byHand : Criteria :=
  ofOtherPort.mapNode fun n => { n with selections := [.column (.resolved city) none] }

theorem reachable_byHand :
    ((((sharedAlias.holding underAlias).holding ofOtherPort).holding byHand).holding
      (byHand.join homePort)).ReachableWithin ⟨0⟩ (· = .resolved city) := by
  let homed : Condition := ⟨{ column := .property "home", tableAlias := some "t2" }, .nullable .isNotNull⟩
  let sited : Condition :=
    ⟨{ column := .property "city", owner := some ⟨⟨0⟩, ⟨2⟩⟩ }, .nullable .isNotNull⟩
  have hshared : sharedAlias.ReachableWithin ⟨0⟩ (· = .resolved city) := by
    refine .tail (.tail (.tail reachable_homePort (.create "Port" none ?_))
      (.act (a := .fixAlias ⟨2⟩ "t1") ⟨0⟩ ?_)) (.act (a := .fixAlias ⟨0⟩ "t1") ⟨0⟩ ?_)
    · decide
    · simp
    · simp
  have hunder : (sharedAlias.holding underAlias).ReachableWithin ⟨0⟩ (· = .resolved city) := by
    refine hshared.tail (.add (a := .condition homed) (c := .fresh ⟨0⟩ ⟨0⟩ ship none) ?_ ?_
      (List.nil_subset _) (List.nil_subset _) rfl)
    · exact List.mem_of_getElem? (i := 3) rfl
    · rintro condition ⟨⟩ o ho
      cases ho
  have hother : ((sharedAlias.holding underAlias).holding ofOtherPort).ReachableWithin ⟨0⟩
      (· = .resolved city) := by
    refine hunder.tail (.add (a := .condition sited) (c := underAlias) List.mem_cons_self ?_
      (List.nil_subset _) (List.nil_subset _) rfl)
    rintro condition ⟨⟩ o ho
    obtain rfl := List.mem_singleton.mp ho
    rfl
  have hbyHand : (((sharedAlias.holding underAlias).holding ofOtherPort).holding byHand).ReachableWithin ⟨0⟩
      (· = .resolved city) := by
    refine hother.tail (.configure List.mem_cons_self ⟨rfl, rfl, rfl, ?_, fun _ => .inl, fun _ => .inl⟩)
    intro target htarget
    exact .inr (List.mem_singleton.mp htarget)
  exact hbyHand.tail (.join List.mem_cons_self (List.mem_of_getElem? (i := 4) rfl))

theorem columns_under_other_alias :
    ∃ S : Session, S.ReachableWithin ⟨0⟩ (· = .resolved city) ∧ ∃ c ∈ S.criteria,
      ∃ compiled w, S.workspace.compile c = (.ok compiled, w) ∧
        compiled.statement = "SELECT t1.city FROM ships t1 INNER JOIN ports t2 ON t2.city = t1.home " ++
          "WHERE t2.home IS NOT NULL AND t1.city IS NOT NULL" ∧
        w.registered ⟨0⟩ ⟨0⟩ = some ship ∧ (∀ column ∈ ship.columns, column.name ≠ "city") ∧
        w.registered ⟨0⟩ ⟨1⟩ = some port ∧ (∀ column ∈ port.columns, column.name ≠ "home") := by
  exact ⟨_, reachable_byHand, _, List.mem_cons_self, _, _, rfl, by rfl, rfl, by decide, rfl, by decide⟩

end QueryCriteria
