import QueryCriteria.Proofs.Faults
import QueryCriteria.Proofs.Pieces
import QueryCriteria.Proofs.TestFragments

namespace QueryCriteria

namespace Fragment

def source? : Fragment → Option CriteriaId
  | .source id _ => some id
  | _ => none

def table? : Fragment → Option (CriteriaId × String)
  | .source id table => some (id, table)
  | _ => none

theorem selective_table? : Selective table? := by
  intro f _ hsource _
  cases f with
  | source id table => cases hsource
  | _ => rfl

theorem table?_test (enclosing : CriteriaId) (head : Predicate.Head) (t : Test) :
    (predicateFragment enclosing (.test head t)).filterMap table? = [] := by
  refine List.filterMap_eq_nil_iff.mpr fun f hf => ?_
  have hinner : f.isSource = false := by
    unfold predicateFragment at hf
    split at hf
    · obtain rfl := List.mem_singleton.mp hf
      rfl
    · exact (inner_testFragments List.mem_cons_self (fun _ => List.mem_cons_of_mem _) f hf).1
  cases f with
  | source id table => cases hinner
  | _ => rfl

theorem table?_statementDraft {c : Criteria} (h : Accepted c.statementDraft.bindingOrder) :
    (c.statementDraft.statement.filterMap table?).Perm
      (c.members.map fun m => (m.id, m.node.entity.table)) := by
  have hreads := Reads.of_accepted selective_table? (g := fun _ => [])
    (fun enclosing head t _ => table?_test enclosing head t) (fun _ _ _ => rfl) (fun _ _ _ => rfl)
    (fun _ _ _ => rfl)
  have hread := (hreads.of_draft.1 c).1 false h
  rw [filterMap_bindingOrder_draft selective_table?] at hread
  rw [Criteria.statementDraft, filterMap_statement_draft selective_table?, hread]
  have hperm := ((reading_perm_gather
    (fun c : Criteria => [(c.id, c.node.entity.table)]) fun _ => []).1 c).1
  rwa [gather_criteria, ← List.map_eq_flatMap] at hperm

theorem source?_eq (f : Fragment) : f.source? = f.table?.map Prod.fst := by
  cases f <;> rfl

end Fragment

structure Traced (ctx : Context) where
  fragment : Fragment
  part : Piece Parameter
  agrees : part.map Parameter.value = fragment.piece ctx

namespace Traced

variable {ctx : Context}

instance : SqlPart (Traced ctx) where
  sql s := ⟨.sql s, .text s, rfl⟩
  heading s _ := ⟨.sql s, .text s, rfl⟩
  isEmpty x := SqlPart.isEmpty x.part

theorem faithful_part : SqlPart.Faithful (part : Traced ctx → Piece Parameter) where
  sql _ := rfl
  heading _ _ := rfl
  isEmpty _ := rfl

theorem blind_table? : SqlPart.Blind fun x : Traced ctx => x.fragment.table? where
  sql _ := rfl
  heading _ _ := rfl
  empty x hx := by
    obtain ⟨f, part, agrees⟩ := x
    cases f with
    | source id table =>
        cases part with
        | text s =>
            have hs : s = table ++ " " ++ (ctx.alias? id).getD "" := by
              simpa [Piece.map, Fragment.piece] using agrees
            simp [SqlPart.isEmpty, hs] at hx
        | hole p => cases hx
    | _ => rfl

theorem mem_bindingOrder_of_column {cs : Clauses (Traced ctx)} {x : Traced ctx} (hx : x ∈ cs.statement)
    {use : ColumnUse} (huse : x.fragment = .column use) : x ∈ cs.bindingOrder := by
  rcases Clauses.mem_bindingOrder hx with hx | ⟨text, rfl⟩ | ⟨text, parts, -, rfl⟩
  · exact hx
  · cases huse
  · cases huse

theorem fragment_mem {cs : Clauses (Traced ctx)} {d : Clauses Fragment} (hcs : cs.map fragment = d)
    {x : Traced ctx} (hx : x ∈ cs.bindingOrder) : x.fragment ∈ d.bindingOrder := by
  rw [← hcs, Clauses.bindingOrder_map]
  exact List.mem_map_of_mem hx

theorem exists_parts (ctx : Context) (names : NumberedNames) (placed : Nat) (fs : List Fragment) :
    ∃ ts : List (Traced ctx), ts.map part = numberFrom names placed (fs.map (Fragment.piece ctx)) ∧
      ts.map fragment = fs := by
  induction fs generalizing placed with
  | nil => exact ⟨[], rfl, rfl⟩
  | cons f fs ih =>
      cases hpiece : f.piece ctx with
      | text s =>
          obtain ⟨ts, hparts, hfragments⟩ := ih placed
          exact ⟨⟨f, .text s, hpiece.symm⟩ :: ts, by simp [hpiece, numberFrom, hparts],
            by simp [hfragments]⟩
      | hole value =>
          obtain ⟨ts, hparts, hfragments⟩ := ih (placed + 1)
          exact ⟨⟨f, .hole ⟨NumberedNames.name names.stem (names.issued + UInt64.ofNat (placed + 1)),
            placed + 1, value⟩, hpiece.symm⟩ :: ts,
            by simp [hpiece, numberFrom, hparts], by simp [hfragments]⟩

theorem exists_clauses (ctx : Context) (names : NumberedNames) (d : Clauses Fragment) :
    ∃ cs : Clauses (Traced ctx), cs.map part = (d.map (Fragment.piece ctx)).number names ∧
      cs.map fragment = d := by
  choose parts hparts hfragments using exists_parts ctx names
  let pieces := d.map (Fragment.piece ctx)
  let source := (Piece.holes pieces.source).length
  let filter := source + (Piece.holes pieces.filter).length
  let group := filter + (Piece.holes pieces.group).length
  let order := group + (Piece.holes pieces.order).length
  refine ⟨⟨parts order d.select, parts 0 d.source, parts source d.filter, parts filter d.group,
    parts group d.order, d.window⟩, ?_, ?_⟩
  · simp only [Clauses.map, hparts]
    rfl
  · simp only [Clauses.map, hfragments]

end Traced

section Compile

variable {s u : Scope} {c : Criteria} {compiled : Compiled}

theorem context_of_compile (h : s.compile c = (.ok compiled, u)) :
    u.context c.references = s.settledContext c := by
  obtain ⟨-, -, -, -, halias⟩ := Scope.compile_eq_ok h
  have hconfig : u.config = (s.settled c).config := by
    rw [s.config_settled, ← s.config_compile c, h]
  have halias : u.alias? = (s.settled c).alias? := funext halias
  simp only [Scope.settledContext, Scope.context, hconfig, halias]

theorem exists_traced (h : s.compile c = (.ok compiled, u)) :
    ∃ cs : Clauses (Traced (u.context c.references)),
      cs.map Traced.part = compiled.clauses ∧ cs.map Traced.fragment = c.statementDraft ∧
        cs.statement.map Traced.part = compiled.statementParts := by
  rw [context_of_compile h]
  obtain ⟨-, -, -, rfl, -⟩ := Scope.compile_eq_ok h
  obtain ⟨cs, hparts, hfragments⟩ :=
    Traced.exists_clauses (s.settledContext c) s.parameters c.statementDraft
  refine ⟨cs, hparts, hfragments, ?_⟩
  rw [← Clauses.statement_map Traced.faithful_part, hparts]
  rfl

theorem failure?_of_traced (h : s.compile c = (.ok compiled, u)) {ctx : Context}
    {cs : Clauses (Traced ctx)} (hcs : cs.map Traced.fragment = c.statementDraft) {x : Traced ctx}
    (hx : x ∈ cs.bindingOrder) {use : ColumnUse} (huse : x.fragment = .column use) :
    use.failure? (u.context c.references) = none := by
  obtain ⟨-, -, hfailure, -, -⟩ := Scope.compile_eq_ok h
  have hdraft := Traced.fragment_mem hcs hx
  rw [huse] at hdraft
  rw [context_of_compile h]
  exact List.findSome?_eq_none_iff.mp hfailure _ hdraft

theorem tables_perm_members (h : s.compile c = (.ok compiled, u)) {ctx : Context}
    {cs : Clauses (Traced ctx)} (hcs : cs.map Traced.fragment = c.statementDraft) :
    (cs.statement.filterMap fun x => x.fragment.table?).Perm
      (c.members.map fun m => (m.id, m.node.entity.table)) := by
  obtain ⟨-, -, hfailure, -, -⟩ := Scope.compile_eq_ok h
  have htables : cs.statement.filterMap (fun x => x.fragment.table?) =
      c.statementDraft.statement.filterMap Fragment.table? := by
    rw [Clauses.filterMap_statement Traced.blind_table?,
      Clauses.filterMap_statement Fragment.selective_table?.blind, ← hcs]
    simp only [Clauses.map, List.filterMap_map]
    rfl
  rw [htables]
  exact Fragment.table?_statementDraft (Fragment.accepted_of_firstFailure? hfailure)

theorem targets_perm_members (h : s.compile c = (.ok compiled, u)) {ctx : Context}
    {cs : Clauses (Traced ctx)} (hcs : cs.map Traced.fragment = c.statementDraft) :
    (cs.statement.filterMap fun x => x.fragment.source?).Perm (c.members.map Criteria.id) := by
  have hperm := (tables_perm_members h hcs).map Prod.fst
  rw [List.map_map, List.map_filterMap] at hperm
  exact (List.Perm.of_eq (List.filterMap_congr fun x _ => x.fragment.source?_eq)).trans hperm

theorem tables_apart (h : s.compile c = (.ok compiled, u)) :
    ∃ cs : Clauses (Traced (u.context c.references)),
      cs.map Traced.part = compiled.clauses ∧ cs.map Traced.fragment = c.statementDraft ∧
        cs.statement.map Traced.part = compiled.statementParts ∧
        let targets := cs.statement.filterMap fun x => x.fragment.source?
        targets.Perm (c.members.map Criteria.id) ∧ targets.Nodup ∧
          (∀ id ∈ targets, (u.alias? id).isSome) ∧ (targets.map u.alias?).Nodup ∧
          ∀ x ∈ cs.statement, ∀ use q, x.fragment = .column use → use.tableAlias = none →
            use.owner ∈ c.members.map Criteria.id →
            use.qualifier? (u.context c.references) = some q →
              use.owner ∈ targets ∧ ∀ id ∈ targets, u.alias? id = some q ↔ id = use.owner := by
  obtain ⟨cs, hparts, hfragments, hstatement⟩ := exists_traced h
  have hperm := targets_perm_members h hfragments
  obtain ⟨-, hfaults, -, -, halias⟩ := Scope.compile_eq_ok h
  have halias : u.alias? = (s.settled c).alias? := funext halias
  have hresolved := (s.referenceFaults_eq_nil_iff c).mp hfaults
  have haliases : ((c.members.map Criteria.id).map u.alias?).Nodup := by
    rw [halias, List.map_map]
    exact hresolved.aliases
  have hdistinct := (hperm.map u.alias?).nodup_iff.mpr haliases
  refine ⟨cs, hparts, hfragments, hstatement, hperm, hperm.nodup_iff.mpr hresolved.ids, ?_, hdistinct,
    ?_⟩
  · intro id hid
    obtain ⟨m, hm, rfl⟩ := List.mem_map.mp (hperm.mem_iff.mp hid)
    rw [halias]
    exact (Scope.isSome_alias?_settled hm).mpr (hresolved.registered m hm)
  · intro x _ use q _ hnone howner hqualifier
    have hmem := hperm.mem_iff.mpr howner
    have hq : u.alias? use.owner = some q := by
      simp only [ColumnUse.qualifier?, hnone] at hqualifier
      split at hqualifier
      · exact hqualifier
      · cases hqualifier
    refine ⟨hmem, fun id hid => ⟨fun hid' => ?_, fun heq => heq ▸ hq⟩⟩
    exact List.inj_on_of_nodup_map hdistinct hid hmem (hid'.trans hq.symm)

end Compile

def member (index : Nat) (table : String) : Node :=
  { scope := ⟨0⟩, id := ⟨index⟩, entity := { name := table, table }, parent := none }

def teamColumn (owner : Nat) : ColumnSide :=
  { criteria := ⟨owner⟩, target := .resolved { name := "team_id", property := "team" } }

def teamTree : Criteria :=
  .mk (member 0 "staff")
    [.existence {} false (.mk (member 2 "tasks")
      [.test { matched := .standard, target := some (.resolved { name := "staff_team", property := "team" }) }
        (.columnEqual (teamColumn 0))] [])]
    [.mk (member 1 "teams")
      [.test { matched := .standard, target := some (.resolved { name := "id", property := "id" }) }
        (.columnEqual (teamColumn 0))] []]

def teamScope : Scope :=
  { Scope.fresh {} {} with
    slots := ["staff", "teams", "tasks"].map fun table =>
      { entity := { name := table, table }, parent := none } }

theorem team_tables_apart :
    ∃ compiled u, teamScope.compile teamTree = (.ok compiled, u) ∧
      ∃ cs : Clauses (Traced (u.context teamTree.references)),
        cs.map Traced.part = compiled.clauses ∧
          (cs.statement.filterMap fun x => x.fragment.source?).Perm [⟨0⟩, ⟨2⟩, ⟨1⟩] := by
  refine ⟨_, _, rfl, ?_⟩
  obtain ⟨cs, hparts, -, -, hperm, -⟩ := tables_apart (s := teamScope) (c := teamTree) rfl
  exact ⟨cs, hparts, hperm⟩

end QueryCriteria
