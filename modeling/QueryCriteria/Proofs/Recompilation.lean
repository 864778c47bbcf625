import QueryCriteria.Proofs.DerivedCopy
import QueryCriteria.Proofs.Persistence

namespace QueryCriteria

open Fragment

def Parameter.namedFrom (names : NumberedNames) (p : Parameter) : Parameter :=
  { p with name := NumberedNames.name names.stem (names.issued + UInt64.ofNat p.ordinal) }

def Compiled.namedFrom (c : Compiled) (names : NumberedNames) : Compiled :=
  { c with clauses := c.clauses.map (Piece.map (Parameter.namedFrom names)) }

section Names

theorem namedFrom_numberFrom (names other : NumberedNames) (placed : Nat) (ps : List (Piece Value)) :
    (numberFrom names placed ps).map (Piece.map (Parameter.namedFrom other)) =
      numberFrom other placed ps := by
  induction ps generalizing placed with
  | nil => rfl
  | cons p ps ih =>
      cases p with
      | text s => simp [numberFrom, Piece.map, ih]
      | hole value => simp [numberFrom, Piece.map, Parameter.namedFrom, ih]

theorem namedFrom_placed (c : Criteria) (style : PlaceholderStyle) (ctx : Context)
    (names other : NumberedNames) :
    (c.placed style ctx names).namedFrom other = c.placed style ctx other := by
  simp only [Compiled.namedFrom, Criteria.placed, Criteria.compiled, Clauses.number, Clauses.map,
    namedFrom_numberFrom]

theorem map_namedFrom_of_holes {names : NumberedNames} {ps : List (Piece Parameter)}
    (h : Piece.holes ps = []) : ps.map (Piece.map (Parameter.namedFrom names)) = ps := by
  induction ps with
  | nil => rfl
  | cons p ps ih =>
      cases p with
      | text s =>
          rw [List.map_cons, ih h]
          rfl
      | hole a => cases h

theorem holes_placed (c : Criteria) (style : PlaceholderStyle) (ctx : Context) (names : NumberedNames) :
    Piece.holes (c.placed style ctx names).clauses.select = [] ∧
      Piece.holes (c.placed style ctx names).clauses.group = [] ∧
      Piece.holes (c.placed style ctx names).clauses.order = [] := by
  obtain ⟨hselect, hgroup, horder⟩ := holes_draft ctx false c
  exact Clauses.holes_number hselect hgroup horder names

end Names

namespace Compiled

variable {compiled : Compiled} {names : NumberedNames}

theorem write_namedFrom_of_holes {ps : List (Piece Parameter)} (h : Piece.holes ps = []) :
    (compiled.namedFrom names).write (ps.map (Piece.map (Parameter.namedFrom names))) =
      compiled.write ps := by
  rw [map_namedFrom_of_holes h]
  rfl

theorem write_namedFrom_dollar (hdollar : compiled.style = .dollar) (ps : List (Piece Parameter)) :
    (compiled.namedFrom names).write (ps.map (Piece.map (Parameter.namedFrom names))) =
      compiled.write ps := by
  unfold write
  refine Piece.write_map (fun p => ?_) ps
  simp only [namedFrom, hdollar]
  rfl

theorem statementParts_namedFrom (compiled : Compiled) (names : NumberedNames) :
    (compiled.namedFrom names).statementParts =
      compiled.statementParts.map (Piece.map (Parameter.namedFrom names)) :=
  Clauses.statement_map (Piece.faithful_map _) compiled.clauses

theorem countParts_namedFrom (compiled : Compiled) (names : NumberedNames) :
    (compiled.namedFrom names).countParts =
      compiled.countParts.map (Piece.map (Parameter.namedFrom names)) :=
  Clauses.countStatement_map (Piece.faithful_map _) compiled.distinct compiled.keepOrder
    compiled.clauses

end Compiled

namespace Scope

variable {s t u : Scope} {c : Criteria} {compiled : Compiled}

theorem Later.alias?_settled (h : s.Later t) (d : Criteria) {id : CriteriaId} {a : String}
    (ha : s.alias? id = some a) : (t.settled d).alias? id = some a := by
  have hheld : t.held.alias? id = some a := h.alias? ha
  exact (t.aliased_settled d).alias? hheld

theorem alias?_settled_of_later (h : s.compile c = (.ok compiled, u)) (hlater : u.Later t) (d : Criteria)
    {id : CriteriaId} (hid : id ∈ c.named) :
    (t.settled d).alias? id = (s.settled c).alias? id := by
  obtain ⟨-, hfaults, -, -, halias⟩ := compile_eq_ok h
  obtain ⟨a, ha⟩ := Option.isSome_iff_exists.mp (isSome_alias?_of_named hfaults id hid)
  have ha : (s.settled c).alias? id = some a := ha
  rw [ha, hlater.alias?_settled d (halias id ▸ ha)]

theorem referenceFaults_of_later (h : s.compile c = (.ok compiled, u)) (hlater : u.Later t) {m : Criteria}
    (hm : m ∈ c.members) : t.referenceFaults m = [] := by
  obtain ⟨-, hfaults, -⟩ := compile_eq_ok h
  have hresolved := (s.referenceFaults_eq_nil_iff c).mp hfaults
  have hgrown : s.Later t := by
    have hcompile := s.later_compile c
    rw [h] at hcompile
    exact hcompile.trans hlater
  have hmembers : m.members.Sublist c.members := (gather_sublist.1 c).1 m hm
  have hconditions : m.conditions.Sublist c.conditions := (gather_sublist.1 c).1 m hm
  refine (t.referenceFaults_eq_nil_iff m).mpr ⟨fun n hn => ?_,
    fun n hn => hgrown.isSome_slot? (hresolved.registered n (hmembers.subset hn)),
    hresolved.ids.sublist (hmembers.map _), ?_,
    fun p hp id hid => hgrown.isSome_slot? (hresolved.handles p (hconditions.subset hp) id hid)⟩
  · rw [hresolved.scope n (hmembers.subset hn), hresolved.scope m hm]
  · have haliases : (m.members.map fun n => (t.settled m).alias? n.id) =
        m.members.map fun n => (s.settled c).alias? n.id := by
      refine List.map_congr_left fun n hn => alias?_settled_of_later h hlater m ?_
      exact members_subset_named c (List.mem_map_of_mem (hmembers.subset hn))
    rw [haliases]
    exact hresolved.aliases.sublist (hmembers.map _)

theorem placed_settled (h : s.compile c = (.ok compiled, u)) :
    compiled = c.placed s.config.placeholder (s.settledContext c) s.parameters :=
  (compile_eq_ok h).2.2.2.1

theorem namedFrom_self (h : s.compile c = (.ok compiled, u)) :
    compiled.namedFrom s.parameters = compiled := by
  rw [placed_settled h, namedFrom_placed]

theorem values_namedFrom (h : s.compile c = (.ok compiled, u)) (names : NumberedNames) :
    (compiled.namedFrom names).bindings.values = compiled.bindings.values := by
  rw [placed_settled h, namedFrom_placed, values_placed, values_placed]

theorem compile_of_later (h : s.compile c = (.ok compiled, u)) (hlater : u.Later t)
    (hfree : t.frozen = false) : ∃ v, t.compile c = (.ok (compiled.namedFrom t.parameters), v) := by
  have hnone := referenceFaults_of_later h hlater c.self_mem_members
  have hconfig : t.config = s.config := by
    rw [hlater.config, ← s.config_compile c, h]
  obtain ⟨v, hcompile, -⟩ :=
    compile_of_accepted hfree hnone (accepted_of_firstFailure? (compile_eq_ok h).2.2.1)
  have hpieces : c.statementDraft.map (piece (t.settledContext c)) =
      c.statementDraft.map (piece (s.settledContext c)) := by
    refine pieces_congr (fun id hid => alias?_settled_of_later h hlater c hid) (fun id _ => ?_) false
    simp only [settledContext, Scope.context, config_settled, hconfig]
  rw [Criteria.placed, hpieces, hconfig] at hcompile
  rw [placed_settled h, namedFrom_placed]
  exact ⟨v, hcompile⟩

end Scope

theorem recompiled_alike {G : Guarded} {c : Criteria} {compiled : Compiled} {w : Workspace}
    (h : G.workspace.compile c = (.ok compiled, w)) (ops : List Operation)
    (hfree : (((G.perform (.compile c)).2.run ops).scope c.scope).frozen = false) :
    ∃ copy v, ((G.perform (.compile c)).2.run ops).workspace.compile c = (.ok copy, v) ∧
      copy.selectText = compiled.selectText ∧ copy.groupText = compiled.groupText ∧
      copy.orderText = compiled.orderText ∧ copy.window? = compiled.window? ∧
      copy.shape = compiled.shape ∧ copy.bindings.values = compiled.bindings.values ∧
      compiled = compiled.namedFrom (G.scope c.scope).parameters ∧
      (∃ count, copy = compiled.namedFrom ((G.scope c.scope).parameters.advance count)) ∧
      (compiled.style = .dollar → copy.sourceText = compiled.sourceText ∧
        copy.filterText = compiled.filterText ∧ copy.statement = compiled.statement ∧
        copy.countStatement = compiled.countStatement) := by
  obtain ⟨hcompile, hopened⟩ := Workspace.compile_eq_ok h
  have hstart : (G.perform (.compile c)).2 = G.moveTo w := by
    rw [Guarded.perform, Guarded.settle_snd, h]
  rw [hstart] at hfree ⊢
  have hstill := (Guarded.scope_run (G := G.moveTo w) hopened ops).1
  have hlater : (w.scope c.scope).Later (((G.moveTo w).run ops).scope c.scope) :=
    Guarded.later_run (G := G.moveTo w) hopened ops
  obtain ⟨t, ht⟩ := Scope.compile_of_later hcompile hlater hfree
  obtain ⟨v, hv, -⟩ := Workspace.compile_of_scope rfl hstill ht
  obtain ⟨count, hcount⟩ := hlater.parameters
  obtain ⟨hselect, hgroup, horder⟩ := holes_placed c (G.workspace.scope c.scope).config.placeholder
    ((G.workspace.scope c.scope).settledContext c) (G.workspace.scope c.scope).parameters
  rw [← Scope.placed_settled hcompile] at hselect hgroup horder
  refine ⟨_, v, hv, Compiled.write_namedFrom_of_holes hselect, Compiled.write_namedFrom_of_holes hgroup,
    Compiled.write_namedFrom_of_holes horder, rfl, rfl, Scope.values_namedFrom hcompile _,
    (Scope.namedFrom_self hcompile).symm, ?_, ?_⟩
  · have hfirst := names_after_compile hcompile
    refine ⟨compiled.bindings.size + count, ?_⟩
    rw [hcount, hfirst, NumberedNames.advance_advance]
    rfl
  · intro hdollar
    refine ⟨Compiled.write_namedFrom_dollar hdollar _, Compiled.write_namedFrom_dollar hdollar _, ?_, ?_⟩
    · rw [Compiled.statement, Compiled.statementParts_namedFrom]
      exact Compiled.write_namedFrom_dollar hdollar _
    · rw [Compiled.countStatement, Compiled.countParts_namedFrom]
      exact Compiled.write_namedFrom_dollar hdollar _

def staffRoom : Guarded :=
  { workspace := { scopes := [(Scope.fresh {} {}).run [.register staff none, .register staff none]] } }

def staffMeeting : List Operation :=
  [.drawParameter ⟨0⟩, .freeze ⟨0⟩, .lookUp ⟨⟨0⟩, 0⟩ ⟨1⟩, .compile (staffBetween (.int 18) (.int 65)),
    .drop ⟨⟨0⟩, 0⟩, .fixAlias (.fresh ⟨0⟩ ⟨1⟩ staff none) "s"]

theorem staff_recompiled :
    ∃ compiled w copy v,
      staffRoom.workspace.compile (staffBetween (.int 18) (.int 65)) = (.ok compiled, w) ∧
      ((staffRoom.perform (.compile (staffBetween (.int 18) (.int 65)))).2.run
        staffMeeting).workspace.compile (staffBetween (.int 18) (.int 65)) = (.ok copy, v) ∧
      compiled.statement = "SELECT * FROM staff t1 WHERE age BETWEEN :p1 AND :p2" ∧
      copy.statement = "SELECT * FROM staff t1 WHERE age BETWEEN :p4 AND :p5" ∧
      copy.bindings.values = compiled.bindings.values := by
  have hfirst : (staffRoom.workspace.compile (staffBetween (.int 18) (.int 65))).1.map
      Compiled.statement = .ok "SELECT * FROM staff t1 WHERE age BETWEEN :p1 AND :p2" := by rfl
  have hsecond : (((staffRoom.perform (.compile (staffBetween (.int 18) (.int 65)))).2.run
      staffMeeting).workspace.compile (staffBetween (.int 18) (.int 65))).1.map Compiled.statement =
        .ok "SELECT * FROM staff t1 WHERE age BETWEEN :p4 AND :p5" := by rfl
  rcases hcompile : staffRoom.workspace.compile (staffBetween (.int 18) (.int 65)) with ⟨result, w⟩
  rw [hcompile] at hfirst
  obtain ⟨compiled, rfl, hstatement⟩ := map_eq_ok.mp hfirst
  obtain ⟨copy, v, hcopy, -, -, -, -, -, hvalues, -⟩ := recompiled_alike hcompile staffMeeting rfl
  rw [hcopy] at hsecond
  exact ⟨compiled, w, copy, v, rfl, hcopy, hstatement, Except.ok.inj hsecond, hvalues⟩

end QueryCriteria
