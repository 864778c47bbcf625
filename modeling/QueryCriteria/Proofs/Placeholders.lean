import Mathlib.Data.List.TakeWhile
import QueryCriteria.Proofs.BoundValues
import QueryCriteria.Proofs.Pieces
import QueryCriteria.Proofs.ScopeRun

namespace QueryCriteria

open QueryCriteria.Model

namespace Bindings

def placeholders (b : Bindings) (style : PlaceholderStyle) : List String :=
  (b.names.zipIdx 1).map fun (name, i) => style.write name i

theorem length_values (b : Bindings) : b.values.length = b.size :=
  List.length_map _

theorem get?_of_nodup {b : Bindings} (h : b.names.Nodup) {name : String} {value : Value}
    (hmem : (name, value) ∈ b.entries) : b.get? name = some value := by
  obtain ⟨entries⟩ := b
  simp only [names, get?] at *
  induction entries with
  | nil => cases hmem
  | cons entry rest ih =>
      obtain ⟨first, v⟩ := entry
      rw [List.map_cons, List.nodup_cons] at h
      rcases List.mem_cons.mp hmem with heq | hrest
      · obtain ⟨rfl, rfl⟩ := Prod.mk.inj heq
        exact List.lookup_cons_self
      · have hne : name ≠ first := by
          rintro rfl
          exact h.1 (List.mem_map.mpr ⟨_, hrest, rfl⟩)
        rw [List.lookup_cons, beq_false_of_ne hne]
        exact ih h.2 hrest

end Bindings

namespace Compiled

def placeholders (c : Compiled) (parts : List (Piece Parameter)) : List String :=
  (Piece.holes parts).map fun p => c.style.write p.name p.ordinal

theorem placeholders_parameters {c : Compiled} {parts : List (Piece Parameter)}
    (hholes : Piece.holes parts = c.parameters)
    (hordinals : c.parameters.map Parameter.ordinal = List.range' 1 c.parameters.length) :
    c.placeholders parts = c.bindings.placeholders c.style := by
  have hzip : c.bindings.names.zipIdx 1 = c.parameters.map fun p => (p.name, p.ordinal) := by
    simp only [bindings, Bindings.names, List.map_map, List.zipIdx_eq_zip_range', List.length_map,
      ← hordinals]
    rw [List.zip_map']
    rfl
  rw [placeholders, Bindings.placeholders, hholes, hzip, List.map_map]
  rfl

end Compiled

theorem Fragment.boundBeforeFailure_of_firstFailure? {ctx : Context} {fs : List Fragment}
    (h : firstFailure? ctx fs = none) : boundBeforeFailure ctx fs = (fs.filterMap bound?).length := by
  have hall : ∀ f ∈ fs, (f.failure? ctx).isNone = true := by
    intro f hf
    rw [List.findSome?_eq_none_iff.mp h f hf]
    rfl
  rw [boundBeforeFailure, List.takeWhile_eq_self_iff.mpr hall, ← length_holes_piece ctx,
    holes_map_piece]

theorem holes_draft (ctx : Context) (existenceOnly : Bool) (c : Criteria) :
    let pieces := (draft existenceOnly c).map (Fragment.piece ctx)
    Piece.holes pieces.select = [] ∧ Piece.holes pieces.group = [] ∧ Piece.holes pieces.order = [] := by
  obtain ⟨hselect, hgroup, horder⟩ := plain_draft existenceOnly c
  have hplain : ∀ {fs}, Fragment.Plain (c.members.map Criteria.id) fs →
      Piece.holes (fs.map (Fragment.piece ctx)) = [] := by
    intro fs hfs
    rw [Fragment.holes_map_piece, hfs.filterMap Fragment.selective_bound?]
  exact ⟨hplain hselect, hplain hgroup, hplain horder⟩

section Compile

variable {s u : Scope} {c : Criteria} {compiled : Compiled}

theorem parameters_of_compile (h : s.compile c = (.ok compiled, u)) :
    compiled.parameters = (c.boundValues.zipIdx 1).map fun (value, i) =>
      ⟨NumberedNames.name s.parameters.stem (s.parameters.issued + UInt64.ofNat i), i, value⟩ := by
  obtain ⟨-, -, hfailure, rfl, -⟩ := Scope.compile_eq_ok h
  have hacc := Fragment.accepted_of_firstFailure? hfailure
  rw [Compiled.parameters, Criteria.compiled, Clauses.bindingOrder_number, Piece.holes_numberFrom,
    Clauses.bindingOrder_map, Fragment.holes_map_piece, bound?_statementDraft hacc]

theorem holes_of_compile (h : s.compile c = (.ok compiled, u)) :
    Piece.holes compiled.statementParts = compiled.parameters ∧
      Piece.holes compiled.countParts = compiled.parameters := by
  obtain ⟨-, -, -, rfl, -⟩ := Scope.compile_eq_ok h
  obtain ⟨hselect, hgroup, horder⟩ := holes_draft (s.settledContext c) false c
  obtain ⟨hselect, hgroup, horder⟩ := Clauses.holes_number hselect hgroup horder s.parameters
  exact ⟨Clauses.holes_statement hselect hgroup horder,
    Clauses.holes_countStatement hselect hgroup horder _ _⟩

theorem names_of_compile (h : s.compile c = (.ok compiled, u)) :
    compiled.bindings.names = s.issuedBy (.compile c) := by
  have hparameters := parameters_of_compile h
  obtain ⟨hfrozen, hfaults, hfailure, -, -⟩ := Scope.compile_eq_ok h
  have hacc := Fragment.accepted_of_firstFailure? hfailure
  have hdrawn : s.parametersDrawn c = c.boundValues.length := by
    rw [Scope.parametersDrawn, hfrozen, hfaults]
    simp only [List.isEmpty_nil, Bool.not_true, Bool.or_self, Bool.false_eq_true, if_false]
    rw [Fragment.boundBeforeFailure_of_firstFailure? hfailure, bound?_statementDraft hacc]
  have hordinals : (c.boundValues.zipIdx 1).map Prod.snd =
      (List.range c.boundValues.length).map (· + 1) := by
    simp [List.range'_eq_map_range, Nat.add_comm]
  calc compiled.bindings.names
    _ = ((c.boundValues.zipIdx 1).map Prod.snd).map fun i =>
          NumberedNames.name s.parameters.stem (s.parameters.issued + UInt64.ofNat i) := by
        simp only [Compiled.bindings, Bindings.names, hparameters, List.map_map]
        rfl
    _ = s.issuedBy (.compile c) := by
        rw [hordinals, List.map_map, Scope.issuedBy, hdrawn, NumberedNames.drawMany_eq_map]
        rfl

theorem style_of_compile (h : s.compile c = (.ok compiled, u)) : compiled.style = s.config.placeholder := by
  obtain ⟨-, -, -, rfl, -⟩ := Scope.compile_eq_ok h
  rfl

theorem placeholders_of_compile (h : s.compile c = (.ok compiled, u)) :
    compiled.placeholders compiled.statementParts =
        compiled.bindings.placeholders s.config.placeholder ∧
      compiled.placeholders compiled.countParts =
        compiled.bindings.placeholders s.config.placeholder := by
  have hordinals : compiled.parameters.map Parameter.ordinal =
      List.range' 1 compiled.parameters.length := by
    rw [parameters_of_compile h, List.length_map, List.length_zipIdx, List.map_map,
      ← List.zipIdx_map_snd 1 c.boundValues]
    rfl
  obtain ⟨hstatement, hcount⟩ := holes_of_compile h
  rw [← style_of_compile h]
  exact ⟨Compiled.placeholders_parameters hstatement hordinals,
    Compiled.placeholders_parameters hcount hordinals⟩

theorem values_of_compile (h : s.compile c = (.ok compiled, u)) :
    compiled.bindings.values = c.boundValues := by
  simp only [Compiled.bindings, Bindings.values, parameters_of_compile h, List.map_map]
  exact List.zipIdx_map_fst 1 c.boundValues

end Compile

theorem Scope.parameters_run_fresh (config : Config) (registry : Registry) (history : List Action) :
    let before := (fresh config registry).issued history
    ((fresh config registry).run history).config = config ∧
      ((fresh config registry).run history).parameters =
        NumberedNames.advance { stem := config.parameterPrefix } before.length ∧
      before = (NumberedNames.drawMany before.length { stem := config.parameterPrefix }).1 := by
  have hdraws := (fresh config registry).draws_run history
  exact ⟨hdraws.config, hdraws.parameters, hdraws.names⟩

theorem placeholders_aligned_with_bindings {config : Config} {registry : Registry}
    {history : List Scope.Action} {c : Criteria} {compiled : Compiled} {u : Scope}
    (h : ((Scope.fresh config registry).run history).compile c = (.ok compiled, u)) :
    let s := (Scope.fresh config registry).run history
    let before := (Scope.fresh config registry).issued history
    let bound := compiled.bindings
    let written := Piece.write fun p : Parameter => config.placeholder.write p.name p.ordinal
    compiled.statement = written compiled.statementParts ∧
      compiled.countStatement = written compiled.countParts ∧
      compiled.placeholders compiled.statementParts = bound.placeholders config.placeholder ∧
      compiled.placeholders compiled.countParts = bound.placeholders config.placeholder ∧
      bound.values = c.boundValues ∧
      bound.names = s.issuedBy (.compile c) ∧
      (before.length + bound.size < UInt64.size →
        bound.names = (List.range bound.size).map (fun i =>
            config.parameterPrefix ++ toString (before.length + (i + 1))) ∧
          bound.names.Nodup ∧
          (∀ name value, (name, value) ∈ bound.entries → bound.get? name = some value) ∧
          bound.names.Disjoint before) := by
  intro s before bound written
  obtain ⟨hconfig, hparameters, hbefore⟩ := Scope.parameters_run_fresh config registry history
  have hstyle : compiled.style = config.placeholder := by
    obtain ⟨-, -, -, rfl, -⟩ := Scope.compile_eq_ok h
    exact congrArg Config.placeholder hconfig
  obtain ⟨hstatement, hcount⟩ := placeholders_of_compile h
  have hnames := names_of_compile h
  rw [hconfig] at hstatement hcount
  have hwritten : ∀ parts, compiled.write parts = written parts := by
    intro parts
    rw [Compiled.write, hstyle]
  refine ⟨hwritten _, hwritten _, hstatement, hcount, values_of_compile h, hnames, fun hlt => ?_⟩
  have hlength : bound.names.length = bound.size := List.length_map _
  have hdrawn : bound.names = (s.parameters.drawMany bound.size).1 := by
    have hcount := congrArg List.length hnames
    rw [Scope.issuedBy, NumberedNames.length_drawMany] at hcount
    rw [hnames, Scope.issuedBy, ← hcount, hlength]
  have hissued : s.parameters.issued.toNat = before.length := by
    have hbound : (0 : UInt64).toNat + before.length < UInt64.size := by
      rw [UInt64.toNat_zero]
      omega
    rw [hparameters]
    exact (NumberedNames.toNat_ofNat_add 0 hbound).trans (Nat.zero_add _)
  have hroom : s.parameters.issued.toNat + bound.size < UInt64.size := by omega
  have hnodup : bound.names.Nodup := hdrawn ▸ NumberedNames.nodup_drawMany hroom
  refine ⟨?_, hnodup, fun name value hmem => Bindings.get?_of_nodup hnodup hmem, ?_⟩
  · rw [hdrawn, NumberedNames.drawMany_eq_numbered hroom, hissued, hparameters]
    rfl
  · rw [hdrawn, hparameters, List.disjoint_comm]
    rw [show before = _ from hbefore]
    refine NumberedNames.disjoint_drawMany ?_
    simpa using hlt

def staff : Entity :=
  { name := "Staff", table := "staff" }

def staffBetween (low high : Value) : Criteria :=
  .mk { scope := ⟨0⟩, id := ⟨0⟩, entity := staff, parent := none }
    [.test { matched := .immediate, target := some (.raw "age") } (.between .between low high)] []

theorem staff_placeholders_aligned :
    ∃ compiled u,
      ((Scope.fresh {} {}).run [.register staff none, .drawParameter]).compile
          (staffBetween (.int 18) (.int 65)) = (.ok compiled, u) ∧
        compiled.placeholders compiled.statementParts = [":p2", ":p3"] ∧
        compiled.bindings.values = [.int 18, .int 65] ∧
        compiled.bindings.names.Disjoint ["p1"] := by
  refine ⟨_, _, rfl, ?_⟩
  obtain ⟨-, -, hstatement, -, hvalues, -, hroom⟩ :=
    @placeholders_aligned_with_bindings {} {} [.register staff none, .drawParameter]
      (staffBetween (.int 18) (.int 65)) _ _ rfl
  obtain ⟨-, -, -, hdisjoint⟩ := hroom (by decide)
  exact ⟨hstatement, hvalues, hdisjoint⟩

end QueryCriteria
