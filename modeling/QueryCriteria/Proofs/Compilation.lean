import QueryCriteria.Proofs.Aliases
import QueryCriteria.Proofs.Draft

namespace QueryCriteria

theorem Fragment.accepted_of_firstFailure? {ctx : Context} {fs : List Fragment}
    (h : firstFailure? ctx fs = none) : Accepted fs := by
  intro f hf
  have hnone := List.findSome?_eq_none_iff.mp h f hf
  cases f with
  | reject e => cases hnone
  | rejectEmpty use => cases hnone
  | _ => rfl

namespace Scope

def held (s : Scope) : Scope :=
  { s with frozen := true }

def settled (s : Scope) (c : Criteria) : Scope :=
  s.held.settle c.references

def settledContext (s : Scope) (c : Criteria) : Context :=
  (s.settled c).context c.references

def referenceFaults (s : Scope) (c : Criteria) : List CompileError :=
  referenceViolations c.scope (s.settled c) [] c.references

def parametersDrawn (s : Scope) (c : Criteria) : Nat :=
  if s.frozen || !(s.referenceFaults c).isEmpty then 0
  else Fragment.boundBeforeFailure (s.settledContext c) c.statementDraft.bindingOrder

theorem aliased_settled (s : Scope) (c : Criteria) : s.held.Aliased (s.settled c) :=
  s.held.aliased_settle c.references

theorem parameters_settled (s : Scope) (c : Criteria) : (s.settled c).parameters = s.parameters :=
  (s.aliased_settled c).parameters

theorem config_settled (s : Scope) (c : Criteria) : (s.settled c).config = s.config :=
  (s.aliased_settled c).config

variable {s u : Scope} {c : Criteria}

theorem compile_of_frozen (hs : s.frozen = true) (c : Criteria) :
    s.compile c = (.error .scopeBusy, s) := by
  simp [compile, freeze, hs, CompileError.ofScope]

theorem compile_of_unfrozen (hs : s.frozen = false) (c : Criteria) :
    s.compile c = ((s.held.compileHeld c).1, (s.held.compileHeld c).2.unfreeze) := by
  simp [compile, freeze, hs, held]

theorem compile_of_fault (hs : s.frozen = false) {e : CompileError} {es : List CompileError}
    (he : s.referenceFaults c = e :: es) :
    ∃ t, s.held.Aliased t ∧ s.compile c = (.error e, t.unfreeze) := by
  obtain ⟨hresult, haliased, -⟩ := drawAliases_spec c.scope c.references (.nil s.held)
  refine ⟨_, haliased, ?_⟩
  rw [show referenceViolations _ (s.held.settle _) _ _ = e :: es from he] at hresult
  rw [compile_of_unfrozen hs, compileHeld]
  rcases hdraw : drawAliases c.scope [] s.held c.references with ⟨result, t⟩
  rw [hdraw] at hresult
  cases hresult
  rfl

theorem compile_of_settled (hs : s.frozen = false) (hnone : s.referenceFaults c = []) :
    s.compile c =
      ((placeDraft (s.settledContext c) s.parameters c.statementDraft).1.map
          (c.compiled s.config.placeholder),
        { s.settled c with
          parameters := (placeDraft (s.settledContext c) s.parameters c.statementDraft).2,
          frozen := false }) := by
  obtain ⟨hresult, -, hstate⟩ := drawAliases_spec c.scope c.references (.nil s.held)
  have hstate : _ = s.settled c := hstate hnone
  rw [show referenceViolations _ (s.held.settle _) _ _ = [] from hnone] at hresult
  have hdraw : drawAliases c.scope [] s.held c.references = (.ok (), s.settled c) :=
    Prod.ext hresult hstate
  rw [compile_of_unfrozen hs, compileHeld, hdraw]
  simp only [parameters_settled, config_settled, unfreeze]
  rfl

theorem state_compile (s : Scope) (c : Criteria) :
    s.frozen = true ∧ (s.compile c).2 = s ∨
      s.frozen = false ∧ ∃ t, s.held.Aliased t ∧ (s.compile c).2 =
        { t with parameters := s.parameters.advance (s.parametersDrawn c), frozen := false } := by
  cases hs : s.frozen with
  | true => exact .inl ⟨rfl, by rw [compile_of_frozen hs]⟩
  | false =>
      refine .inr ⟨rfl, ?_⟩
      cases hfaults : s.referenceFaults c with
      | nil =>
          refine ⟨s.settled c, s.aliased_settled c, ?_⟩
          simp [compile_of_settled hs hfaults, placeDraft, parametersDrawn, hs, hfaults]
      | cons e es =>
          obtain ⟨t, haliased, hcompile⟩ := compile_of_fault hs hfaults
          have hparameters : t.parameters = s.parameters := haliased.parameters
          refine ⟨t, haliased, ?_⟩
          simp [hcompile, unfreeze, parametersDrawn, hfaults, ← hparameters]

theorem parametersDrawn_of_frozen (hs : s.frozen = true) (c : Criteria) : s.parametersDrawn c = 0 := by
  simp [parametersDrawn, hs]

theorem parameters_compile (s : Scope) (c : Criteria) :
    (s.compile c).2.parameters = s.parameters.advance (s.parametersDrawn c) := by
  rcases s.state_compile c with ⟨hs, hsame⟩ | ⟨-, t, -, hstate⟩
  · rw [hsame, parametersDrawn_of_frozen hs, NumberedNames.advance_zero]
  · rw [hstate]

theorem config_compile (s : Scope) (c : Criteria) : (s.compile c).2.config = s.config := by
  rcases s.state_compile c with ⟨-, hsame⟩ | ⟨-, t, haliased, hstate⟩
  · rw [hsame]
  · rw [hstate]
    exact haliased.config

theorem size_compile (s : Scope) (c : Criteria) : (s.compile c).2.size = s.size := by
  rcases s.state_compile c with ⟨-, hsame⟩ | ⟨-, t, haliased, hstate⟩
  · rw [hsame]
  · rw [hstate]
    exact haliased.size

theorem compile_eq_ok {compiled : Compiled} (h : s.compile c = (.ok compiled, u)) :
    s.frozen = false ∧ s.referenceFaults c = [] ∧
      Fragment.firstFailure? (s.settledContext c) c.statementDraft.bindingOrder = none ∧
      compiled = c.compiled s.config.placeholder
        ((c.statementDraft.map (Fragment.piece (s.settledContext c))).number s.parameters) ∧
      ∀ id, u.alias? id = (s.settled c).alias? id := by
  cases hs : s.frozen with
  | true => simp [compile_of_frozen hs] at h
  | false =>
      cases hfaults : s.referenceFaults c with
      | cons e es =>
          obtain ⟨t, -, hcompile⟩ := compile_of_fault hs hfaults
          simp [hcompile] at h
      | nil =>
          rw [compile_of_settled hs hfaults] at h
          obtain ⟨hresult, rfl⟩ := Prod.mk.inj h
          cases hfailure : Fragment.firstFailure? (s.settledContext c) c.statementDraft.bindingOrder with
          | some e => simp [placeDraft, hfailure, Except.map] at hresult
          | none =>
              simp only [placeDraft, hfailure, Except.map, Except.ok.injEq] at hresult
              exact ⟨rfl, rfl, rfl, hresult.symm, fun _ => rfl⟩

end Scope

theorem Workspace.result_compile (w : Workspace) (c : Criteria) :
    (w.compile c).1 = ((w.scope c.scope).compile c).1 := by
  unfold Workspace.compile
  rcases (w.scope c.scope).compile c with ⟨result, s⟩
  cases result <;> rfl

end QueryCriteria
