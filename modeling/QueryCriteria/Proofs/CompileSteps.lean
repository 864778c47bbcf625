import QueryCriteria.Proofs.ScopeRun

namespace QueryCriteria

def askedFrom (root : ScopeId) (placed : List (CriteriaId × String)) (s : Scope) :
    List Reference → List CriteriaId
  | [] => []
  | .source scope id _ _ :: rest =>
      if scope ≠ root then []
      else if placed.any (·.1 == id) then []
      else id ::
        match s.aliasWhileHeld id with
        | .error _ => []
        | .ok (drawn, t) =>
            if placed.any (·.2 == drawn) then [] else askedFrom root ((id, drawn) :: placed) t rest
  | .owner id :: rest => id ::
      match s.aliasWhileHeld id with
      | .error _ => []
      | .ok (_, t) => askedFrom root placed t rest
  | .correlated id :: rest => id ::
      match s.aliasWhileHeld id with
      | .error _ => []
      | .ok (_, t) => askedFrom root placed t rest

theorem askedFrom_handle {r : Reference} (hr : r.table? = none) (root : ScopeId)
    (placed : List (CriteriaId × String)) (s : Scope) (rest : List Reference) :
    askedFrom root placed s (r :: rest) = r.id ::
      match s.aliasWhileHeld r.id with
      | .error _ => []
      | .ok (_, t) => askedFrom root placed t rest := by
  cases r with
  | source => cases hr
  | owner id => rfl
  | correlated id => rfl

namespace Scope

theorem step_aliasWhileHeld_of_error {s : Scope} {id : CriteriaId} {e : ScopeError}
    (h : s.aliasWhileHeld id = .error e) : s.step (.aliasWhileHeld id) = s := by
  rw [step, h]
  rfl

theorem step_aliasWhileHeld_of_ok {s t : Scope} {id : CriteriaId} {a : String}
    (h : s.aliasWhileHeld id = .ok (a, t)) : s.step (.aliasWhileHeld id) = t := by
  rw [step, h]
  rfl

def AskedInTurn (root : ScopeId) (references : List Reference) : Prop :=
  ∀ placed s, (drawAliases root placed s references).2 =
    run s ((askedFrom root placed s references).map .aliasWhileHeld)

theorem AskedInTurn.source {root : ScopeId} {rest : List Reference} (h : AskedInTurn root rest)
    (scope : ScopeId) (id : CriteriaId) (qualify : Option Bool) (joined : Bool) :
    AskedInTurn root (.source scope id qualify joined :: rest) := by
  intro placed s
  rw [drawAliases, askedFrom]
  split
  · rfl
  split
  · rfl
  rw [List.map_cons, run_cons]
  cases hask : s.aliasWhileHeld id with
  | error e => exact (step_aliasWhileHeld_of_error hask).symm
  | ok result =>
      rw [step_aliasWhileHeld_of_ok hask]
      by_cases hcollision : placed.any (·.2 == result.1) = true
      · simp only [hcollision, if_true]
        rfl
      · simp only [hcollision, Bool.false_eq_true, if_false]
        exact h _ result.2

theorem AskedInTurn.handle {root : ScopeId} {rest : List Reference} (h : AskedInTurn root rest)
    {r : Reference} (hr : r.table? = none) : AskedInTurn root (r :: rest) := by
  intro placed s
  rw [drawAliases_handle hr, askedFrom_handle hr, List.map_cons, run_cons]
  cases hask : s.aliasWhileHeld r.id with
  | error e => exact (step_aliasWhileHeld_of_error hask).symm
  | ok result =>
      rw [step_aliasWhileHeld_of_ok hask]
      exact h placed result.2

theorem askedInTurn (root : ScopeId) (references : List Reference) : AskedInTurn root references := by
  induction references with
  | nil => exact fun _ _ => rfl
  | cons r rest ih =>
      cases r with
      | source scope id qualify joined => exact ih.source scope id qualify joined
      | owner id => exact ih.handle rfl
      | correlated id => exact ih.handle rfl

theorem run_drawParameters (s : Scope) (count : Nat) :
    s.run (List.replicate count .drawParameter) =
      { s with parameters := s.parameters.advance count } := by
  induction count generalizing s with
  | zero => simp [run]
  | succ count ih =>
      rw [List.replicate_succ, run_cons, ih]
      simp [step, nextParameter, NumberedNames.draw, NumberedNames.advance_advance, Nat.add_comm 1]

def asked (s : Scope) (c : Criteria) : List CriteriaId :=
  askedFrom c.scope [] s.held c.references

def inner (s : Scope) (c : Criteria) : List Action :=
  (s.asked c).map .aliasWhileHeld ++ List.replicate (s.parametersDrawn c) .drawParameter

def parts (s : Scope) : Action → List Action
  | .compile c => if s.frozen then [] else .freeze :: (s.inner c ++ [.unfreeze])
  | a => [a]

theorem compile_eq_run {s : Scope} (hs : s.frozen = false) (c : Criteria) :
    (s.compile c).2 = (s.held.run (s.inner c)).unfreeze := by
  obtain ⟨-, haliased, -⟩ := drawAliases_spec c.scope c.references (.nil s.held)
  have hparameters := haliased.parameters
  have hstate : (s.compile c).2 =
      { (drawAliases c.scope [] s.held c.references).2 with
        parameters := (s.compile c).2.parameters, frozen := false } := by
    rw [compile_of_unfrozen hs, compileHeld]
    rcases drawAliases c.scope [] s.held c.references with ⟨result, t⟩
    cases result <;> rfl
  rw [inner, run_append, run_drawParameters, asked, ← askedInTurn c.scope c.references [] s.held,
    hparameters, hstate, s.parameters_compile c]
  rfl

theorem run_parts (s : Scope) (a : Action) : s.run (s.parts a) = s.step a := by
  cases a with
  | compile c =>
      rw [parts, step]
      cases hs : s.frozen with
      | true => rw [if_pos rfl, compile_of_frozen hs]; rfl
      | false =>
          have hfreeze : s.step .freeze = s.held := by simp [step, freeze, hs, after, Except.map, held]
          rw [if_neg Bool.false_ne_true, run_cons, hfreeze, run_append, compile_eq_run hs]
          rfl
  | _ => rfl

theorem ne_compile_of_mem_parts {s : Scope} {a b : Action} (h : b ∈ s.parts a) (c : Criteria) :
    b ≠ .compile c := by
  cases a with
  | compile d =>
      rw [parts] at h
      split at h
      · cases h
      · simp only [inner, List.mem_cons, List.mem_append, List.mem_map, List.mem_replicate,
          List.not_mem_nil, or_false] at h
        rcases h with rfl | (⟨id, -, rfl⟩ | ⟨-, rfl⟩) | rfl <;> simp
  | _ =>
      obtain rfl := List.mem_singleton.mp h
      simp

def unfolded (s : Scope) : List Action → List Action
  | [] => []
  | a :: as => s.parts a ++ (s.step a).unfolded as

theorem run_unfolded (s : Scope) (as : List Action) : s.run (s.unfolded as) = s.run as := by
  induction as generalizing s with
  | nil => rfl
  | cons a as ih => rw [unfolded, run_append, run_parts, ih, run_cons]

theorem ne_compile_of_mem_unfolded {s : Scope} {as : List Action} :
    ∀ a ∈ s.unfolded as, ∀ c, a ≠ .compile c := by
  induction as generalizing s with
  | nil => simp [unfolded]
  | cons a as ih =>
      exact List.forall_mem_append.mpr ⟨fun b hb => ne_compile_of_mem_parts hb, ih⟩

theorem unfolded_append (s : Scope) (as bs : List Action) :
    s.unfolded (as ++ bs) = s.unfolded as ++ (s.run as).unfolded bs := by
  induction as generalizing s with
  | nil => rfl
  | cons a as ih => rw [List.cons_append, unfolded, ih, unfolded, List.append_assoc, run_cons]

end Scope

end QueryCriteria
