import QueryCriteria.Proofs.AliasHistory
import QueryCriteria.Proofs.Persistence
import QueryCriteria.Proofs.Placeholders

namespace QueryCriteria

namespace Guarded

open QueryCriteria.Model

variable {G : Guarded} {σ : ScopeId}

def namings (G : Guarded) (σ : ScopeId) (ops : List Operation) : List Naming :=
  (G.scope σ).namings ((G.scope σ).unfolded (G.history σ ops))

theorem namings_append (hσ : G.Opened σ) (ops more : List Operation) :
    G.namings σ (ops ++ more) = G.namings σ ops ++ (G.run ops).namings σ more := by
  rw [namings, history_append, Scope.unfolded_append, Scope.namings_append, Scope.run_unfolded,
    ← (scope_run hσ ops).2]
  rfl

theorem namings_cons (hσ : G.Opened σ) (op : Operation) (ops : List Operation) :
    G.namings σ (op :: ops) = G.namings σ [op] ++ (G.perform op).2.namings σ ops :=
  namings_append hσ [op] ops

theorem fst_perform_fixAlias_iff (G : Guarded) (c : Criteria) (aliasName : String) :
    (G.perform (.fixAlias c aliasName)).1 = .ok () ↔
      ∃ t, (G.scope c.scope).assignAlias c.id aliasName = .ok t := by
  rw [perform, settle_fst]
  unfold Workspace.fixAlias Workspace.within
  rw [scope]
  cases hassign : (G.workspace.scope c.scope).assignAlias c.id aliasName <;>
    simp [hassign, Except.map, Except.mapError]

theorem actions_fixAlias (G : Guarded) (c : Criteria) (aliasName : String) :
    G.actions c.scope (.fixAlias c aliasName) = [.fixAlias c.id aliasName] :=
  actions_here rfl (by rintro _ ⟨⟩)

theorem namings_fixAlias (G : Guarded) (c : Criteria) (aliasName : String) :
    G.namings c.scope [.fixAlias c aliasName] =
      ((G.scope c.scope).naming? (.fixAlias c.id aliasName)).toList := by
  rw [namings, history, actions_fixAlias]
  exact List.append_nil _

theorem fixAlias_of_mem_actions {op : Operation} {name : String} {id : CriteriaId}
    (h : .fixAlias id name ∈ G.actions σ op) :
    ∃ c, op = .fixAlias c name ∧ c.scope = σ ∧ c.id = id := by
  rcases action?_of_mem_actions h with ⟨entity, parent, hregister⟩ | ⟨haction, -⟩
  · cases hregister
  · cases op <;> cases haction
    exact ⟨_, rfl, rfl, rfl⟩

theorem fixed_mem_namings {op : Operation} {name : String} {id : CriteriaId}
    (h : .fixed name id ∈ G.namings σ [op]) :
    ∃ c, op = .fixAlias c name ∧ c.scope = σ ∧ c.id = id ∧ (G.perform op).1 = .ok () ∧
      G.namings σ [op] = [.fixed name id] := by
  have hmem : .fixAlias id name ∈ G.actions σ op := by
    have hunfolded := Scope.fixAlias_mem_unfolded (Scope.fixAlias_mem_of_fixed_mem h)
    rw [history, history, List.append_nil] at hunfolded
    exact hunfolded
  obtain ⟨c, rfl, rfl, rfl⟩ := fixAlias_of_mem_actions hmem
  rw [namings_fixAlias] at h ⊢
  have hnaming := Option.mem_toList.mp h
  refine ⟨c, rfl, rfl, rfl, ?_, by rw [hnaming]; rfl⟩
  rw [fst_perform_fixAlias_iff]
  cases hassign : (G.scope c.scope).assignAlias c.id name with
  | error e => simp [Scope.naming?, hassign] at hnaming
  | ok t => exact ⟨t, rfl⟩

structure Fixes (G : Guarded) (ops before : List Operation) (c : Criteria) (name : String) : Prop where
  called : ∃ after, ops = before ++ .fixAlias c name :: after
  granted : ((G.run before).perform (.fixAlias c name)).1 = .ok ()

theorem Fixes.cons {op : Operation} {ops before : List Operation} {c : Criteria} {name : String}
    (h : (G.perform op).2.Fixes ops before c name) : G.Fixes (op :: ops) (op :: before) c name where
  called := by
    obtain ⟨after, hops⟩ := h.called
    exact ⟨after, by rw [hops, List.cons_append]⟩
  granted := h.granted

theorem fixes_of_namings (hσ : G.Opened σ) {ops : List Operation} {h k : List Naming} {name : String}
    {id : CriteriaId} (heq : G.namings σ ops = h ++ .fixed name id :: k) :
    ∃ before c, G.Fixes ops before c name ∧ c.scope = σ ∧ c.id = id ∧ G.namings σ before = h := by
  induction ops generalizing G h with
  | nil =>
      have hmem : Naming.fixed name id ∈ G.namings σ [] := by simp [heq]
      cases hmem
  | cons op ops ih =>
      rw [namings_cons hσ] at heq
      rcases List.append_eq_append_iff.mp heq with ⟨l, rfl, hrest⟩ | ⟨l, hop, hrest⟩
      · obtain ⟨before, c, hfixes, hc, hid, rfl⟩ := ih (scope_perform hσ op).1 hrest
        exact ⟨op :: before, c, hfixes.cons, hc, hid, namings_cons hσ op before⟩
      · cases l with
        | nil =>
            obtain ⟨before, c, hfixes, hc, hid, hnone⟩ := ih (h := []) (scope_perform hσ op).1 hrest.symm
            refine ⟨op :: before, c, hfixes.cons, hc, hid, ?_⟩
            rw [namings_cons hσ, hnone, hop]
            simp
        | cons n l =>
            obtain ⟨rfl, -⟩ := List.cons.inj hrest
            obtain ⟨c, rfl, hc, hid, hok, hsingle⟩ :=
              fixed_mem_namings (show Naming.fixed name id ∈ G.namings σ [op] by simp [hop])
            have hfirst : h = [] := by
              have hlength := congrArg List.length (hop.symm.trans hsingle)
              simp only [List.length_append, List.length_cons, List.length_nil] at hlength
              exact List.eq_nil_of_length_eq_zero (by omega)
            exact ⟨[], c, ⟨⟨ops, rfl⟩, hok⟩, hc, hid, hfirst.symm⟩

theorem fixed_mem_namings_iff (hσ : G.Opened σ) (ops : List Operation) (name : String) :
    (∃ id, .fixed name id ∈ G.namings σ ops) ↔
      ∃ before c, G.Fixes ops before c name ∧ c.scope = σ := by
  constructor
  · rintro ⟨id, hid⟩
    obtain ⟨h, k, heq⟩ := List.append_of_mem hid
    obtain ⟨before, c, hfixes, hc, -, -⟩ := fixes_of_namings hσ heq
    exact ⟨before, c, hfixes, hc⟩
  · rintro ⟨before, c, ⟨⟨after, rfl⟩, hok⟩, rfl⟩
    obtain ⟨t, ht⟩ := (fst_perform_fixAlias_iff _ c name).mp hok
    have hnaming : ((G.run before).scope c.scope).naming? (.fixAlias c.id name) =
        some (.fixed name c.id) := by
      simp only [Scope.naming?, ht]
    refine ⟨c.id, ?_⟩
    rw [namings_append hσ, namings_cons (scope_run hσ before).1, namings_fixAlias, hnaming]
    simp

theorem recorded_namings {config : Config} {registry : Registry} (hσ : G.Opened σ)
    (hfresh : G.scope σ = .fresh config registry) {ops : List Operation}
    (hdraws : Naming.draws (G.namings σ ops) < UInt64.size) :
    Scope.Recorded config.aliasPrefix ((G.run ops).scope σ) (G.namings σ ops) := by
  rw [(scope_run hσ ops).2, ← Scope.run_unfolded]
  refine Scope.recorded_run (h := []) ?_ Scope.ne_compile_of_mem_unfolded ?_
  · rw [hfresh]
    exact Scope.recorded_fresh config registry
  · exact (Nat.zero_add _).symm ▸ hdraws

theorem fixes_of_shared {config : Config} {registry : Registry} (hσ : G.Opened σ)
    (hfresh : G.scope σ = .fresh config registry) {ops : List Operation}
    (hdraws : Naming.draws (G.namings σ ops) < UInt64.size) {h k : List Naming} {earlier later : Naming}
    (heq : G.namings σ ops = h ++ later :: k) (hearlier : earlier ∈ h) (hname : earlier.name = later.name)
    {first second : CriteriaId} (hfirst : earlier.holder? = some first)
    (hsecond : later.holder? = some second) :
    ∃ before c, G.Fixes ops before c later.name ∧ c.scope = σ ∧ c.id = second ∧
      ((G.run before).scope σ).alias? first = some later.name := by
  have hnew : later.isDrawn = true → earlier.name ≠ later.name := by
    have hpairwise := (recorded_namings hσ hfresh hdraws).fresh
    rw [heq] at hpairwise
    exact (List.pairwise_append.mp hpairwise).2.2 earlier hearlier later List.mem_cons_self
  cases later with
  | drawn name holder count => exact absurd hname (hnew rfl)
  | fixed name holder =>
      obtain rfl := Option.some.inj hsecond
      obtain ⟨before, c, hfixes, hc, hid, rfl⟩ := fixes_of_namings hσ heq
      have hearly : Naming.draws (G.namings σ before) < UInt64.size := by
        rw [heq, Naming.draws_append] at hdraws
        omega
      refine ⟨before, c, hfixes, hc, hid, ?_⟩
      exact ((recorded_namings hσ hfresh hearly).carried first name).mpr
        ⟨earlier, hearlier, hfirst, hname⟩

theorem exists_fixes_of_shared {config : Config} {registry : Registry} (hσ : G.Opened σ)
    (hfresh : G.scope σ = .fresh config registry) {ops : List Operation}
    (hdraws : Naming.draws (G.namings σ ops) < UInt64.size) {id other : CriteriaId} {a : String}
    (hne : id ≠ other) (hid : ((G.run ops).scope σ).alias? id = some a)
    (hother : ((G.run ops).scope σ).alias? other = some a) :
    ∃ before c, G.Fixes ops before c a ∧ c.scope = σ ∧
      (c.id = other ∧ ((G.run before).scope σ).alias? id = some a ∨
        c.id = id ∧ ((G.run before).scope σ).alias? other = some a) := by
  have hcarried := (recorded_namings hσ hfresh hdraws).carried
  obtain ⟨m, hm, hmid, rfl⟩ := (hcarried id a).mp hid
  obtain ⟨n, hn, hnother, hname⟩ := (hcarried other _).mp hother
  obtain ⟨h, k, heq⟩ := List.append_of_mem hm
  rw [heq] at hn
  rcases List.mem_append.mp hn with hearly | hrest
  · obtain ⟨before, c, hfixes, hc, hcid, halias⟩ :=
      fixes_of_shared hσ hfresh hdraws heq hearly hname hnother hmid
    exact ⟨before, c, hfixes, hc, .inr ⟨hcid, halias⟩⟩
  · rcases List.mem_cons.mp hrest with rfl | hlate
    · exact absurd (Option.some.inj (hmid.symm.trans hnother)) hne
    · obtain ⟨h', k', rfl⟩ := List.append_of_mem hlate
      obtain ⟨before, c, hfixes, hc, hcid, halias⟩ :=
        fixes_of_shared (h := h ++ m :: h') (k := k') hσ hfresh hdraws (by simp [heq]) (by simp)
          hname.symm hmid hnother
      rw [hname] at hfixes halias
      exact ⟨before, c, hfixes, hc, .inl ⟨hcid, halias⟩⟩

end Guarded

theorem aliases_accounted_for {G : Guarded} {σ : ScopeId} {config : Config} {registry : Model.Registry}
    (hσ : G.Opened σ) (hfresh : G.scope σ = .fresh config registry) (ops : List Operation)
    (hdraws : Naming.draws (G.namings σ ops) < UInt64.size) :
    (∀ id a, ((G.run ops).scope σ).alias? id = some a →
      ∀ more, ((G.run (ops ++ more)).scope σ).alias? id = some a) ∧
    (∀ c a, c.scope = σ → (((G.run ops).perform (.fixAlias c a)).1 = .ok () ↔
      ((G.run ops).scope σ).frozen = false ∧ (((G.run ops).scope σ).slot? c.id).isSome ∧
        ((G.run ops).scope σ).alias? c.id = none)) ∧
    (∀ c a, c.scope = σ → ((G.run ops).perform (.fixAlias c a)).1 = .ok () →
      (((G.run ops).perform (.fixAlias c a)).2.scope σ).alias? c.id = some a) ∧
    (∀ a, ((G.run ops).scope σ).reserved.has a = true ↔
      ∃ before c, G.Fixes ops before c a ∧ c.scope = σ) ∧
    ((G.run ops).scope σ).aliases =
      ({ stem := config.aliasPrefix } : NumberedNames).advance (Naming.draws (G.namings σ ops)) ∧
    (∀ id a, ((G.run ops).scope σ).alias? id = some a ↔
      ∃ n ∈ G.namings σ ops, n.holder? = some id ∧ n.name = a) ∧
    (G.namings σ ops).Pairwise
      (fun earlier later => later.isDrawn = true → earlier.name ≠ later.name) ∧
    (∀ id other a, id ≠ other → ((G.run ops).scope σ).alias? id = some a →
      ((G.run ops).scope σ).alias? other = some a →
      ∃ before c, G.Fixes ops before c a ∧ c.scope = σ ∧
        (c.id = other ∧ ((G.run before).scope σ).alias? id = some a ∨
          c.id = id ∧ ((G.run before).scope σ).alias? other = some a)) := by
  have hrecorded := Guarded.recorded_namings hσ hfresh hdraws
  obtain ⟨hopened, -⟩ := Guarded.scope_run hσ ops
  refine ⟨fun id a ha more => ?_, ?_, ?_, fun a => ?_, hrecorded.counter, hrecorded.carried,
    hrecorded.fresh, fun id other a => Guarded.exists_fixes_of_shared hσ hfresh hdraws⟩
  · rw [Guarded.run_append]
    exact (Guarded.later_run hopened more).alias? ha
  · rintro c a rfl
    rw [Guarded.fst_perform_fixAlias_iff]
    simp only [Scope.assignAlias_eq_ok_iff, exists_and_left, exists_eq', and_true]
  · rintro c a rfl hok
    obtain ⟨t, ht⟩ := (Guarded.fst_perform_fixAlias_iff _ c a).mp hok
    obtain ⟨-, hslot, -, rfl⟩ := Scope.assignAlias_eq_ok_iff.mp ht
    rw [(Guarded.scope_perform hopened _).2, Guarded.actions_fixAlias, Scope.run_cons, Scope.step, ht]
    exact Scope.alias?_setAlias_self hslot a
  · rw [hrecorded.reserved, Guarded.fixed_mem_namings_iff hσ]

def office : Guarded :=
  (({} : Guarded).perform (.openScope {} { entities := [staff] })).2

def officeDay : List Operation :=
  [.create ⟨0⟩ "Staff" none, .create ⟨0⟩ "Staff" none, .create ⟨0⟩ "Staff" none,
    .createSibling (staffBetween (.int 18) (.int 65)), .fixAlias (.fresh ⟨0⟩ ⟨0⟩ staff none) "t2",
    .aliasOf (.fresh ⟨0⟩ ⟨1⟩ staff none), .aliasOf (.fresh ⟨0⟩ ⟨2⟩ staff none),
    .fixAlias (.fresh ⟨0⟩ ⟨3⟩ staff none) "t3"]

theorem officeDay_aliases :
    Naming.draws (office.namings ⟨0⟩ officeDay) = 3 ∧
      ((office.run officeDay).scope ⟨0⟩).alias? ⟨2⟩ = some "t3" ∧
      ((office.run officeDay).scope ⟨0⟩).alias? ⟨3⟩ = some "t3" ∧
      ∃ before c, office.Fixes officeDay before c "t3" ∧ c.scope = ⟨0⟩ ∧
        (c.id = ⟨3⟩ ∧ ((office.run before).scope ⟨0⟩).alias? ⟨2⟩ = some "t3" ∨
          c.id = ⟨2⟩ ∧ ((office.run before).scope ⟨0⟩).alias? ⟨3⟩ = some "t3") := by
  have hdraws : Naming.draws (office.namings ⟨0⟩ officeDay) = 3 := by rfl
  have hthird : ((office.run officeDay).scope ⟨0⟩).alias? ⟨2⟩ = some "t3" := by rfl
  have hlast : ((office.run officeDay).scope ⟨0⟩).alias? ⟨3⟩ = some "t3" := by rfl
  obtain ⟨-, -, -, -, -, -, -, hshared⟩ :=
    @aliases_accounted_for office ⟨0⟩ {} { entities := [staff] } Nat.one_pos rfl officeDay
      (by rw [hdraws]; decide)
  exact ⟨hdraws, hthird, hlast, hshared ⟨2⟩ ⟨3⟩ "t3" (by decide) hthird hlast⟩

end QueryCriteria
