import QueryCriteria.Compile.Basic
import QueryCriteria.Proofs.CopyRules
import QueryCriteria.Proofs.Growth

namespace QueryCriteria

open QueryCriteria.Model

structure Guard where
  scope : ScopeId
  number : Nat
deriving DecidableEq, Repr

inductive Operation where
  | openScope (config : Config) (registry : Registry)
  | create (id : ScopeId) (entity : String) (parent : Option CriteriaId)
  | createSibling (c : Criteria)
  | derive (c : Criteria)
  | drawParameter (id : ScopeId)
  | drawAlias (id : ScopeId)
  | aliasOf (c : Criteria)
  | fixAlias (c : Criteria) (aliasName : String)
  | compile (c : Criteria)
  | freeze (id : ScopeId)
  | lookUp (g : Guard) (id : CriteriaId)
  | drop (g : Guard)

inductive Operation.Failure where
  | criteria (e : CriteriaError)
  | scope (e : ScopeError)
  | compile (e : CompileError)
deriving DecidableEq, Repr

structure Guarded where
  workspace : Workspace := {}
  guards : List Guard := []
  issued : Nat := 0

namespace Guarded

open Operation (Failure)

def moveTo (G : Guarded) (w : Workspace) : Guarded :=
  { G with workspace := w }

def settle {ε α : Type} (G : Guarded) (failure : ε → Failure) :
    Except ε α × Workspace → Except Failure Unit × Guarded
  | (.error e, w) => (.error (failure e), G.moveTo w)
  | (.ok _, w) => (.ok (), G.moveTo w)

def perform (G : Guarded) : Operation → Except Failure Unit × Guarded
  | .openScope config registry => (.ok (), G.moveTo (G.workspace.openScope config registry).2)
  | .create id entity parent => G.settle .criteria (G.workspace.create id entity parent)
  | .createSibling c => G.settle .criteria (G.workspace.createSibling c)
  | .derive c => G.settle .criteria (G.workspace.derive c)
  | .drawParameter id =>
      (.ok (), G.moveTo (G.workspace.setScope id (G.workspace.scope id).nextParameter.2))
  | .drawAlias id => (.ok (), G.moveTo (G.workspace.setScope id (G.workspace.scope id).nextAlias.2))
  | .aliasOf c => G.settle .scope (G.workspace.aliasOf c)
  | .fixAlias c aliasName => G.settle .criteria (G.workspace.fixAlias c aliasName)
  | .compile c => G.settle .compile (G.workspace.compile c)
  | .freeze id =>
      if id.index < G.workspace.scopes.length then
        match G.workspace.freeze id with
        | (.error e, w) => (.error (.scope e), G.moveTo w)
        | (.ok (), w) =>
            (.ok (), { workspace := w, guards := ⟨id, G.issued⟩ :: G.guards, issued := G.issued + 1 })
      else (.ok (), G)
  | .lookUp g id =>
      if g ∈ G.guards then
        G.settle .scope (G.workspace.within g.scope fun s => s.aliasWhileHeld id)
      else (.ok (), G)
  | .drop g =>
      if g ∈ G.guards then
        (.ok (), { G with workspace := G.workspace.unfreeze g.scope, guards := G.guards.erase g })
      else (.ok (), G)

def run (G : Guarded) (ops : List Operation) : Guarded :=
  ops.foldl (fun G op => (G.perform op).2) G

def scope (G : Guarded) (id : ScopeId) : Scope :=
  G.workspace.scope id

def Opened (G : Guarded) (id : ScopeId) : Prop :=
  id.index < G.workspace.scopes.length

end Guarded

def Scope.registrations (s t : Scope) : List Action :=
  (t.slots.drop s.size).map fun slot => .register slot.entity slot.parent

inductive Scope.Enrolled (s : Scope) : Scope → Prop
  | refl : Enrolled s s
  | register {t : Scope} (entity : Entity) (parent : Option CriteriaId) : Enrolled s t →
      Enrolled s (t.step (.register entity parent))

namespace Scope

theorem run_registrations {s t : Scope} (h : Enrolled s t) :
    s.size ≤ t.size ∧ s.run (s.registrations t) = t := by
  induction h with
  | refl => exact ⟨Nat.le_refl _, by simp [registrations, size, run]⟩
  | @register t entity parent _ ih =>
      obtain ⟨hsize, hrun⟩ := ih
      rcases t.step_cases (.register entity parent) with heffect | ⟨hsame, -⟩
      · refine ⟨Nat.le_trans hsize (t.size_le_step _), ?_⟩
        have hslots : (t.step (.register entity parent)).slots =
            t.slots ++ [({ entity, parent } : Slot)] := by
          generalize t.step (.register entity parent) = u at heffect
          cases heffect
          rfl
        have hnew : s.registrations (t.step (.register entity parent)) =
            s.registrations t ++ [.register entity parent] := by
          rw [registrations, hslots, List.drop_append_of_le_length hsize, List.map_append]
          rfl
        rw [hnew, run_append, hrun]
        rfl
      · rw [hsame]
        exact ⟨hsize, hrun⟩

end Scope

namespace Operation

def action? : Operation → Option (ScopeId × Scope.Action)
  | .openScope _ _ => none
  | .create _ _ _ => none
  | .createSibling _ => none
  | .derive _ => none
  | .drawParameter id => some (id, .drawParameter)
  | .drawAlias id => some (id, .drawAlias)
  | .aliasOf c => some (c.scope, .aliasOf c.id)
  | .fixAlias c aliasName => some (c.scope, .fixAlias c.id aliasName)
  | .compile c => some (c.scope, .compile c)
  | .freeze id => some (id, .freeze)
  | .lookUp g id => some (g.scope, .aliasWhileHeld id)
  | .drop g => some (g.scope, .unfreeze)

def guard? : Operation → Option Guard
  | .lookUp g _ => some g
  | .drop g => some g
  | _ => none

end Operation

namespace Guarded

def actions (G : Guarded) (σ : ScopeId) (op : Operation) : List Scope.Action :=
  match op.action? with
  | none => (G.scope σ).registrations ((G.perform op).2.scope σ)
  | some (id, a) => if id = σ ∧ ∀ g ∈ op.guard?, g ∈ G.guards then [a] else []

def history (G : Guarded) (σ : ScopeId) : List Operation → List Scope.Action
  | [] => []
  | op :: ops => G.actions σ op ++ (G.perform op).2.history σ ops

end Guarded

namespace Workspace

theorem scope_setScope_of_opened {w : Workspace} {σ : ScopeId} (hσ : σ.index < w.scopes.length)
    (id : ScopeId) (s : Scope) : (w.setScope id s).scope σ = if id = σ then s else w.scope σ := by
  by_cases hid : id.index < w.scopes.length
  · simp only [scope_setScope hid, eq_comm]
  · have hne : id ≠ σ := by
      rintro rfl
      exact hid hσ
    rw [if_neg hne]
    simp [setScope, List.set_eq_of_length_le (Nat.le_of_not_lt hid)]

structure Acts (w v : Workspace) (id : ScopeId) (a : Scope.Action) : Prop where
  opened : v.scopes.length = w.scopes.length
  scope : ∀ σ : ScopeId, σ.index < w.scopes.length →
    v.scope σ = if id = σ then (w.scope σ).step a else w.scope σ

variable {w v u : Workspace} {id : ScopeId} {a : Scope.Action}

theorem acts_setScope {s : Scope} (h : (w.scope id).step a = s) : Acts w (w.setScope id s) id a where
  opened := by simp [setScope]
  scope σ hσ := by
    rw [scope_setScope_of_opened hσ]
    by_cases hid : id = σ
    · rw [if_pos hid, if_pos hid, ← hid, h]
    · rw [if_neg hid, if_neg hid]

theorem acts_nothing (h : (w.scope id).step a = w.scope id) : Acts w w id a where
  opened := rfl
  scope σ _ := by
    split
    next hid => rw [← hid, h]
    next => rfl

theorem Acts.of_scopes (h : Acts w v id a) (hscopes : u.scopes = v.scopes) : Acts w u id a where
  opened := by rw [hscopes, h.opened]
  scope σ hσ := by
    have hscope : u.scope σ = v.scope σ := by simp only [Workspace.scope, hscopes]
    rw [hscope, h.scope σ hσ]

theorem acts_within {ε α : Type} {operation : Scope → Except ε (α × Scope)}
    (herror : ∀ e, operation (w.scope id) = .error e → (w.scope id).step a = w.scope id)
    (hok : ∀ b s, operation (w.scope id) = .ok (b, s) → (w.scope id).step a = s) :
    Acts w (w.within id operation).2 id a := by
  unfold within
  cases hrun : operation (w.scope id) with
  | error e => exact acts_nothing (herror e hrun)
  | ok result => exact acts_setScope (hok result.1 result.2 hrun)

theorem acts_register (w : Workspace) (id : ScopeId) (entity : Entity) (parent : Option CriteriaId) :
    Acts w (w.register id entity parent).2 id (.register entity parent) := by
  have hacts : Acts w (w.within id fun s => s.register entity parent).2 id (.register entity parent) :=
    acts_within (fun e he => by simp [Scope.step, he, Scope.after])
      fun b s hs => by simp [Scope.step, hs, Scope.after]
  unfold Workspace.register
  split
  · next heq =>
    rw [heq] at hacts
    exact hacts
  · next heq =>
    rw [heq] at hacts
    exact hacts.of_scopes rfl

theorem acts_compile (w : Workspace) (c : Criteria) : Acts w (w.compile c).2 c.scope (.compile c) := by
  have hacts : Acts w (w.setScope c.scope ((w.scope c.scope).compile c).2) c.scope (.compile c) :=
    acts_setScope rfl
  unfold Workspace.compile
  split
  next result s hcompile =>
    rw [hcompile] at hacts
    cases result <;> exact hacts.of_scopes rfl

theorem acts_fixAlias (w : Workspace) (c : Criteria) (aliasName : String) :
    Acts w (w.fixAlias c aliasName).2 c.scope (.fixAlias c.id aliasName) := by
  refine acts_within (fun e he => ?_) fun b s hs => ?_
  · cases hassign : (w.scope c.scope).assignAlias c.id aliasName with
    | error e => simp [Scope.step, hassign, Scope.after, Except.map]
    | ok t => simp [hassign] at he
  · cases hassign : (w.scope c.scope).assignAlias c.id aliasName with
    | error e => simp [hassign] at hs
    | ok t =>
        simp only [hassign, Except.ok.injEq, Prod.mk.injEq] at hs
        simp [Scope.step, hassign, Scope.after, Except.map, hs.2]

theorem acts_freeze (w : Workspace) (id : ScopeId) : Acts w (w.freeze id).2 id .freeze := by
  refine acts_within (fun e he => ?_) fun b s hs => ?_
  · simp [Scope.step, he, Scope.after]
  · simp [Scope.step, hs, Scope.after]

structure Enrolls (w v : Workspace) : Prop where
  opened : v.scopes.length = w.scopes.length
  scope : ∀ σ : ScopeId, σ.index < w.scopes.length → (w.scope σ).Enrolled (v.scope σ)

theorem Enrolls.refl (w : Workspace) : Enrolls w w where
  opened := rfl
  scope _ _ := .refl

theorem Enrolls.register (h : Enrolls w v) (id : ScopeId) (entity : Entity)
    (parent : Option CriteriaId) : Enrolls w (v.register id entity parent).2 where
  opened := (v.acts_register id entity parent).opened.trans h.opened
  scope σ hσ := by
    have hstep := (v.acts_register id entity parent).scope σ (h.opened ▸ hσ)
    rw [hstep]
    split
    · exact .register entity parent (h.scope σ hσ)
    · exact h.scope σ hσ

theorem Enrolls.create (h : Enrolls w v) (id : ScopeId) (name : String) (parent : Option CriteriaId) :
    Enrolls w (v.create id name parent).2 := by
  rcases v.create_cases id name parent with ⟨-, hcreate⟩ | ⟨entity, -, hcreate⟩
  · rwa [hcreate]
  · rw [hcreate]
    exact h.register id entity parent

theorem enrolls_derive (w : Workspace) (c : Criteria) : Enrolls w (w.derive c).2 :=
  (derive_meets (I := Enrolls w) (E := fun _ => True) (M := fun _ => True)
    (fun node parent _ _ h => h.create node.scope node.entity.name parent)
    (fun _ _ _ _ _ _ _ => trivial) (fun _ _ => trivial) (.refl w)).1

end Workspace

namespace Guarded

variable {G : Guarded} {σ : ScopeId}

theorem settle_snd {ε α : Type} (G : Guarded) (failure : ε → Operation.Failure)
    (outcome : Except ε α × Workspace) : (G.settle failure outcome).2 = G.moveTo outcome.2 := by
  obtain ⟨result, w⟩ := outcome
  cases result <;> rfl

theorem settle_fst {ε α : Type} (G : Guarded) (failure : ε → Operation.Failure)
    (outcome : Except ε α × Workspace) :
    (G.settle failure outcome).1 = (outcome.1.map fun _ => ()).mapError failure := by
  obtain ⟨result, w⟩ := outcome
  cases result <;> rfl

theorem acts_perform (G : Guarded) {op : Operation} {id : ScopeId} {a : Scope.Action}
    (haction : op.action? = some (id, a)) (hguard : ∀ g ∈ op.guard?, g ∈ G.guards) :
    G.workspace.Acts (G.perform op).2.workspace id a := by
  cases op with
  | openScope config registry => cases haction
  | create id entity parent => cases haction
  | createSibling c => cases haction
  | derive c => cases haction
  | drawParameter id =>
      cases haction
      exact Workspace.acts_setScope rfl
  | drawAlias id =>
      cases haction
      exact Workspace.acts_setScope rfl
  | aliasOf c =>
      cases haction
      rw [perform, settle_snd]
      exact Workspace.acts_within (fun e he => by simp [Scope.step, he, Scope.after])
        fun b s hs => by simp [Scope.step, hs, Scope.after]
  | fixAlias c aliasName =>
      cases haction
      rw [perform, settle_snd]
      exact G.workspace.acts_fixAlias c aliasName
  | compile c =>
      cases haction
      rw [perform, settle_snd]
      exact G.workspace.acts_compile c
  | freeze id =>
      cases haction
      simp only [perform]
      split
      · have hacts := G.workspace.acts_freeze id
        split
        · next heq =>
          rw [heq] at hacts
          exact hacts
        · next heq =>
          rw [heq] at hacts
          exact hacts
      · next hclosed =>
        refine ⟨rfl, fun σ hσ => ?_⟩
        have hne : id ≠ σ := by
          rintro rfl
          exact hclosed hσ
        rw [if_neg hne]
  | lookUp g id =>
      cases haction
      rw [perform, if_pos (hguard g rfl), settle_snd]
      exact Workspace.acts_within (fun e he => by simp [Scope.step, he, Scope.after])
        fun b s hs => by simp [Scope.step, hs, Scope.after]
  | drop g =>
      cases haction
      rw [perform, if_pos (hguard g rfl)]
      exact Workspace.acts_setScope rfl

theorem perform_of_dropped {op : Operation} {g : Guard} (hop : op.guard? = some g)
    (hg : g ∉ G.guards) : G.perform op = (.ok (), G) := by
  cases op <;> cases hop
  · rw [perform, if_neg hg]
  · rw [perform, if_neg hg]

theorem enrolls_perform {op : Operation} (haction : op.action? = none)
    (hop : ∀ config registry, op ≠ .openScope config registry) :
    G.workspace.Enrolls (G.perform op).2.workspace := by
  cases op with
  | openScope config registry => exact absurd rfl (hop config registry)
  | create id entity parent =>
      rw [perform, settle_snd]
      exact (Workspace.Enrolls.refl _).create id entity parent
  | createSibling c =>
      rw [perform, settle_snd]
      exact (Workspace.Enrolls.refl _).create c.scope _ _
  | derive c =>
      rw [perform, settle_snd]
      exact G.workspace.enrolls_derive c
  | _ => cases haction

theorem scope_openScope (hσ : G.Opened σ) (config : Config) (registry : Registry) :
    (G.perform (.openScope config registry)).2.scope σ = G.scope σ := by
  simp [perform, moveTo, scope, Workspace.openScope, Workspace.scope, List.getD_eq_getElem?_getD,
    List.getElem?_append_left hσ]

theorem enrolled_perform (hσ : G.Opened σ) {op : Operation} (haction : op.action? = none) :
    (G.perform op).2.Opened σ ∧ (G.scope σ).Enrolled ((G.perform op).2.scope σ) := by
  by_cases hop : ∃ config registry, op = .openScope config registry
  · obtain ⟨config, registry, rfl⟩ := hop
    rw [scope_openScope hσ]
    refine ⟨?_, .refl⟩
    have hopened : σ.index < G.workspace.scopes.length := hσ
    simp only [Opened, perform, moveTo, Workspace.openScope, List.length_append, List.length_singleton]
    omega
  · have henrolls := enrolls_perform (G := G) haction fun config registry heq =>
      hop ⟨config, registry, heq⟩
    exact ⟨Nat.lt_of_lt_of_eq hσ henrolls.opened.symm, henrolls.scope σ hσ⟩

theorem actions_of_action? {op : Operation} {id : ScopeId} {a : Scope.Action}
    (haction : op.action? = some (id, a)) :
    G.actions σ op = if id = σ ∧ ∀ g ∈ op.guard?, g ∈ G.guards then [a] else [] := by
  rw [actions, haction]

theorem actions_here {op : Operation} {a : Scope.Action} (haction : op.action? = some (σ, a))
    (hguard : ∀ g ∈ op.guard?, g ∈ G.guards) : G.actions σ op = [a] := by
  rw [actions_of_action? haction, if_pos ⟨rfl, hguard⟩]

theorem actions_elsewhere {op : Operation} {id : ScopeId} {a : Scope.Action}
    (haction : op.action? = some (id, a)) (hne : id ≠ σ) : G.actions σ op = [] := by
  rw [actions_of_action? haction, if_neg fun h => hne h.1]

theorem action?_of_mem_actions {op : Operation} {a : Scope.Action} (h : a ∈ G.actions σ op) :
    (∃ entity parent, a = .register entity parent) ∨
      op.action? = some (σ, a) ∧ ∀ g ∈ op.guard?, g ∈ G.guards := by
  cases haction : op.action? with
  | none =>
      rw [actions, haction] at h
      obtain ⟨slot, -, rfl⟩ := List.mem_map.mp h
      exact .inl ⟨slot.entity, slot.parent, rfl⟩
  | some target =>
      obtain ⟨id, b⟩ := target
      rw [actions_of_action? haction] at h
      split at h
      · next hacts =>
        obtain rfl := List.mem_singleton.mp h
        exact .inr ⟨by rw [hacts.1], hacts.2⟩
      · cases h

theorem opened_of_perform {op : Operation} (h : (G.perform op).2.Opened σ) :
    G.Opened σ ∨ ∃ config registry, op = .openScope config registry ∧
      (G.perform op).2.scope σ = .fresh config registry := by
  by_cases hop : ∃ config registry, op = .openScope config registry
  · obtain ⟨config, registry, rfl⟩ := hop
    refine (Nat.lt_or_ge σ.index G.workspace.scopes.length).imp_right fun hnew => ⟨_, _, rfl, ?_⟩
    have hle : σ.index < (G.workspace.scopes ++ [Scope.fresh config registry]).length := h
    have hlast : σ.index = G.workspace.scopes.length := by
      rw [List.length_append, List.length_singleton] at hle
      omega
    simp [perform, moveTo, scope, Workspace.openScope, Workspace.scope, List.getD_eq_getElem?_getD, hlast]
  · left
    cases haction : op.action? with
    | none =>
        have henrolls := enrolls_perform (G := G) haction fun config registry heq =>
          hop ⟨config, registry, heq⟩
        exact Nat.lt_of_lt_of_eq h henrolls.opened
    | some target =>
        by_cases hguard : ∀ g ∈ op.guard?, g ∈ G.guards
        · exact Nat.lt_of_lt_of_eq h (G.acts_perform haction hguard).opened
        · obtain ⟨g, hg⟩ := not_forall.mp hguard
          obtain ⟨hused, hdropped⟩ := Classical.not_imp.mp hg
          rwa [perform_of_dropped hused hdropped] at h

theorem scope_perform (hσ : G.Opened σ) (op : Operation) :
    (G.perform op).2.Opened σ ∧ (G.perform op).2.scope σ = (G.scope σ).run (G.actions σ op) := by
  cases haction : op.action? with
  | none =>
      obtain ⟨hopened, henrolled⟩ := enrolled_perform hσ haction
      rw [actions, haction]
      exact ⟨hopened, (Scope.run_registrations henrolled).2.symm⟩
  | some target =>
      obtain ⟨id, a⟩ := target
      by_cases hguard : ∀ g ∈ op.guard?, g ∈ G.guards
      · have hacts := G.acts_perform haction hguard
        refine ⟨Nat.lt_of_lt_of_eq hσ hacts.opened.symm, (hacts.scope σ hσ).trans ?_⟩
        by_cases hid : id = σ
        · subst hid
          rw [if_pos rfl, actions_here haction hguard]
          rfl
        · rw [if_neg hid, actions_elsewhere haction hid]
          rfl
      · obtain ⟨g, hg⟩ := not_forall.mp hguard
        obtain ⟨hop, hdropped⟩ := Classical.not_imp.mp hg
        rw [actions_of_action? haction, if_neg fun h => hguard h.2, perform_of_dropped hop hdropped]
        exact ⟨hσ, rfl⟩

theorem run_cons (G : Guarded) (op : Operation) (ops : List Operation) :
    G.run (op :: ops) = (G.perform op).2.run ops := rfl

theorem run_append (G : Guarded) (ops more : List Operation) :
    G.run (ops ++ more) = (G.run ops).run more :=
  List.foldl_append

theorem history_append (G : Guarded) (σ : ScopeId) (ops more : List Operation) :
    G.history σ (ops ++ more) = G.history σ ops ++ (G.run ops).history σ more := by
  induction ops generalizing G with
  | nil => rfl
  | cons op ops ih => rw [List.cons_append, history, ih, history, List.append_assoc, run_cons]

theorem scope_run (hσ : G.Opened σ) (ops : List Operation) :
    (G.run ops).Opened σ ∧ (G.run ops).scope σ = (G.scope σ).run (G.history σ ops) := by
  induction ops generalizing G with
  | nil => exact ⟨hσ, rfl⟩
  | cons op ops ih =>
      obtain ⟨hopened, hscope⟩ := scope_perform hσ op
      rw [run_cons, history, Scope.run_append, ← hscope]
      exact ih hopened

end Guarded

end QueryCriteria
