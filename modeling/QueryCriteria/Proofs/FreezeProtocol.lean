import QueryCriteria.Proofs.CompileSteps
import QueryCriteria.Proofs.Guards
import QueryCriteria.Proofs.Placeholders

namespace QueryCriteria

def Operation.Failure.isHeld : Operation.Failure → Bool
  | .criteria e => e.isHeld
  | .scope e => e.isHeld
  | .compile e => e.isHeld

def Operation.InOneScope : Operation → Prop
  | .derive c => ∀ m ∈ c.members, m.scope = c.scope
  | _ => True

namespace Workspace

variable {w v : Workspace} {σ : ScopeId}

theorem within_of_error {ε α : Type} {id : ScopeId} {operation : Scope → Except ε (α × Scope)} {e : ε}
    (h : (w.within id operation).1 = .error e) : (w.within id operation).2 = w := by
  unfold within at h ⊢
  split at h
  · rfl
  · cases h

theorem register_of_error {id : ScopeId} {entity : Model.Entity} {parent : Option CriteriaId}
    {e : CriteriaError} (h : (w.register id entity parent).1 = .error e) :
    (w.register id entity parent).2 = w := by
  unfold register at h ⊢
  split at h
  · next heq =>
    have hsame := within_of_error (congrArg Prod.fst heq)
    rw [heq] at hsame
    exact hsame
  · cases h

theorem create_of_error {id : ScopeId} {entity : String} {parent : Option CriteriaId}
    {e : CriteriaError} (h : (w.create id entity parent).1 = .error e) :
    (w.create id entity parent).2 = w := by
  rcases w.create_cases id entity parent with ⟨-, hcreate⟩ | ⟨found, -, hcreate⟩
  · rw [hcreate]
  · rw [hcreate] at h ⊢
    exact register_of_error h

theorem register_of_frozen (hfrozen : (w.scope σ).frozen = true) (entity : Model.Entity)
    (parent : Option CriteriaId) : w.register σ entity parent = (.error (.scope .frozen), w) := by
  simp [register, within, Scope.register, hfrozen]

theorem create_of_frozen {name : String} (hknown : ((w.scope σ).registry.entity? name).isSome)
    (hfrozen : (w.scope σ).frozen = true) (parent : Option CriteriaId) :
    w.create σ name parent = (.error (.scope .frozen), w) := by
  rcases w.create_cases σ name parent with ⟨hnone, -⟩ | ⟨entity, -, hcreate⟩
  · rw [hnone] at hknown
    cases hknown
  · rw [hcreate, register_of_frozen hfrozen]

theorem derive_eq_of_frozen {c : Criteria}
    (hknown : ((w.scope c.scope).registry.entity? c.node.entity.name).isSome)
    (hfrozen : (w.scope c.scope).frozen = true) : w.derive c = (.error (.scope .frozen), w) := by
  obtain ⟨node, ps, js⟩ := c
  have hrefused : ∀ parent, Copying.copyNode node parent (w, []) = (.error (.scope .frozen), w, []) := by
    intro parent
    have hcreate : w.create node.scope node.entity.name parent = _ := create_of_frozen hknown hfrozen parent
    simp [Copying.copyNode, hcreate]
  cases hparent : node.parent <;>
    simp [derive, Copying.copyCriteria, Copying.rename?, Copying.rename, hparent, hrefused, bind, pure,
      Functor.map]

theorem isHeld_register {id : ScopeId} {entity : Model.Entity} {parent : Option CriteriaId}
    {e : CriteriaError} (hfree : (w.scope id).frozen = false)
    (h : (w.register id entity parent).1 = .error e) : e.isHeld = false := by
  by_cases hfull : Scope.capacity ≤ (w.scope id).size
  · simp only [register, within, Scope.register, hfree, Bool.false_eq_true, if_false, if_pos hfull,
      Except.error.injEq] at h
    rw [← h]
    rfl
  · simp [register, within, Scope.register, hfree, hfull] at h

theorem isHeld_create {id : ScopeId} {name : String} {parent : Option CriteriaId} {e : CriteriaError}
    (hfree : (w.scope id).frozen = false) (h : (w.create id name parent).1 = .error e) :
    e.isHeld = false := by
  rcases w.create_cases id name parent with ⟨-, hcreate⟩ | ⟨entity, -, hcreate⟩
  · rw [hcreate] at h
    obtain rfl := Except.error.inj h
    rfl
  · exact isHeld_register hfree (hcreate ▸ h)

theorem scope_derive_of_frozen (hσ : σ.index < w.scopes.length) {c : Criteria}
    (h : ∀ m ∈ c.members, m.scope = σ → (w.scope σ).frozen = true) :
    (w.derive c).2.scope σ = w.scope σ := by
  refine (derive_meets (I := fun v => v.scopes.length = w.scopes.length ∧ v.scope σ = w.scope σ)
    (E := fun _ => True) (M := fun node => node.scope = σ → (w.scope σ).frozen = true)
    (fun node parent v hnode hv => ?_) (fun _ _ _ _ _ _ _ => trivial) h ⟨rfl, rfl⟩).1.2
  rcases v.create_cases node.scope node.entity.name parent with ⟨-, hcreate⟩ | ⟨entity, -, hcreate⟩
  · rwa [hcreate]
  rw [hcreate]
  have hacts := v.acts_register node.scope entity parent
  refine ⟨hacts.opened.trans hv.1, ?_⟩
  rw [hacts.scope σ (hv.1 ▸ hσ), hv.2]
  split
  · next hscope => simp [Scope.step, Scope.register, hnode hscope, Scope.after]
  · rfl

theorem isHeld_derive {c : Criteria} (hσ : c.scope.index < w.scopes.length)
    (hlocal : ∀ m ∈ c.members, m.scope = c.scope) (hfree : (w.scope c.scope).frozen = false)
    {e : CriteriaError} (h : (w.derive c).1 = .error e) : e.isHeld = false := by
  refine (derive_meets
    (I := fun v => c.scope.index < v.scopes.length ∧ (v.scope c.scope).frozen = false)
    (E := fun e => e.isHeld = false) (M := fun node => node.scope = c.scope)
    (fun node parent v hnode hv => ?_) (fun node parent v e hnode hv he => ?_) hlocal
    ⟨hσ, hfree⟩).2.1 e h
  · rcases v.create_cases node.scope node.entity.name parent with ⟨-, hcreate⟩ | ⟨entity, -, hcreate⟩
    · rwa [hcreate]
    rw [hcreate]
    have hacts := v.acts_register node.scope entity parent
    refine ⟨Nat.lt_of_lt_of_eq hv.1 hacts.opened.symm, ?_⟩
    rw [hacts.scope c.scope hv.1, if_pos hnode, Scope.frozen_step _ (by simp) (by simp)]
    exact hv.2
  · exact isHeld_create (hnode ▸ hv.2) he

end Workspace

namespace Guarded

variable {G : Guarded} {σ : ScopeId} {g : Guard}

theorem settle_of_error {ε α : Type} {failure : ε → Operation.Failure} {outcome : Except ε α × Workspace}
    {e : Operation.Failure} (h : (G.settle failure outcome).1 = .error e) :
    ∃ fault, outcome.1 = .error fault ∧ failure fault = e := by
  obtain ⟨result, w⟩ := outcome
  cases result with
  | error fault => exact ⟨fault, rfl, Except.error.inj h⟩
  | ok a => cases h

theorem settle_of_refused {ε α : Type} {failure : ε → Operation.Failure} {outcome : Except ε α × Workspace}
    {e : Operation.Failure} (h : (G.settle failure outcome).1 = .error e)
    (hsame : ∀ fault, outcome.1 = .error fault → outcome.2 = G.workspace) :
    (G.settle failure outcome).2 = G := by
  obtain ⟨fault, hfault, -⟩ := settle_of_error h
  rw [settle_snd, hsame fault hfault]
  rfl

theorem perform_of_refused {op : Operation} {e : Operation.Failure} (h : (G.perform op).1 = .error e)
    (hderive : ∀ c, op ≠ .derive c) (hcompile : ∀ c, op ≠ .compile c) : (G.perform op).2 = G := by
  cases op with
  | openScope config registry => cases h
  | create id entity parent => exact settle_of_refused h fun _ => Workspace.create_of_error
  | createSibling c => exact settle_of_refused h fun _ => Workspace.create_of_error
  | derive c => exact absurd rfl (hderive c)
  | drawParameter id => cases h
  | drawAlias id => cases h
  | aliasOf c => exact settle_of_refused h fun _ => Workspace.within_of_error
  | fixAlias c aliasName => exact settle_of_refused h fun _ => Workspace.within_of_error
  | compile c => exact absurd rfl (hcompile c)
  | freeze id =>
      by_cases hid : G.Opened id
      · rw [freeze_of_opened hid] at h ⊢
        split at h
        · next hfrozen => rw [if_pos hfrozen]
        · cases h
      · rw [perform, if_neg (show ¬ id.index < G.workspace.scopes.length from hid)] at h
        cases h
  | lookUp g id =>
      rw [perform] at h ⊢
      split at h
      · next hg =>
        rw [if_pos hg]
        exact settle_of_refused h fun _ => Workspace.within_of_error
      · cases h
  | drop g =>
      rw [perform] at h
      split at h <;> cases h

theorem scope_derive_of_refused (hσ : G.Opened σ) {c : Criteria} {e : Operation.Failure}
    (h : (G.perform (.derive c)).1 = .error e) (he : e.isHeld = true)
    (hplace : (G.scope σ).frozen = true ∨ ∀ m ∈ c.members, m.scope = c.scope) :
    (G.perform (.derive c)).2.scope σ = G.scope σ := by
  obtain ⟨fault, hfault, rfl⟩ := settle_of_error h
  rw [perform, settle_snd]
  refine Workspace.scope_derive_of_frozen hσ fun m hm hscope => ?_
  rcases hplace with hfrozen | hlocal
  · exact hfrozen
  · obtain rfl : c.scope = σ := (hlocal m hm).symm.trans hscope
    by_contra hfree
    rw [Bool.not_eq_true] at hfree
    rw [Operation.Failure.isHeld, Workspace.isHeld_derive hσ hlocal hfree hfault] at he
    cases he

theorem scope_compile_of_refused (hσ : G.Opened σ) {c : Criteria} {e : Operation.Failure}
    (h : (G.perform (.compile c)).1 = .error e) (he : e.isHeld = true) :
    (G.perform (.compile c)).2.scope σ = G.scope σ := by
  obtain ⟨fault, hfault, rfl⟩ := settle_of_error h
  rw [Workspace.result_compile] at hfault
  rw [(scope_perform hσ _).2]
  by_cases hscope : c.scope = σ
  · subst hscope
    rw [actions_here rfl (by rintro _ ⟨⟩), Scope.run_cons, Scope.step]
    cases hfrozen : (G.scope c.scope).frozen with
    | true =>
        rw [Scope.compile_of_frozen hfrozen]
        rfl
    | false =>
        rw [Operation.Failure.isHeld, Scope.isHeld_compile hfrozen hfault] at he
        cases he
  · rw [actions_elsewhere rfl hscope]
    rfl

theorem scope_of_refused (hσ : G.Opened σ) {op : Operation} {e : Operation.Failure}
    (h : (G.perform op).1 = .error e) (he : e.isHeld = true)
    (hplace : (G.scope σ).frozen = true ∨ op.InOneScope) : (G.perform op).2.scope σ = G.scope σ := by
  by_cases hderive : ∃ c, op = .derive c
  · obtain ⟨c, rfl⟩ := hderive
    exact scope_derive_of_refused hσ h he hplace
  by_cases hcompile : ∃ c, op = .compile c
  · obtain ⟨c, rfl⟩ := hcompile
    exact scope_compile_of_refused hσ h he
  · rw [perform_of_refused h (not_exists.mp hderive) (not_exists.mp hcompile)]

theorem issued_perform (G : Guarded) (op : Operation) :
    G.issued ≤ (G.perform op).2.issued ∧
      ∀ g ∈ (G.perform op).2.guards, g.number < G.issued → g ∈ G.guards := by
  by_cases hfreeze : ∃ id, op = .freeze id
  · obtain ⟨id, rfl⟩ := hfreeze
    by_cases hid : id.index < G.workspace.scopes.length
    · rw [freeze_of_opened hid]
      split
      · exact ⟨Nat.le_refl _, fun g hg _ => hg⟩
      · refine ⟨Nat.le_succ _, fun g hg hnumber => (List.mem_cons.mp hg).resolve_left ?_⟩
        rintro rfl
        exact Nat.lt_irrefl _ hnumber
    · rw [perform, if_neg hid]
      exact ⟨Nat.le_refl _, fun g hg _ => hg⟩
  by_cases hdrop : ∃ g, op = .drop g
  · obtain ⟨g, rfl⟩ := hdrop
    by_cases hg : g ∈ G.guards
    · obtain ⟨hguards, hissued⟩ := guards_drop hg
      rw [hguards, hissued]
      exact ⟨Nat.le_refl _, fun g' hg' _ => List.mem_of_mem_erase hg'⟩
    · rw [perform_of_dropped rfl hg]
      exact ⟨Nat.le_refl _, fun g hg _ => hg⟩
  obtain ⟨hguards, hissued⟩ := guards_perform (G := G) (not_exists.mp hfreeze) (not_exists.mp hdrop)
  rw [hguards, hissued]
  exact ⟨Nat.le_refl _, fun g hg _ => hg⟩

theorem mem_guards_of_run {ops : List Operation} (hnumber : g.number < G.issued)
    (h : g ∈ (G.run ops).guards) : g ∈ G.guards := by
  induction ops generalizing G with
  | nil => exact h
  | cons op ops ih =>
      obtain ⟨hle, hkept⟩ := G.issued_perform op
      exact hkept g (ih (Nat.lt_of_lt_of_le hnumber hle) h) hnumber

theorem kept_perform (hG : G.Orderly) (hg : g ∈ G.guards) {op : Operation}
    (halive : g ∈ (G.perform op).2.guards) :
    (G.scope g.scope).Kept ((G.perform op).2.scope g.scope) fun id => op = .lookUp g id := by
  have hholder : g ∈ G.holders g.scope := mem_holders.mpr ⟨hg, rfl⟩
  obtain ⟨hsingle, hfrozen⟩ := hG.holders_eq_singleton hholder
  rw [(scope_perform (hG.opened g hg) op).2]
  refine (Scope.kept_run hfrozen fun a ha => ?_).mono fun id hid => ?_
  · rintro rfl
    obtain ⟨g', hg', rfl⟩ := eq_drop_of_mem_actions ha
    rw [hsingle] at hg'
    obtain rfl := List.mem_singleton.mp hg'
    have hgone := hG.holders_drop hg g'.scope
    rw [if_pos rfl] at hgone
    have hstill := mem_holders.mpr ⟨halive, rfl⟩
    rw [hgone] at hstill
    cases hstill
  · obtain ⟨g', hg', rfl⟩ := eq_lookUp_of_mem_actions hid
    rw [hsingle] at hg'
    rw [List.mem_singleton.mp hg']

theorem kept_run (hG : G.Orderly) (hg : g ∈ G.guards) {ops : List Operation}
    (halive : g ∈ (G.run ops).guards) :
    (G.scope g.scope).Kept ((G.run ops).scope g.scope) fun id => .lookUp g id ∈ ops := by
  induction ops generalizing G with
  | nil => exact .refl _
  | cons op ops ih =>
      have hnumber := Nat.lt_of_lt_of_le (hG.numbered g hg) (G.issued_perform op).1
      have hnext : g ∈ (G.perform op).2.guards := mem_guards_of_run hnumber halive
      refine ((kept_perform hG hg hnext).mono fun id hid => ?_).trans
        ((ih (hG.perform op) hnext halive).mono fun id => List.mem_cons_of_mem op)
      rw [hid]
      exact List.mem_cons_self

structure Refuses (G : Guarded) (σ : ScopeId) : Prop where
  create : ∀ entity parent, ((G.scope σ).registry.entity? entity).isSome →
    (G.perform (.create σ entity parent)).1 = .error (.criteria (.scope .frozen))
  createSibling : ∀ c, c.scope = σ → ((G.scope σ).registry.entity? c.node.entity.name).isSome →
    (G.perform (.createSibling c)).1 = .error (.criteria (.scope .frozen))
  derive : ∀ c, c.scope = σ → ((G.scope σ).registry.entity? c.node.entity.name).isSome →
    (G.perform (.derive c)).1 = .error (.criteria (.scope .frozen))
  aliasOf : ∀ c, c.scope = σ → ((G.scope σ).slot? c.id).isSome → (G.scope σ).alias? c.id = none →
    (G.perform (.aliasOf c)).1 = .error (.scope .frozen)
  fixAlias : ∀ c a, c.scope = σ →
    (G.perform (.fixAlias c a)).1 = .error (.criteria (.scope .frozen))
  freeze : (G.perform (.freeze σ)).1 = .error (.scope .busy)
  compile : ∀ c, c.scope = σ → (G.perform (.compile c)).1 = .error (.compile .scopeBusy)

theorem fst_settle_of_error {ε α : Type} {failure : ε → Operation.Failure}
    {outcome : Except ε α × Workspace} {fault : ε} (h : outcome.1 = .error fault) :
    (G.settle failure outcome).1 = .error (failure fault) := by
  rw [settle_fst, h]
  rfl

theorem refuses_of_frozen (hσ : G.Opened σ) (hfrozen : (G.scope σ).frozen = true) : G.Refuses σ where
  create entity parent hknown :=
    fst_settle_of_error (congrArg Prod.fst (Workspace.create_of_frozen hknown hfrozen parent))
  createSibling := by
    rintro c rfl hknown
    exact fst_settle_of_error (congrArg Prod.fst (Workspace.create_of_frozen hknown hfrozen c.node.parent))
  derive := by
    rintro c rfl hknown
    exact fst_settle_of_error (congrArg Prod.fst (Workspace.derive_eq_of_frozen hknown hfrozen))
  aliasOf := by
    rintro c rfl hslot hnone
    obtain ⟨slot, hslot⟩ := Option.isSome_iff_exists.mp hslot
    rw [Scope.alias?_of_slot? hslot] at hnone
    refine fst_settle_of_error ?_
    have hrefused : (G.workspace.scope c.scope).aliasOf c.id = .error .frozen := by
      rw [scope] at hslot hfrozen
      simp [Scope.aliasOf, hslot, hnone, hfrozen]
    rw [Workspace.aliasOf, Workspace.within, hrefused]
  fixAlias := by
    rintro c a rfl
    refine fst_settle_of_error ?_
    have hrefused : (G.workspace.scope c.scope).assignAlias c.id a = .error .frozen := if_pos hfrozen
    rw [Workspace.fixAlias, Workspace.within]
    simp only [hrefused]
  freeze := by rw [freeze_of_opened hσ, if_pos hfrozen]
  compile := by
    rintro c rfl
    refine fst_settle_of_error ?_
    have hbusy := Scope.compile_of_frozen hfrozen c
    rw [scope] at hbusy
    rw [Workspace.result_compile, hbusy]

theorem aliasOf_of_known {c : Criteria} {a : String} (ha : (G.scope c.scope).alias? c.id = some a) :
    (G.workspace.aliasOf c).1 = .ok a ∧ (G.perform (.aliasOf c)).1 = .ok () := by
  have hanswer : (G.workspace.scope c.scope).aliasOf c.id = .ok (a, G.workspace.scope c.scope) := by
    obtain ⟨slot, hslot, hname⟩ := Option.bind_eq_some_iff.mp ha
    rw [scope] at hslot
    simp [Scope.aliasOf, hslot, hname]
  have hresult : (G.workspace.aliasOf c).1 = .ok a := by
    rw [Workspace.aliasOf, Workspace.within, hanswer]
  refine ⟨hresult, ?_⟩
  rw [perform, settle_fst, hresult]
  rfl

def compiling (G : Guarded) (c : Criteria) : List Operation :=
  ((G.scope c.scope).asked c).map (.lookUp ⟨c.scope, G.issued⟩) ++
    List.replicate ((G.scope c.scope).parametersDrawn c) (.drawParameter c.scope)

theorem guards_run {ops : List Operation} (h : ∀ op ∈ ops, (∀ id, op ≠ .freeze id) ∧ ∀ g, op ≠ .drop g) :
    (G.run ops).guards = G.guards := by
  induction ops generalizing G with
  | nil => rfl
  | cons op ops ih =>
      obtain ⟨⟨hfreeze, hdrop⟩, hops⟩ := List.forall_mem_cons.mp h
      rw [run_cons, ih hops, (guards_perform hfreeze hdrop).1]

theorem steady_compiling (G : Guarded) (c : Criteria) :
    ∀ op ∈ G.compiling c, (∃ id, op = .lookUp ⟨c.scope, G.issued⟩ id) ∨ op = .drawParameter c.scope := by
  intro op hop
  rcases List.mem_append.mp hop with hask | hdraw
  · obtain ⟨id, -, rfl⟩ := List.mem_map.mp hask
    exact .inl ⟨id, rfl⟩
  · exact .inr (List.eq_of_mem_replicate hdraw)

theorem guards_run_compiling {H : Guarded} {c : Criteria} {ops : List Operation}
    (h : ops ⊆ G.compiling c) : (H.run ops).guards = H.guards := by
  refine guards_run fun op hop => ?_
  rcases G.steady_compiling c op (h hop) with ⟨id, rfl⟩ | rfl
  · exact ⟨by simp, by simp⟩
  · exact ⟨by simp, by simp⟩

theorem history_map {α : Type} {place : ScopeId} {f : α → Operation} {act : α → Scope.Action}
    (haction : ∀ x, (f x).action? = some (place, act x)) (hguard : ∀ x, ∀ g ∈ (f x).guard?, g ∈ G.guards)
    (hkept : ∀ (H : Guarded) x, (H.perform (f x)).2.guards = H.guards) (xs : List α) :
    G.history σ (xs.map f) = if place = σ then xs.map act else [] := by
  induction xs generalizing G with
  | nil => simp [history]
  | cons x xs ih =>
      rw [List.map_cons, history, ih (by rwa [hkept])]
      by_cases hscope : place = σ
      · subst hscope
        rw [actions_here (haction x) (hguard x)]
        simp
      · rw [if_neg hscope, if_neg hscope, actions_elsewhere (haction x) hscope]
        rfl

theorem history_lookUps (hg : g ∈ G.guards) (ids : List CriteriaId) :
    G.history σ (ids.map (.lookUp g)) = if g.scope = σ then ids.map .aliasWhileHeld else [] :=
  history_map (fun _ => rfl) (by rintro _ _ ⟨⟩; exact hg)
    (fun _ _ => (guards_perform (by simp) (by simp)).1) ids

theorem history_draws (G : Guarded) (σ place : ScopeId) (count : Nat) :
    G.history σ (List.replicate count (.drawParameter place)) =
      if place = σ then List.replicate count .drawParameter else [] := by
  have hdraws := history_map (G := G) (σ := σ) (f := fun _ : Unit => .drawParameter place) (fun _ => rfl)
    (by rintro _ _ ⟨⟩) (fun _ _ => rfl) (List.replicate count ())
  simpa only [List.map_replicate] using hdraws

section Compiling

variable {c : Criteria} (hσ : G.Opened c.scope) (hfree : (G.scope c.scope).frozen = false)

include hσ hfree

theorem guards_compiling :
    (G.run (.freeze c.scope :: (G.compiling c ++ [.drop ⟨c.scope, G.issued⟩]))).guards = G.guards := by
  have hheld := (guards_freeze hσ hfree).1
  have hguards := guards_run_compiling (H := (G.perform (.freeze c.scope)).2)
    (List.Subset.refl (G.compiling c))
  rw [run_cons, run_append, run_cons]
  refine (guards_drop ?_).1.trans ?_
  · rw [hguards, hheld]
    exact List.mem_cons_self
  · rw [hguards, hheld, List.erase_cons_head]

theorem history_compiling (τ : ScopeId) :
    G.history τ (.freeze c.scope :: (G.compiling c ++ [.drop ⟨c.scope, G.issued⟩])) =
      if c.scope = τ then (G.scope c.scope).parts (.compile c) else [] := by
  have hheld : (⟨c.scope, G.issued⟩ : Guard) ∈ (G.perform (.freeze c.scope)).2.guards := by
    rw [(guards_freeze hσ hfree).1]
    exact List.mem_cons_self
  have hstill : (⟨c.scope, G.issued⟩ : Guard) ∈
      ((G.perform (.freeze c.scope)).2.run (G.compiling c)).guards := by
    rwa [guards_run_compiling (List.Subset.refl _)]
  have hinner : (G.perform (.freeze c.scope)).2.history τ (G.compiling c) =
      if c.scope = τ then (G.scope c.scope).inner c else [] := by
    rw [compiling, history_append, history_lookUps hheld, history_draws]
    split
    · rfl
    · rfl
  rw [history, history_append, hinner, history, history, Scope.parts, hfree]
  by_cases hτ : c.scope = τ
  · subst hτ
    rw [if_pos rfl, if_pos rfl, actions_here rfl (by rintro _ ⟨⟩),
      actions_here rfl (by rintro _ ⟨⟩; exact hstill)]
    rfl
  · rw [if_neg hτ, if_neg hτ, actions_elsewhere rfl hτ, actions_elsewhere rfl hτ]
    rfl

theorem scope_compiling {τ : ScopeId} (hτ : G.Opened τ) :
    (G.run (.freeze c.scope :: (G.compiling c ++ [.drop ⟨c.scope, G.issued⟩]))).scope τ =
      (G.perform (.compile c)).2.scope τ := by
  rw [(scope_run hτ _).2, history_compiling hσ hfree, (scope_perform hτ _).2]
  by_cases hscope : c.scope = τ
  · subst hscope
    rw [if_pos rfl, actions_here rfl (by rintro _ ⟨⟩)]
    exact Scope.run_parts _ _
  · rw [if_neg hscope, actions_elsewhere rfl hscope]

theorem holders_compiling (hG : G.Orderly) {done : List Operation} (hdone : done <+: G.compiling c) :
    (G.run (.freeze c.scope :: done)).holders c.scope = [⟨c.scope, G.issued⟩] := by
  have hholders := hG.holders_freeze hσ hfree c.scope
  rw [if_pos rfl] at hholders
  rw [run_cons, holders, guards_run_compiling hdone.subset]
  exact hholders

end Compiling

theorem frozen_iff_holders (hG : G.Orderly) (hσ : G.Opened σ) :
    ((G.scope σ).frozen = true ↔ ∃ g, G.holders σ = [g]) ∧
      ((G.scope σ).frozen = false ↔ G.holders σ = []) := by
  have hlength := hG.held σ hσ
  rw [← List.length_eq_one_iff, ← List.length_eq_zero_iff, hlength]
  cases (G.scope σ).frozen <;> simp

end Guarded

theorem freeze_protocol {G : Guarded} (hG : G.Reachable) {σ : ScopeId} (hσ : G.Opened σ) :
    ((G.scope σ).frozen = true ↔ ∃ g, G.holders σ = [g]) ∧
    ((G.scope σ).frozen = false ↔ G.holders σ = []) ∧
    ((G.scope σ).frozen = true → G.Refuses σ) ∧
    (∀ c a, c.scope = σ → (G.scope σ).alias? c.id = some a →
      (G.workspace.aliasOf c).1 = .ok a ∧ (G.perform (.aliasOf c)).1 = .ok ()) ∧
    (∀ op e, (G.perform op).1 = .error e → e.isHeld = true →
      (G.scope σ).frozen = true ∨ op.InOneScope → (G.perform op).2.scope σ = G.scope σ) ∧
    (∀ g ∈ G.holders σ, ∀ ops, g ∈ (G.run ops).guards →
      (G.scope σ).Kept ((G.run ops).scope σ) fun id => .lookUp g id ∈ ops) ∧
    (∀ g ∈ G.holders σ, ((G.perform (.drop g)).2.scope σ).frozen = false) ∧
    (∀ c, c.scope = σ → (G.scope σ).frozen = false →
      ((G.perform (.compile c)).2.scope σ).frozen = false ∧
      ∃ inner, (∀ op ∈ inner, (∃ id, op = .lookUp ⟨σ, G.issued⟩ id) ∨ op = .drawParameter σ) ∧
        (∀ done, done <+: inner → (G.run (.freeze σ :: done)).holders σ = [⟨σ, G.issued⟩]) ∧
        (G.run (.freeze σ :: (inner ++ [.drop ⟨σ, G.issued⟩]))).guards = G.guards ∧
        ∀ τ, G.Opened τ → (G.run (.freeze σ :: (inner ++ [.drop ⟨σ, G.issued⟩]))).scope τ =
          (G.perform (.compile c)).2.scope τ) := by
  have horderly := Guarded.orderly_of_reachable hG
  obtain ⟨hheld, hfree⟩ := Guarded.frozen_iff_holders horderly hσ
  refine ⟨hheld, hfree, Guarded.refuses_of_frozen hσ, ?_, fun op e => Guarded.scope_of_refused hσ,
    fun g hg ops halive => ?_, fun g hg => ?_, ?_⟩
  · rintro c a rfl
    exact Guarded.aliasOf_of_known
  · obtain ⟨hmem, rfl⟩ := Guarded.mem_holders.mp hg
    exact Guarded.kept_run horderly hmem halive
  · obtain ⟨hmem, hscope⟩ := Guarded.mem_holders.mp hg
    have hafter := Guarded.frozen_iff_holders (horderly.perform (.drop g)) (Guarded.scope_perform hσ _).1
    rw [hafter.2, horderly.holders_drop hmem, if_pos hscope]
  · rintro c rfl hfrozen
    refine ⟨?_, G.compiling c, G.steady_compiling c,
      fun done => Guarded.holders_compiling hσ hfrozen horderly,
      Guarded.guards_compiling hσ hfrozen, fun τ => Guarded.scope_compiling hσ hfrozen⟩
    rw [(Guarded.scope_perform hσ _).2, Guarded.actions_here rfl (by rintro _ ⟨⟩)]
    exact Scope.frozen_compile hfrozen c

def heldDesk : Guarded :=
  ({} : Guarded).run
    [.openScope {} { entities := [staff] }, .create ⟨0⟩ "Staff" none, .freeze ⟨0⟩]

theorem heldDesk_protocol :
    heldDesk.holders ⟨0⟩ = [⟨⟨0⟩, 0⟩] ∧ heldDesk.Refuses ⟨0⟩ ∧
      ((heldDesk.perform (.lookUp ⟨⟨0⟩, 0⟩ ⟨0⟩)).2.scope ⟨0⟩).alias? ⟨0⟩ = some "t1" ∧
      (heldDesk.scope ⟨0⟩).Kept ((heldDesk.perform (.lookUp ⟨⟨0⟩, 0⟩ ⟨0⟩)).2.scope ⟨0⟩)
        (fun id => .lookUp ⟨⟨0⟩, 0⟩ id ∈ [Operation.lookUp ⟨⟨0⟩, 0⟩ ⟨0⟩]) ∧
      ((heldDesk.perform (.drop ⟨⟨0⟩, 0⟩)).2.scope ⟨0⟩).frozen = false := by
  have hheld : (heldDesk.scope ⟨0⟩).frozen = true := by rfl
  have hholders : heldDesk.holders ⟨0⟩ = [⟨⟨0⟩, 0⟩] := by rfl
  have hholder : (⟨⟨0⟩, 0⟩ : Guard) ∈ heldDesk.holders ⟨0⟩ := hholders ▸ List.mem_cons_self
  obtain ⟨-, -, hrefuses, -, -, hkept, hdrop, -⟩ :=
    @freeze_protocol heldDesk ⟨_, rfl⟩ ⟨0⟩ Nat.one_pos
  exact ⟨hholders, hrefuses hheld, rfl,
    hkept _ hholder [.lookUp ⟨⟨0⟩, 0⟩ ⟨0⟩] List.mem_cons_self, hdrop _ hholder⟩

end QueryCriteria
