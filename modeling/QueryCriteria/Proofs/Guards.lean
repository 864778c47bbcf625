import QueryCriteria.Proofs.HeldScope
import QueryCriteria.Proofs.Operations

namespace QueryCriteria.Guarded

def Reachable (G : Guarded) : Prop :=
  ∃ ops, ({} : Guarded).run ops = G

def holders (G : Guarded) (σ : ScopeId) : List Guard :=
  G.guards.filter (·.scope = σ)

variable {G : Guarded} {σ : ScopeId} {g g' : Guard}

theorem mem_holders : g ∈ G.holders σ ↔ g ∈ G.guards ∧ g.scope = σ := by
  simp [holders]

theorem freeze_of_opened (hσ : G.Opened σ) :
    G.perform (.freeze σ) =
      if (G.scope σ).frozen then (.error (.scope .busy), G)
      else (.ok (),
        ⟨G.workspace.setScope σ (G.scope σ).held, ⟨σ, G.issued⟩ :: G.guards, G.issued + 1⟩) := by
  have hopened : σ.index < G.workspace.scopes.length := hσ
  cases hfrozen : (G.workspace.scope σ).frozen <;>
    simp [perform, hopened, scope, Workspace.freeze, Workspace.within, Scope.freeze, hfrozen, Except.map,
      moveTo, Scope.held]

theorem guards_freeze (hσ : G.Opened σ) (hfree : (G.scope σ).frozen = false) :
    (G.perform (.freeze σ)).2.guards = ⟨σ, G.issued⟩ :: G.guards ∧
      (G.perform (.freeze σ)).2.issued = G.issued + 1 := by
  rw [freeze_of_opened hσ, hfree]
  exact ⟨rfl, rfl⟩

theorem frozen_freeze (hσ : G.Opened σ) : ((G.perform (.freeze σ)).2.scope σ).frozen = true := by
  rw [(scope_perform hσ _).2, actions_here rfl (by rintro _ ⟨⟩)]
  cases hfrozen : (G.scope σ).frozen <;>
    simp [Scope.run, Scope.step, Scope.freeze, Scope.after, Except.map, hfrozen]

theorem guards_perform {op : Operation} (hfreeze : ∀ id, op ≠ .freeze id) (hdrop : ∀ g, op ≠ .drop g) :
    (G.perform op).2.guards = G.guards ∧ (G.perform op).2.issued = G.issued := by
  cases op with
  | freeze id => exact absurd rfl (hfreeze id)
  | drop g => exact absurd rfl (hdrop g)
  | openScope config registry => exact ⟨rfl, rfl⟩
  | drawParameter id => exact ⟨rfl, rfl⟩
  | drawAlias id => exact ⟨rfl, rfl⟩
  | lookUp g id =>
      rw [perform]
      split
      · rw [settle_snd]
        exact ⟨rfl, rfl⟩
      · exact ⟨rfl, rfl⟩
  | _ =>
      rw [perform, settle_snd]
      exact ⟨rfl, rfl⟩

theorem guards_drop (hg : g ∈ G.guards) :
    (G.perform (.drop g)).2.guards = G.guards.erase g ∧ (G.perform (.drop g)).2.issued = G.issued := by
  rw [perform, if_pos hg]
  exact ⟨rfl, rfl⟩

theorem eq_freeze_of_mem_actions {op : Operation} (h : .freeze ∈ G.actions σ op) : op = .freeze σ := by
  rcases action?_of_mem_actions h with ⟨entity, parent, hregister⟩ | ⟨haction, -⟩
  · cases hregister
  · cases op <;> cases haction
    rfl

theorem eq_drop_of_mem_actions {op : Operation} (h : .unfreeze ∈ G.actions σ op) :
    ∃ g ∈ G.holders σ, op = .drop g := by
  rcases action?_of_mem_actions h with ⟨entity, parent, hregister⟩ | ⟨haction, hguard⟩
  · cases hregister
  · cases op <;> cases haction
    exact ⟨_, mem_holders.mpr ⟨hguard _ rfl, rfl⟩, rfl⟩

theorem eq_lookUp_of_mem_actions {op : Operation} {id : CriteriaId}
    (h : .aliasWhileHeld id ∈ G.actions σ op) : ∃ g ∈ G.holders σ, op = .lookUp g id := by
  rcases action?_of_mem_actions h with ⟨entity, parent, hregister⟩ | ⟨haction, hguard⟩
  · cases hregister
  · cases op <;> cases haction
    exact ⟨_, mem_holders.mpr ⟨hguard _ rfl, rfl⟩, rfl⟩

theorem frozen_perform (hσ : G.Opened σ) {op : Operation} (hfreeze : op ≠ .freeze σ)
    (hdrop : ∀ g, op ≠ .drop g) : ((G.perform op).2.scope σ).frozen = (G.scope σ).frozen := by
  rw [(scope_perform hσ op).2]
  refine Scope.frozen_run fun a ha => ⟨?_, ?_⟩
  · rintro rfl
    exact hfreeze (eq_freeze_of_mem_actions ha)
  · rintro rfl
    obtain ⟨g, -, hop⟩ := eq_drop_of_mem_actions ha
    exact hdrop g hop

structure Orderly (G : Guarded) : Prop where
  numbered : ∀ g ∈ G.guards, g.number < G.issued
  opened : ∀ g ∈ G.guards, G.Opened g.scope
  held : ∀ σ, G.Opened σ → (G.holders σ).length = (G.scope σ).frozen.toNat

namespace Orderly

theorem holders_eq_singleton (h : G.Orderly) (hg : g ∈ G.holders σ) :
    G.holders σ = [g] ∧ (G.scope σ).frozen = true := by
  obtain ⟨hmem, rfl⟩ := mem_holders.mp hg
  have hlength := h.held g.scope (h.opened g hmem)
  cases hfrozen : (G.scope g.scope).frozen with
  | false =>
      rw [hfrozen] at hlength
      rw [List.eq_nil_of_length_eq_zero hlength] at hg
      cases hg
  | true =>
      rw [hfrozen] at hlength
      obtain ⟨g', hsingle⟩ := List.length_eq_one_iff.mp hlength
      rw [hsingle] at hg ⊢
      rw [List.mem_singleton.mp hg]
      exact ⟨rfl, rfl⟩

theorem holders_drop (h : G.Orderly) (hg : g ∈ G.guards) (σ : ScopeId) :
    (G.perform (.drop g)).2.holders σ = if g.scope = σ then [] else G.holders σ := by
  rw [holders, (guards_drop hg).1, ← List.erase_filter]
  change (G.holders σ).erase g = _
  split
  · next hscope =>
    rw [(h.holders_eq_singleton (mem_holders.mpr ⟨hg, hscope⟩)).1]
    exact List.erase_cons_head ..
  · next hscope =>
    exact List.erase_of_not_mem fun hmem => hscope (mem_holders.mp hmem).2

theorem holders_freeze (h : G.Orderly) (hσ : G.Opened σ) (hfree : (G.scope σ).frozen = false)
    (τ : ScopeId) :
    (G.perform (.freeze σ)).2.holders τ = if σ = τ then [⟨σ, G.issued⟩] else G.holders τ := by
  have hnobody := h.held σ hσ
  rw [hfree] at hnobody
  rw [holders, (guards_freeze hσ hfree).1]
  split
  · next hscope =>
    subst hscope
    rw [List.filter_cons_of_pos (by simp)]
    exact congrArg _ (List.eq_nil_of_length_eq_zero hnobody)
  · next hscope =>
    rw [List.filter_cons_of_neg (by simpa using hscope)]
    rfl

theorem freeze (h : G.Orderly) (hσ : G.Opened σ) : (G.perform (.freeze σ)).2.Orderly := by
  cases hfrozen : (G.scope σ).frozen with
  | true =>
      rw [freeze_of_opened hσ, hfrozen]
      exact h
  | false =>
      have hopened := fun τ (hτ : G.Opened τ) => (scope_perform hτ (.freeze σ)).1
      obtain ⟨hguards, hissued⟩ := guards_freeze hσ hfrozen
      refine ⟨?_, ?_, fun τ hτ => ?_⟩
      · rw [hguards, hissued]
        exact List.forall_mem_cons.mpr ⟨Nat.lt_succ_self _, fun g hg => Nat.lt_succ_of_lt (h.numbered g hg)⟩
      · rw [hguards]
        exact List.forall_mem_cons.mpr ⟨hopened σ hσ, fun g hg => hopened _ (h.opened g hg)⟩
      · have hτ := (opened_of_perform hτ).resolve_right (by simp)
        rw [h.holders_freeze hσ hfrozen]
        by_cases hscope : σ = τ
        · subst hscope
          rw [if_pos rfl, frozen_freeze hσ]
          rfl
        · rw [if_neg hscope, frozen_perform hτ (by simpa using hscope) (by simp), h.held τ hτ]

theorem drop (h : G.Orderly) (hg : g ∈ G.guards) : (G.perform (.drop g)).2.Orderly := by
  obtain ⟨hguards, hissued⟩ := guards_drop hg
  refine ⟨fun g' hg' => ?_, fun g' hg' => ?_, fun τ hτ => ?_⟩
  · rw [hguards] at hg'
    rw [hissued]
    exact h.numbered g' (List.mem_of_mem_erase hg')
  · rw [hguards] at hg'
    exact (scope_perform (h.opened g' (List.mem_of_mem_erase hg')) _).1
  · have hτ := (opened_of_perform hτ).resolve_right (by simp)
    rw [h.holders_drop hg, (scope_perform hτ (.drop g)).2]
    by_cases hscope : g.scope = τ
    · subst hscope
      rw [if_pos rfl, actions_here rfl (by rintro _ ⟨⟩; exact hg)]
      rfl
    · rw [if_neg hscope, actions_elsewhere rfl hscope]
      exact h.held τ hτ

theorem perform (h : G.Orderly) (op : Operation) : (G.perform op).2.Orderly := by
  by_cases hfreeze : ∃ id, op = .freeze id
  · obtain ⟨id, rfl⟩ := hfreeze
    by_cases hid : id.index < G.workspace.scopes.length
    · exact h.freeze hid
    · rw [Guarded.perform, if_neg hid]
      exact h
  by_cases hdrop : ∃ g, op = .drop g
  · obtain ⟨g, rfl⟩ := hdrop
    by_cases hg : g ∈ G.guards
    · exact h.drop hg
    · rw [perform_of_dropped rfl hg]
      exact h
  -- What is left changes neither the guards nor what is frozen.
  have hfreeze := not_exists.mp hfreeze
  have hdrop := not_exists.mp hdrop
  obtain ⟨hguards, hissued⟩ := guards_perform (G := G) hfreeze hdrop
  refine ⟨?_, ?_, fun σ hσ => ?_⟩
  · rw [hguards, hissued]
    exact h.numbered
  · rw [hguards]
    exact fun g hg => (scope_perform (h.opened g hg) op).1
  · rw [holders, hguards]
    change (G.holders σ).length = _
    by_cases hold : G.Opened σ
    · rw [frozen_perform hold (hfreeze σ) hdrop, h.held σ hold]
    · rcases opened_of_perform hσ with hold' | ⟨config, registry, -, hfresh⟩
      · exact absurd hold' hold
      · have hnobody : G.holders σ = [] := by
          refine List.eq_nil_iff_forall_not_mem.mpr fun g hg => ?_
          obtain ⟨hmem, rfl⟩ := mem_holders.mp hg
          exact hold (h.opened g hmem)
        rw [hnobody, hfresh]
        rfl

theorem run (h : G.Orderly) (ops : List Operation) : (G.run ops).Orderly := by
  induction ops generalizing G with
  | nil => exact h
  | cons op ops ih => exact ih (h.perform op)

end Orderly

theorem orderly_of_reachable (h : G.Reachable) : G.Orderly := by
  obtain ⟨ops, rfl⟩ := h
  refine Orderly.run ⟨by simp, by simp, fun σ hσ => ?_⟩ ops
  cases hσ

end QueryCriteria.Guarded
