import Mathlib.Data.List.Forall2
import QueryCriteria.Proofs.Tree
import QueryCriteria.Workspace.Derive

namespace QueryCriteria.Copying

structure Course where
  reaches : Workspace → Workspace → Prop
  keeps : Workspace → Renaming → Prop
  refuses : CriteriaError → Prop
  refl : ∀ w, reaches w w
  trans : ∀ {u v w}, reaches u v → reaches v w → reaches u w

def Ensures {α : Type} (F : Course) (w : Workspace) (m : Copying α) (Q : Workspace → α → Prop) : Prop :=
  ∀ r, F.keeps w r →
    F.reaches w (m (w, r)).2.1 ∧ F.keeps (m (w, r)).2.1 (m (w, r)).2.2 ∧
      (∀ e, (m (w, r)).1 = .error e → F.refuses e) ∧
        ∀ a, (m (w, r)).1 = .ok a → Q (m (w, r)).2.1 a

section Rules

variable {α β : Type} {F : Course} {w : Workspace} {Q : Workspace → α → Prop} {R : Workspace → β → Prop}
  {step : Copying α} {next : α → Copying β}

theorem bind_of_error {state after : Workspace × Renaming} {e : CriteriaError}
    (h : step state = (.error e, after)) : (step >>= next) state = (.error e, after) := by
  simp only [bind, h]

theorem bind_of_ok {state after : Workspace × Renaming} {a : α} (h : step state = (.ok a, after)) :
    (step >>= next) state = next a after := by
  simp only [bind, h]

theorem bind_bind {γ : Type} (last : β → Copying γ) :
    (step >>= next) >>= last = step >>= fun a => next a >>= last := by
  funext state
  rcases hrun : step state with ⟨result, after⟩
  cases result with
  | error e => rw [bind_of_error (bind_of_error hrun), bind_of_error hrun]
  | ok a =>
      rw [bind_of_ok hrun]
      simp only [bind, hrun]

theorem ensures_pure {a : α} (h : Q w a) : Ensures F w (pure a : Copying α) Q := by
  intro r hr
  refine ⟨F.refl w, hr, fun e he => ?_, fun b hb => ?_⟩
  · cases he
  · cases hb
    exact h

theorem ensures_bind (hstep : Ensures F w step Q)
    (hnext : ∀ v a, F.reaches w v → Q v a → Ensures F v (next a) R) : Ensures F w (step >>= next) R := by
  intro r hr
  obtain ⟨hwv, hq, he, hQ⟩ := hstep r hr
  rcases hrun : step (w, r) with ⟨result, v, q⟩
  rw [hrun] at hwv hq he hQ
  cases result with
  | error e =>
      rw [bind_of_error hrun]
      exact ⟨hwv, hq, fun f hf => Except.error.inj hf ▸ he e rfl, fun b hb => by cases hb⟩
  | ok a =>
      obtain ⟨hvu, hlast, herror, hR⟩ := hnext v a hwv (hQ a rfl) q hq
      rw [bind_of_ok hrun]
      exact ⟨F.trans hwv hvu, hlast, herror, hR⟩

theorem ensures_mapM {P : Workspace → α → Prop} {S : Workspace → α → β → Prop} {copy : α → Copying β}
    {as : List α} (hP : ∀ v u a, F.reaches v u → P v a → P u a)
    (hS : ∀ v u a b, F.reaches v u → S v a b → S u a b)
    (hcopy : ∀ a ∈ as, ∀ w, P w a → Ensures F w (copy a) fun v => S v a) (h : ∀ a ∈ as, P w a) :
    Ensures F w (as.mapM' copy) fun v => List.Forall₂ (S v) as := by
  induction as generalizing w with
  | nil => exact ensures_pure .nil
  | cons a as ih =>
      obtain ⟨hhead, htail⟩ := List.forall_mem_cons.mp hcopy
      obtain ⟨ha, has⟩ := List.forall_mem_cons.mp h
      refine ensures_bind (hhead w ha) fun v b hwv hb => ?_
      refine ensures_bind (ih htail fun a hmem => hP w v a hwv (has a hmem)) fun u bs hvu hbs => ?_
      exact ensures_pure (.cons (hS v u a b hvu hb) hbs)

theorem forall_of_forall₂ {R : β → Prop} {as : List α} {bs : List β}
    (h : List.Forall₂ (fun _ b => R b) as bs) : ∀ b ∈ bs, R b := by
  induction h with
  | nil => simp
  | cons hb _ ih => exact List.forall_mem_cons.mpr ⟨hb, ih⟩

theorem Ensures.imp {m : Copying α} {Q' : Workspace → α → Prop} (h : Ensures F w m Q)
    (hQ : ∀ v a, Q v a → Q' v a) : Ensures F w m Q' := by
  intro r hr
  obtain ⟨hwv, hq, he, ha⟩ := h r hr
  exact ⟨hwv, hq, he, fun a heq => hQ _ a (ha a heq)⟩

end Rules

theorem rename?_some (id : CriteriaId) : rename? (some id) = rename id >>= fun copy => pure (some copy) :=
  rfl

section Steps

variable {F : Course} {w : Workspace}

theorem ensures_rename? (hrename : ∀ w id, Ensures F w (rename id) fun _ _ => True) (id : Option CriteriaId) :
    Ensures F w (rename? id) fun _ _ => True := by
  cases id with
  | none => exact ensures_pure trivial
  | some id => exact ensures_bind (hrename w id) fun _ _ _ _ => ensures_pure trivial

theorem ensures_copyHead (hrename : ∀ w id, Ensures F w (rename id) fun _ _ => True) (head : Predicate.Head) :
    Ensures F w (copyHead head) fun _ new => new = { head with owner := new.owner } :=
  ensures_bind (ensures_rename? hrename head.owner) fun _ _ _ _ => ensures_pure rfl

theorem ensures_copyTest (hrename : ∀ w id, Ensures F w (rename id) fun _ _ => True) {t : Test}
    {Q : Test → Prop} (hself : Q t)
    (hother : ∀ other id, t = .columnEqual other → Q (.columnEqual { other with criteria := id })) :
    Ensures F w (copyTest t) fun _ => Q := by
  cases t with
  | columnEqual other =>
      exact ensures_bind (hrename w other.criteria) fun _ id _ _ => ensures_pure (hother other id rfl)
  | _ => exact ensures_pure hself

end Steps

theorem copyJoins_eq_mapM (js : List Criteria) : copyJoins js = js.mapM' copyCriteria := by
  induction js with
  | nil => rfl
  | cons c cs ih => rw [copyJoins, ih, List.mapM']

theorem copyPredicates_eq_mapM (ps : List Predicate) : copyPredicates ps = ps.mapM' copyPredicate := by
  induction ps with
  | nil => rfl
  | cons p ps ih => rw [copyPredicates, ih, List.mapM']

theorem copyCriteria_mk (node : Node) (ps : List Predicate) (js : List Criteria) :
    copyCriteria (.mk node ps js) = (rename? node.parent >>= copyNode node) >>= fun copy =>
      js.mapM' copyCriteria >>= fun joins =>
        ps.mapM' copyPredicate >>= fun predicates => pure (.mk copy predicates joins) := by
  rw [copyCriteria, copyJoins_eq_mapM, copyPredicates_eq_mapM, bind_bind]

-- `C` and `P` are asked of what is copied, `D` and `Q` relate it to its copy.
structure Carries (F : Course) (C : Workspace → Criteria → Prop) (P : Workspace → Predicate → Prop)
    (D : Workspace → Criteria → Criteria → Prop) (Q : Workspace → Predicate → Predicate → Prop) : Prop where
  criteria : ∀ w v c, F.reaches w v → C w c → C v c
  predicate : ∀ w v p, F.reaches w v → P w p → P v p
  criteriaCopy : ∀ w v c d, F.reaches w v → D w c d → D v c d
  predicateCopy : ∀ w v p q, F.reaches w v → Q w p q → Q v p q
  parts : ∀ {w node ps js}, C w (.mk node ps js) → (∀ p ∈ ps, P w p) ∧ ∀ c ∈ js, C w c
  node : ∀ {w node ps js}, C w (.mk node ps js) →
    Ensures F w (rename? node.parent >>= copyNode node) fun v copy => ∀ u qs ds, F.reaches v u →
      List.Forall₂ (Q u) ps qs → List.Forall₂ (D u) js ds → D u (.mk node ps js) (.mk copy qs ds)
  test : ∀ {w head t}, P w (.test head t) →
    Ensures F w (copyPredicate (.test head t)) fun v => Q v (.test head t)
  existence : ∀ {w head negated query}, P w (.existence head negated query) → C w query ∧
    Ensures F w (copyHead head) fun v new => ∀ d, D v query d →
      Q v (.existence head negated query) (.existence new negated d)
  subquery : ∀ {w head op query}, P w (.subquery head op query) → C w query ∧
    Ensures F w (copyHead head) fun v new => ∀ d, D v query d →
      Q v (.subquery head op query) (.subquery new op d)
  nested : ∀ {w head negated children}, P w (.nested head negated children) → (∀ p ∈ children, P w p) ∧
    Ensures F w (copyHead head) fun v new => ∀ qs, List.Forall₂ (Q v) children qs →
      Q v (.nested head negated children) (.nested new negated qs)

theorem Carries.copy {F : Course} {C : Workspace → Criteria → Prop} {P : Workspace → Predicate → Prop}
    {D : Workspace → Criteria → Criteria → Prop} {Q : Workspace → Predicate → Predicate → Prop}
    (h : Carries F C P D Q) :
    (∀ c w, C w c → Ensures F w (copyCriteria c) fun v => D v c) ∧
      ∀ p w, P w p → Ensures F w (copyPredicate p) fun v => Q v p := by
  apply tree_induction
  case criteria =>
    intro node ps js hp hj w hc
    rw [copyCriteria_mk]
    refine ensures_bind (h.node hc) fun w₁ copy h₁ hcopy => ?_
    refine ensures_bind (ensures_mapM h.criteria h.criteriaCopy hj (h.parts (h.criteria w w₁ _ h₁ hc)).2)
      fun w₂ joins h₂ hjoins => ?_
    have h₁₂ := F.trans h₁ h₂
    refine ensures_bind (ensures_mapM h.predicate h.predicateCopy hp (h.parts (h.criteria w w₂ _ h₁₂ hc)).1)
      fun w₃ predicates h₃ hpredicates => ?_
    exact ensures_pure (hcopy w₃ predicates joins (F.trans h₂ h₃) hpredicates
      (hjoins.imp fun c d => h.criteriaCopy w₂ w₃ c d h₃))
  case test =>
    intro head t w hp
    exact h.test hp
  case existence =>
    intro head negated query hquery w hp
    refine ensures_bind (hquery w (h.existence hp).1) fun v d hwv hd => ?_
    refine ensures_bind (h.existence (h.predicate w v _ hwv hp)).2 fun u new hvu hnew => ?_
    exact ensures_pure (hnew d (h.criteriaCopy v u query d hvu hd))
  case subquery =>
    intro head op query hquery w hp
    refine ensures_bind (hquery w (h.subquery hp).1) fun v d hwv hd => ?_
    refine ensures_bind (h.subquery (h.predicate w v _ hwv hp)).2 fun u new hvu hnew => ?_
    exact ensures_pure (hnew d (h.criteriaCopy v u query d hvu hd))
  case nested =>
    intro head negated children hchildren w hp
    rw [copyPredicate, copyPredicates_eq_mapM]
    refine ensures_bind (ensures_mapM h.predicate h.predicateCopy hchildren (h.nested hp).1)
      fun v qs hwv hqs => ?_
    refine ensures_bind (h.nested (h.predicate w v _ hwv hp)).2 fun u new hvu hnew => ?_
    exact ensures_pure (hnew qs (hqs.imp fun p q => h.predicateCopy v u p q hvu))

end QueryCriteria.Copying
