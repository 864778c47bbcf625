import QueryCriteria.Proofs.CompileFrame
import QueryCriteria.Proofs.Operations

namespace QueryCriteria

open QueryCriteria.Metrics

def Criteria.creation (c : Criteria) : Event :=
  .criteriaCreated c.node.entity.name

mutual
def Criteria.copied : Criteria → List Criteria
  | .mk node ps js => .mk node ps js :: (copiedJoins js ++ copiedPredicates ps)

def copiedJoins : List Criteria → List Criteria
  | [] => []
  | c :: cs => c.copied ++ copiedJoins cs

def Predicate.copied : Predicate → List Criteria
  | .test _ _ => []
  | .existence _ _ query => query.copied
  | .subquery _ _ query => query.copied
  | .nested _ _ children => copiedPredicates children

def copiedPredicates : List Predicate → List Criteria
  | [] => []
  | p :: ps => p.copied ++ copiedPredicates ps
end

namespace Copying

variable {α β : Type}

def Records (m : Copying α) (cs : List Criteria) : Prop :=
  ∀ w r, ∃ done, done <+: cs ∧ (m (w, r)).2.2.length = r.length + done.length ∧
    (m (w, r)).2.1.telemetry = (done.map Criteria.creation).foldl Telemetry.record w.telemetry ∧
      ∀ a, (m (w, r)).1 = .ok a → done = cs

theorem records_nothing {m : Copying α} (h : ∀ w r, (m (w, r)).2 = (w, r)) : Records m [] := by
  intro w r
  refine ⟨[], List.prefix_rfl, ?_, ?_, fun _ _ => rfl⟩ <;> rw [h] <;> rfl

theorem records_pure (a : α) : Records (pure a : Copying α) [] :=
  records_nothing fun _ _ => rfl

theorem records_bind {step : Copying α} {next : α → Copying β} {cs ds : List Criteria}
    (hstep : Records step cs) (hnext : ∀ a, Records (next a) ds) : Records (step >>= next) (cs ++ ds) := by
  intro w r
  obtain ⟨done, hprefix, hlength, htelemetry, hall⟩ := hstep w r
  rcases hrun : step (w, r) with ⟨result, v, q⟩
  rw [hrun] at hlength htelemetry hall
  cases result with
  | error e =>
      rw [bind_of_error hrun]
      exact ⟨done, hprefix.trans (List.prefix_append _ _), hlength, htelemetry, fun a ha => by cases ha⟩
  | ok a =>
      obtain rfl := hall a rfl
      obtain ⟨later, hlater, hmore, hlast, hrest⟩ := hnext a v q
      rw [bind_of_ok hrun]
      refine ⟨done ++ later, (List.prefix_append_right_inj done).mpr hlater, ?_, ?_, fun b hb => ?_⟩
      · rw [hmore, hlength, List.length_append, Nat.add_assoc]
      · rw [hlast, htelemetry, List.map_append, List.foldl_append]
      · rw [hrest b hb]

theorem records_map {step : Copying α} {f : α → β} {cs : List Criteria} (h : Records step cs) :
    Records (step >>= fun a => pure (f a)) cs := by
  simpa using records_bind h fun a => records_pure (f a)

theorem records_mapM {copy : α → Copying β} {k : α → List Criteria} {as : List α}
    (h : ∀ a ∈ as, Records (copy a) (k a)) : Records (as.mapM' copy) (as.flatMap k) := by
  induction as with
  | nil => exact records_pure []
  | cons a as ih =>
      obtain ⟨ha, has⟩ := List.forall_mem_cons.mp h
      exact records_bind ha fun b => records_map (ih has)

theorem records_rename (id : CriteriaId) : Records (rename id) [] :=
  records_nothing fun _ _ => rfl

theorem records_rename? (id : Option CriteriaId) : Records (rename? id) [] := by
  cases id with
  | none => exact records_pure none
  | some id => exact records_map (records_rename id)

theorem records_copyHead (head : Predicate.Head) : Records (copyHead head) [] :=
  records_map (records_rename? head.owner)

theorem records_copyTest (t : Test) : Records (copyTest t) [] := by
  cases t with
  | columnEqual other => exact records_map (records_rename other.criteria)
  | _ => exact records_pure _

end Copying

theorem copiedJoins_eq_flatMap (js : List Criteria) : copiedJoins js = js.flatMap Criteria.copied := by
  induction js with
  | nil => rfl
  | cons c cs ih => simp [copiedJoins, ih]

theorem copiedPredicates_eq_flatMap (ps : List Predicate) :
    copiedPredicates ps = ps.flatMap Predicate.copied := by
  induction ps with
  | nil => rfl
  | cons p ps ih => simp [copiedPredicates, ih]

def created : Except CriteriaError Criteria → List Event
  | .error _ => []
  | .ok c => [c.creation]

namespace Workspace

theorem telemetry_register (w : Workspace) (id : ScopeId) (entity : Model.Entity) (parent : Option CriteriaId) :
    (w.register id entity parent).2.telemetry =
      (created (w.register id entity parent).1).foldl Telemetry.record w.telemetry := by
  have hwithin := w.telemetry_within id fun s => s.register entity parent
  unfold register
  rcases hrun : w.within id fun s => s.register entity parent with ⟨result, v⟩
  rw [hrun] at hwithin
  cases result with
  | error e => exact hwithin
  | ok criteria => exact congrArg (·.record (.criteriaCreated entity.name)) hwithin

theorem telemetry_create (w : Workspace) (id : ScopeId) (entity : String) (parent : Option CriteriaId) :
    (w.create id entity parent).2.telemetry =
      (created (w.create id entity parent).1).foldl Telemetry.record w.telemetry := by
  unfold create
  split
  · rfl
  · exact w.telemetry_register id _ parent

theorem creation_create {w v : Workspace} {id : ScopeId} {entity : String} {parent : Option CriteriaId}
    {c : Criteria} (h : w.create id entity parent = (.ok c, v)) : c.creation = .criteriaCreated entity := by
  unfold create at h
  split at h
  · cases h
  · next found hfound =>
    rw [← Model.Registry.name_of_entity? hfound]
    unfold register at h
    split at h <;> cases h
    rfl

end Workspace

namespace Copying

theorem records_copyNode (node : Node) (parent : Option CriteriaId) (ps : List Predicate) (js : List Criteria) :
    Records (copyNode node parent) [.mk node ps js] := by
  intro w r
  have htelemetry := w.telemetry_create node.scope node.entity.name parent
  rcases hrun : w.create node.scope node.entity.name parent with ⟨result, v⟩
  rw [hrun] at htelemetry
  simp only [copyNode, hrun]
  cases result with
  | error e => exact ⟨[], List.nil_prefix, rfl, htelemetry, fun a ha => by cases ha⟩
  | ok c =>
      have hcreation : c.creation = (Criteria.mk node ps js).creation := Workspace.creation_create hrun
      rw [created, hcreation] at htelemetry
      exact ⟨_, List.prefix_rfl, rfl, htelemetry, fun _ _ => rfl⟩

theorem records_copy :
    (∀ c : Criteria, Records (copyCriteria c) c.copied) ∧
    ∀ p : Predicate, Records (copyPredicate p) p.copied := by
  apply tree_induction
  case criteria =>
    intro node ps js hp hj
    have hparts := fun copy => records_bind (records_mapM hj) fun joins =>
      records_map (f := fun predicates => Criteria.mk copy predicates joins) (records_mapM hp)
    have hall := records_bind (records_rename? node.parent) fun parent =>
      records_bind (records_copyNode node parent ps js) hparts
    rw [Criteria.copied, copiedJoins_eq_flatMap, copiedPredicates_eq_flatMap, copyCriteria,
      copyJoins_eq_mapM, copyPredicates_eq_mapM]
    exact hall
  case test =>
    intro head t
    exact records_bind (records_copyTest t) fun copy => records_map (records_copyHead head)
  case existence =>
    intro head negated query hq
    have hall := records_bind hq fun copy =>
      records_map (f := fun head => Predicate.existence head negated copy) (records_copyHead head)
    rwa [List.append_nil] at hall
  case subquery =>
    intro head op query hq
    have hall := records_bind hq fun copy =>
      records_map (f := fun head => Predicate.subquery head op copy) (records_copyHead head)
    rwa [List.append_nil] at hall
  case nested =>
    intro head negated children hc
    have hall := records_bind (records_mapM hc) fun copies =>
      records_map (f := fun head => Predicate.nested head negated copies) (records_copyHead head)
    rw [Predicate.copied, copiedPredicates_eq_flatMap, copyPredicate, copyPredicates_eq_mapM]
    rwa [List.append_nil] at hall

end Copying

namespace Workspace

def copies (w : Workspace) (c : Criteria) : Nat :=
  (Copying.copyCriteria c (w, [])).2.2.length

theorem telemetry_derive (w : Workspace) (c : Criteria) :
    (w.derive c).2.telemetry =
        ((c.copied.take (w.copies c)).map Criteria.creation).foldl Telemetry.record w.telemetry ∧
      ∀ d, (w.derive c).1 = .ok d → c.copied.take (w.copies c) = c.copied := by
  obtain ⟨done, hprefix, hlength, htelemetry, hall⟩ := Copying.records_copy.1 c w []
  have hdone : c.copied.take (w.copies c) = done := by
    rw [List.length_nil, Nat.zero_add] at hlength
    rw [copies, hlength, List.prefix_iff_eq_take.mp hprefix, List.length_take,
      Nat.min_eq_left hprefix.length_le]
  rw [hdone]
  exact ⟨htelemetry, hall⟩

end Workspace

namespace Operation

def events (w : Workspace) : Operation → List Event
  | .create id entity parent => created (w.create id entity parent).1
  | .createSibling c => created (w.createSibling c).1
  | .derive c => (c.copied.take (w.copies c)).map Criteria.creation
  | .compile c => [c.ending (w.compile c).1]
  | _ => []

end Operation

theorem Guarded.telemetry_perform (G : Guarded) (op : Operation) :
    (G.perform op).2.workspace.telemetry =
      (op.events G.workspace).foldl Telemetry.record G.workspace.telemetry := by
  have hwithin : ∀ {ε α : Type} (id : ScopeId) (operation : Scope → Except ε (α × Scope)),
      (G.workspace.within id operation).2.telemetry = G.workspace.telemetry := G.workspace.telemetry_within
  cases op with
  | create id entity parent =>
      rw [perform, settle_snd]
      exact G.workspace.telemetry_create id entity parent
  | createSibling c =>
      rw [perform, settle_snd]
      exact G.workspace.telemetry_create c.scope c.node.entity.name c.node.parent
  | derive c =>
      rw [perform, settle_snd]
      exact (G.workspace.telemetry_derive c).1
  | compile c =>
      rw [perform, settle_snd]
      exact congrArg Workspace.telemetry (G.workspace.state_compile c)
  | aliasOf c =>
      rw [perform, settle_snd]
      exact hwithin c.scope _
  | fixAlias c aliasName =>
      rw [perform, settle_snd]
      exact hwithin c.scope _
  | freeze id =>
      have hfreeze : (G.workspace.freeze id).2.telemetry = G.workspace.telemetry := hwithin id _
      simp only [perform]
      split
      · rcases hrun : G.workspace.freeze id with ⟨result, w⟩
        rw [hrun] at hfreeze
        cases result <;> exact hfreeze
      · rfl
  | lookUp g id =>
      rw [perform]
      split
      · rw [settle_snd]
        exact hwithin g.scope _
      · rfl
  | drop g =>
      rw [perform]
      split <;> rfl
  | _ => rfl

end QueryCriteria
