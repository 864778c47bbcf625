import QueryCriteria.Proofs.Derivation
import QueryCriteria.Proofs.Relabelling

namespace QueryCriteria

def Test.anonymous (t : Test) : Test :=
  t.relabel (.all fun _ => ⟨0⟩)

def Predicate.Head.subject (h : Head) : MatchMode × Option Target :=
  (h.matched, h.target)

inductive Predicate.Outline where
  | test (subject : MatchMode × Option Target) (t : Test)
  | existence (subject : MatchMode × Option Target)
  | subquery (subject : MatchMode × Option Target)
  | nested (subject : MatchMode × Option Target) (size : Nat)

def Predicate.outline : Predicate → Outline
  | .test head t => .test head.subject t.anonymous
  | .existence head _ _ => .existence head.subject
  | .subquery head _ _ => .subquery head.subject
  | .nested head _ children => .nested head.subject children.length

def Criteria.outlines (c : Criteria) : List Predicate.Outline :=
  c.conditions.map Predicate.outline

def Predicate.outlines (p : Predicate) : List Outline :=
  p.conditions.map outline

theorem outlines_mk (node : Node) (ps : List Predicate) (js : List Criteria) :
    (Criteria.mk node ps js).outlines =
      ps.flatMap Predicate.outlines ++ js.flatMap Criteria.outlines := by
  rw [Criteria.outlines, Criteria.conditions_mk, List.map_append, List.map_flatMap, List.map_flatMap]
  rfl

theorem outlines_nested (head : Predicate.Head) (negated : Bool) (children : List Predicate) :
    (Predicate.nested head negated children).outlines =
      .nested head.subject children.length :: children.flatMap Predicate.outlines := by
  rw [Predicate.outlines, Predicate.conditions_nested, List.map_cons, List.map_flatMap]
  rfl

theorem outlines_bindOwner (id : CriteriaId) (p : Predicate) :
    (p.bindOwner id).outlines = p.outlines := by
  revert p
  refine (tree_induction (C := fun _ => True) ?_ ?_ ?_ ?_ ?_).2
  case refine_1 => simp
  case refine_2 =>
    intro head t
    rw [Predicate.bindOwner]
    rfl
  case refine_3 =>
    intro head negated query _
    rw [Predicate.bindOwner, Predicate.outlines, Predicate.outlines, Predicate.conditions_existence,
      Predicate.conditions_existence]
    rfl
  case refine_4 =>
    intro head op query _
    rw [Predicate.bindOwner, Predicate.outlines, Predicate.outlines, Predicate.conditions_subquery,
      Predicate.conditions_subquery]
    rfl
  case refine_5 =>
    intro head negated children hc
    rw [Predicate.bindOwner, bindOwners_eq_map, outlines_nested, outlines_nested, List.length_map,
      List.flatMap_map, List.flatMap_congr hc]
    rfl

theorem flatMap_eq_of_forall₂ {α β γ : Type} {f : α → List γ} {g : β → List γ} {as : List α}
    {bs : List β} (h : List.Forall₂ (fun a b => g b = f a) as bs) : bs.flatMap g = as.flatMap f := by
  induction h with
  | nil => rfl
  | cons hab _ ih => rw [List.flatMap_cons, List.flatMap_cons, hab, ih]

namespace Copying

variable {I : Workspace → Prop} {E : CriteriaError → Prop} {w : Workspace}

def Course.keeping (I : Workspace → Prop) (E : CriteriaError → Prop) : Course where
  reaches _ _ := True
  keeps w _ := I w
  refuses := E
  refl _ := trivial
  trans _ _ := trivial

theorem keeps_rename (w : Workspace) (id : CriteriaId) :
    Ensures (.keeping I E) w (rename id) fun _ _ => True :=
  fun _ hw => ⟨trivial, hw, fun _ he => (by cases he), fun _ _ => trivial⟩

theorem subject_copyHead (head : Predicate.Head) :
    Ensures (.keeping I E) w (copyHead head) fun _ new => new.subject = head.subject :=
  (ensures_copyHead keeps_rename head).imp fun _ _ hnew => hnew ▸ rfl

theorem keeps_copyNode {node : Node} {parent : Option CriteriaId}
    (hkeeps : ∀ w, I w → I (w.create node.scope node.entity.name parent).2)
    (hrefused : ∀ w e, I w → (w.create node.scope node.entity.name parent).1 = .error e → E e) :
    Ensures (.keeping I E) w (copyNode node parent) fun _ _ => True := by
  intro r hw
  have hI := hkeeps w hw
  have hE := fun e => hrefused w e hw
  rcases hcreate : w.create node.scope node.entity.name parent with ⟨result, v⟩
  rw [hcreate] at hI hE
  simp only [copyNode, hcreate]
  cases result with
  | error e => exact ⟨trivial, hI, fun f hf => Except.error.inj hf ▸ hE e rfl, fun _ _ => trivial⟩
  | ok c => exact ⟨trivial, hI, fun f hf => (by cases hf), fun _ _ => trivial⟩

theorem carries_outlines {M : Node → Prop}
    (hkeeps : ∀ node parent w, M node → I w → I (w.create node.scope node.entity.name parent).2)
    (hrefused : ∀ node parent w e, M node → I w →
      (w.create node.scope node.entity.name parent).1 = .error e → E e) :
    Carries (.keeping I E) (fun _ c => ∀ m ∈ c.members, M m.node) (fun _ p => ∀ m ∈ p.members, M m.node)
      (fun _ c d => d.outlines = c.outlines) fun _ p q => q.outlines = p.outlines where
  criteria _ _ _ _ hc := hc
  predicate _ _ _ _ hp := hp
  criteriaCopy _ _ _ _ _ hd := hd
  predicateCopy _ _ _ _ _ hq := hq
  parts h := by
    simp only [Criteria.members_mk, List.mem_cons, List.mem_append, List.mem_flatMap] at h
    exact ⟨fun p hmem m hm => h m (.inr (.inl ⟨p, hmem, hm⟩)), fun c hc m hm => h m (.inr (.inr ⟨c, hc, hm⟩))⟩
  node h := by
    have hself := h _ (Criteria.self_mem_members _)
    refine ensures_bind (ensures_rename? keeps_rename _) fun v parent _ _ => ?_
    refine (keeps_copyNode (fun w => hkeeps _ parent w hself) fun w e => hrefused _ parent w e hself).imp ?_
    intro _ copy _ u qs ds _ hqs hds
    rw [outlines_mk, outlines_mk, flatMap_eq_of_forall₂ hds, flatMap_eq_of_forall₂ hqs]
  test {_ _ t} _ := by
    refine ensures_bind (ensures_copyTest (Q := fun copy => copy.anonymous = t.anonymous) keeps_rename rfl
      (by rintro _ _ rfl; rfl)) fun _ copy _ hcopy => ?_
    refine ensures_bind (subject_copyHead _) fun _ new _ hnew => ensures_pure ?_
    simp [Predicate.outlines, Predicate.outline, hcopy, hnew]
  existence h := by
    refine ⟨by simpa using h, (subject_copyHead _).imp fun _ new hnew d hd => ?_⟩
    rw [Criteria.outlines, Criteria.outlines] at hd
    simp [Predicate.outlines, Predicate.outline, hd, hnew]
  subquery h := by
    refine ⟨by simpa using h, (subject_copyHead _).imp fun _ new hnew d hd => ?_⟩
    rw [Criteria.outlines, Criteria.outlines] at hd
    simp [Predicate.outlines, Predicate.outline, hd, hnew]
  nested h := by
    simp only [Predicate.members_nested, List.mem_flatMap] at h
    refine ⟨fun p hmem m hm => h m ⟨p, hmem, hm⟩, (subject_copyHead _).imp fun _ new hnew qs hqs => ?_⟩
    rw [outlines_nested, outlines_nested, hnew, hqs.length_eq, flatMap_eq_of_forall₂ hqs]

end Copying

theorem Workspace.derive_meets {I : Workspace → Prop} {E : CriteriaError → Prop} {M : Node → Prop}
    (hkeeps : ∀ node parent w, M node → I w → I (w.create node.scope node.entity.name parent).2)
    (hrefused : ∀ node parent w e, M node → I w →
      (w.create node.scope node.entity.name parent).1 = .error e → E e)
    {w : Workspace} {c : Criteria} (hM : ∀ m ∈ c.members, M m.node) (hw : I w) :
    I (w.derive c).2 ∧ (∀ e, (w.derive c).1 = .error e → E e) ∧
      ∀ d, (w.derive c).1 = .ok d → d.outlines = c.outlines :=
  ((Copying.carries_outlines hkeeps hrefused).copy.1 c w hM [] hw).2

theorem Workspace.outlines_derive {w v : Workspace} {c d : Criteria} (h : w.derive c = (.ok d, v)) :
    d.outlines = c.outlines := by
  have hmeets := derive_meets (I := fun _ => True) (E := fun _ => True) (M := fun _ => True)
    (fun _ _ _ _ _ => trivial) (fun _ _ _ _ _ _ _ => trivial) (w := w) (c := c)
    (fun _ _ => trivial) trivial
  exact hmeets.2.2 d (by rw [h])

end QueryCriteria
