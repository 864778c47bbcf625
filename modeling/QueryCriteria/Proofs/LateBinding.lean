import QueryCriteria.Proofs.LocalSessions

namespace QueryCriteria

open QueryCriteria.Model QueryCriteria.Text

mutual
def Predicate.branches : Predicate → List Predicate
  | .test head t => [.test head t]
  | .existence head negated query => [.existence head negated query]
  | .subquery head op query => [.subquery head op query]
  | .nested head negated children => .nested head negated children :: listBranches children

def listBranches : List Predicate → List Predicate
  | [] => []
  | p :: ps => p.branches ++ listBranches ps
end

theorem listBranches_eq_flatMap (ps : List Predicate) : listBranches ps = ps.flatMap Predicate.branches := by
  induction ps with
  | nil => rfl
  | cons p ps ih => simp [listBranches, ih]

theorem branches_nested (head : Predicate.Head) (negated : Bool) (children : List Predicate) :
    (Predicate.nested head negated children).branches =
      .nested head negated children :: children.flatMap Predicate.branches := by
  rw [Predicate.branches, listBranches_eq_flatMap]

theorem branches_bindOwner (id : CriteriaId) (p : Predicate) :
    (p.bindOwner id).branches = p.branches.map (Predicate.bindOwner id) := by
  revert p
  refine (tree_induction (C := fun _ => True) ?_ ?_ ?_ ?_ ?_).2
  case refine_5 =>
    intro head negated children hc
    have hlist := List.flatMap_congr hc
    rw [branches_nested, List.map_cons, List.map_flatMap, ← hlist, Predicate.bindOwner, branches_nested,
      bindOwners_eq_map, List.flatMap_map]
  case refine_1 => simp
  all_goals
    intros
    rfl

namespace Condition

def ownedBy (owner : Owner) (c : Condition) : Condition :=
  { c with head := { c.head with owner := some owner } }

variable {entities : EntityLookup} {owner : Owner} {head : Head} {body : Body} {c : Condition} {p q : Predicate}

theorem adopt_of_unowned (h : c.head.owner = none) : c.adopt owner = c.ownedBy owner := by
  simp [adopt, ownedBy, h]

theorem resolve_of_unowned {target : Target} (hnone : head.owner = none)
    (h : head.resolve entities = .ok target) :
    ({ head with owner := some owner } : Head).resolve entities = .ok target := by
  unfold Head.resolve at h ⊢
  rw [mapError_eq_ok] at h ⊢
  rw [hnone] at h
  cases hcolumn : head.column with
  | unset =>
      rw [hcolumn] at h
      cases h
  | raw sql =>
      rw [hcolumn] at h
      simpa [hcolumn, ColumnSpec.resolve] using h
  | property name =>
      rw [hcolumn] at h
      simp only [ColumnSpec.resolve, lookUp] at h
      split at h <;> cases h
  | primaryKey =>
      rw [hcolumn] at h
      cases h

theorem Forms.owned (hnone : head.owner = none) (h : Forms entities head body q) :
    Forms entities { head with owner := some owner } body q := by
  cases h with
  | test hresolve hasks => exact .test (resolve_of_unowned hnone hresolve) hasks
  | template hblank hcolumn =>
      refine .template hblank ?_
      unfold Head.templateColumn at hcolumn ⊢
      dsimp only
      split at hcolumn
      · next hunset => rwa [if_pos hunset]
      · next hset =>
        obtain ⟨target, htarget, rfl⟩ := map_eq_ok.mp hcolumn
        rw [if_neg hset]
        exact map_eq_ok.mpr ⟨target, resolve_of_unowned hnone htarget, rfl⟩
  | existence => exact .existence
  | subquery hresolve => exact .subquery (resolve_of_unowned hnone hresolve)
  | nested hne => exact .nested hne

theorem build_ownedBy (hnone : c.head.owner = none) (h : c.build entities = .ok p) :
    (c.ownedBy owner).build entities = .ok (p.bindOwner owner.id) := by
  obtain ⟨head, body⟩ := c
  obtain ⟨q, hforms, rfl⟩ := exists_forms_of_build h
  have hown : head.own q = q := by
    have hnone : head.owner = none := hnone
    simp [Head.own, hnone]
  rw [hown]
  exact build_of_forms (hforms.owned hnone)

theorem branches_of_forms (h : Forms entities head body q) :
    q.head.owner = none ∧
      ∀ asked, q.branches = q :: (⟨asked, body⟩ : Condition).children.flatMap Predicate.branches := by
  cases h with
  | test _ hasks => cases hasks <;> exact ⟨rfl, fun _ => rfl⟩
  | nested => exact ⟨rfl, fun _ => branches_nested ..⟩
  | _ => exact ⟨rfl, fun _ => rfl⟩

theorem owners_of_ownedBy (h : (c.ownedBy owner).build entities = .ok p) :
    (p.branches.map fun q => q.head.owner) =
      some owner.id :: (c.children.flatMap Predicate.branches).map fun q => q.head.owner <|> some owner.id := by
  obtain ⟨head, body⟩ := c
  obtain ⟨q, hforms, rfl⟩ := exists_forms_of_build h
  obtain ⟨hnone, hbranches⟩ := branches_of_forms hforms
  have hown : ({ head with owner := some owner } : Head).own q = q.bindOwner owner.id := rfl
  have hbound : ∀ r : Predicate, (r.bindOwner owner.id).head.owner = (r.head.owner <|> some owner.id) :=
    fun r => congrArg (·.owner) (Predicate.head_bindOwner owner.id r)
  rw [hown, branches_bindOwner, hbranches head, List.map_map, List.map_cons]
  simp only [Function.comp_def, hbound, hnone]
  rfl

end Condition

namespace Workspace

def addBuilt (w : Workspace) (c : Criteria) : Except Refusal Predicate → Option Criteria × Workspace
  | .ok p => w.add c (.built (.ok p))
  | .error (.skipped reason) => w.add c (.built (.error reason))
  | .error .unwritable => (none, w)

variable {w : Workspace} {c : Criteria} {b : Condition} {p : Predicate}

theorem add_built_ok (w : Workspace) (c : Criteria) (p : Predicate) :
    w.add c (.built (.ok p)) = (some (c.push p), w) :=
  rfl

theorem push_bindOwner (c : Criteria) (p : Predicate) : c.push (p.bindOwner c.id) = c.push p := by
  rw [Criteria.push, bindOwner_bindOwner, Criteria.push]

theorem add_eq_addBuilt (h : b.head.owner = none) :
    w.add c (.condition b) = w.addBuilt c ((b.ownedBy c.owner).build w.entities) := by
  simp only [add, Criteria.add, Condition.adopt_of_unowned h]
  rcases (b.ownedBy c.owner).build w.entities with (reason | _) | p <;> rfl

theorem add_unowned (h : b.head.owner = none) :
    w.add c (.condition b) = w.addBuilt c ((b.ownedBy c.owner).build w.entities) ∧
    (∀ p, b.build w.entities = .ok p →
      w.add c (.condition b) = w.addBuilt c (b.build w.entities) ∧
        w.add c (.condition b) = w.add c (.built (.ok p)) ∧
        (b.ownedBy c.owner).build w.entities = .ok (p.bindOwner c.id)) ∧
    (∀ reason, (b.ownedBy c.owner).build w.entities = .error (.skipped reason) →
      w.add c (.condition b) = (some c, w.record (.expressionSkipped reason))) ∧
    ∀ q, (b.ownedBy c.owner).build w.entities = .ok q →
      w.add c (.condition b) = (some (.mk c.node (c.predicates ++ [q]) c.joins), w) ∧
        (q.branches.map fun r => r.head.owner) =
          some c.id :: (b.children.flatMap Predicate.branches).map (fun r => r.head.owner <|> some c.id) ∧
        q.members = b.queries.flatMap Criteria.members ++ b.children.flatMap Predicate.members := by
  have hearly := add_eq_addBuilt (w := w) (c := c) h
  refine ⟨hearly, fun p hp => ?_, fun reason hreason => ?_, fun q hq => ?_⟩
  · have howned : (b.ownedBy c.owner).build w.entities = .ok (p.bindOwner c.id) :=
      Condition.build_ownedBy h hp
    have hlate : w.add c (.condition b) = w.add c (.built (.ok p)) := by
      rw [hearly, howned, addBuilt, add_built_ok, add_built_ok]
      exact congrArg (fun d => (some d, w)) (push_bindOwner c p)
    exact ⟨by rw [hp]; exact hlate, hlate, howned⟩
  · rw [hearly, hreason]
    rfl
  · have howners := Condition.owners_of_ownedBy hq
    have hmembers := members_build hq
    obtain ⟨form, -, rfl⟩ := Condition.exists_forms_of_build hq
    refine ⟨?_, howners, hmembers⟩
    rw [hearly, hq, addBuilt, add_built_ok, Criteria.push]
    exact congrArg (fun r => (some (Criteria.mk c.node (c.predicates ++ [r]) c.joins), w))
      (bindOwner_bindOwner c.id c.id form)

end Workspace

def Predicate.vacant (owner : Option CriteriaId) : Predicate :=
  .test { owner, matched := .immediate, target := some (.raw "closed_at") } (.nullable .isNull)

def Condition.mixed : Condition where
  head := {}
  body := .nested false [.vacant (some ⟨1⟩), .vacant none, .nested {} true [.vacant (some ⟨2⟩), .vacant none]]

def parcel : Entity :=
  { name := "Parcel", table := "parcels", columns := [{ name := "placed_at", property := "placed" }] }

theorem mixed_added :
    let w := ((Workspace.openScope {} {} { entities := [parcel] }).2.createRoot ⟨0⟩ "Parcel").2
    let c := Criteria.fresh ⟨0⟩ ⟨0⟩ parcel none
    let unplaced : Condition := { head := { column := .property "placed" }, body := .nullable .isNull }
    (∃ p q, Condition.mixed.build w.entities = .ok p ∧
      w.add c (.condition .mixed) = w.add c (.built (.ok p)) ∧
      w.add c (.condition .mixed) = (some (.mk c.node [q] []), w) ∧
      (q.branches.map fun r => r.head.owner) =
        [some ⟨0⟩, some ⟨1⟩, some ⟨0⟩, some ⟨0⟩, some ⟨2⟩, some ⟨0⟩]) ∧
      unplaced.build w.entities = .error (.skipped (.missingOwner "placed")) ∧
      ∃ q, w.add c (.condition unplaced) = (some (.mk c.node [q] []), w) ∧
        (q.branches.map fun r => r.head.owner) = [some ⟨0⟩] := by
  intro w c unplaced
  obtain ⟨-, hlate, -, hmixed⟩ := Workspace.add_unowned (w := w) (c := c) (b := .mixed) rfl
  obtain ⟨-, hbuilt, howned⟩ := hlate _ rfl
  obtain ⟨hadded, howners, -⟩ := hmixed _ howned
  obtain ⟨-, -, -, hunplaced⟩ := Workspace.add_unowned (w := w) (c := c) (b := unplaced) rfl
  obtain ⟨hfound, howner, -⟩ := hunplaced _ rfl
  exact ⟨⟨_, _, rfl, hbuilt, hadded, howners⟩, rfl, _, hfound, howner⟩

end QueryCriteria
