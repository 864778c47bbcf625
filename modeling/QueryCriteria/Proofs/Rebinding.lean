import QueryCriteria.Proofs.CopyTrail
import QueryCriteria.Proofs.Modelled
import QueryCriteria.Proofs.Session

namespace QueryCriteria

open Visit (nodes follow replay)

theorem Renaming.apply_cons (r : Renaming) (id copy other : CriteriaId) :
    Renaming.apply ((id, copy) :: r) other = if other = id then copy else r.apply other := by
  by_cases h : other = id
  · simp [Renaming.apply, h]
  · simp [Renaming.apply, List.lookup_cons, beq_false_of_ne h, h]

namespace Visit

theorem apply_follow_of_notMem {t : List Visit} {id : CriteriaId} (h : id ∉ nodes t) (r : Renaming)
    (next : Nat) : (follow r next t).apply id = r.apply id := by
  induction t generalizing r next with
  | nil => rfl
  | cons v t ih =>
      cases v with
      | node other =>
          obtain ⟨hne, ht⟩ := not_or.mp (mt List.mem_cons.mpr h)
          rw [follow, ih ht, Renaming.apply_cons, if_neg hne]
      | parent other => exact ih h r next
      | handle other => exact ih h r next

theorem map_apply_follow {t : List Visit} (h : (nodes t).Nodup) (r : Renaming) (next : Nat) :
    (nodes t).map (follow r next t).apply =
      (List.range' next (nodes t).length).map CriteriaId.mk := by
  induction t generalizing r next with
  | nil => rfl
  | cons v t ih =>
      cases v with
      | node id =>
          rw [nodes_node] at h ⊢
          obtain ⟨hid, ht⟩ := List.nodup_cons.mp h
          rw [follow, List.map_cons, apply_follow_of_notMem hid, Renaming.apply_cons, if_pos rfl, ih ht,
            List.length_cons, List.range'_succ, List.map_cons]
      | parent id => exact ih h r next
      | handle id => exact ih h r next

theorem le_index_apply_follow {t : List Visit} (h : (nodes t).Nodup) (r : Renaming) (next : Nat)
    {id : CriteriaId} (hid : id ∈ nodes t) :
    next ≤ ((follow r next t).apply id).index ∧
      ((follow r next t).apply id).index < next + (nodes t).length := by
  have hmem : (follow r next t).apply id ∈ (nodes t).map (follow r next t).apply :=
    List.mem_map_of_mem hid
  rw [map_apply_follow h] at hmem
  obtain ⟨index, hindex, heq⟩ := List.mem_map.mp hmem
  rw [← heq]
  exact List.mem_range'_1.mp hindex

section Relabel

variable (r : CriteriaId → CriteriaId) (id : CriteriaId)

@[simp]
theorem relabel_all_node : relabel (.all r) (.node id) = .node (r id) := rfl

@[simp]
theorem relabel_all_parent : relabel (.all r) (.parent id) = .parent (r id) := rfl

@[simp]
theorem relabel_all_handle : relabel (.all r) (.handle id) = .handle (r id) := rfl

theorem map_relabel_identity (t : List Visit) : t.map (relabel (.all fun id => id)) = t := by
  have hsame : relabel (.all fun id => id) = fun v => v := by
    funext v
    cases v <;> rfl
  rw [hsame, List.map_id']

end Relabel

def Settled (visit : CriteriaId → Visit) (t : List Visit) : Prop :=
  ∀ before id after, t = before ++ visit id :: after → id ∉ nodes after

theorem settled_nil (visit : CriteriaId → Visit) : Settled visit [] := by
  intro before id after h
  simp at h

theorem settled_cons {visit : CriteriaId → Visit} {v : Visit} {t : List Visit} :
    Settled visit (v :: t) ↔ (∀ id, v = visit id → id ∉ nodes t) ∧ Settled visit t := by
  constructor
  · intro h
    refine ⟨fun id hv => h [] id t (by simp [hv]), fun before id after ht => ?_⟩
    exact h (v :: before) id after (by simp [ht])
  · rintro ⟨hv, ht⟩ before id after heq
    cases before with
    | nil =>
        obtain ⟨rfl, rfl⟩ := List.cons.inj heq
        exact hv id rfl
    | cons first before => exact ht before id after (List.cons.inj heq).2

structure Ahead (r : Renaming) (next : Nat) (t : List Visit) : Prop where
  nodup : (nodes t).Nodup
  registered : ∀ id ∈ nodes t, id.index < next
  uncopied : ∀ id ∈ nodes t, r.apply id = id
  fresh : ∀ id : CriteriaId, next ≤ id.index → r.apply id = id

namespace Ahead

variable {r : Renaming} {next : Nat} {t : List Visit} {id : CriteriaId}

theorem start (hnodup : (nodes t).Nodup) (hregistered : ∀ id ∈ nodes t, id.index < next) :
    Ahead [] next t where
  nodup := hnodup
  registered := hregistered
  uncopied _ _ := rfl
  fresh _ _ := rfl

theorem node (h : Ahead r next (.node id :: t)) : Ahead ((id, ⟨next⟩) :: r) (next + 1) t := by
  obtain ⟨hid, ht⟩ := List.nodup_cons.mp h.nodup
  have hregistered := List.forall_mem_cons.mp h.registered
  refine ⟨ht, fun other hother => ?_, fun other hother => ?_, fun other hother => ?_⟩
  · exact Nat.lt_succ_of_lt (hregistered.2 other hother)
  · have hne : other ≠ id := by
      rintro rfl
      exact hid hother
    rw [Renaming.apply_cons, if_neg hne]
    exact h.uncopied other (List.mem_cons_of_mem _ hother)
  · have hne : other ≠ id := by
      rintro rfl
      have hlt := hregistered.1
      omega
    rw [Renaming.apply_cons, if_neg hne]
    exact h.fresh other (Nat.le_of_succ_le hother)

theorem apply_copied (h : Ahead r next (.node id :: t)) :
    (follow ((id, ⟨next⟩) :: r) (next + 1) t).apply id = ⟨next⟩ := by
  have hid := (List.nodup_cons.mp h.nodup).1
  rw [apply_follow_of_notMem hid, Renaming.apply_cons, if_pos rfl]

theorem apply_copy (h : Ahead r next (.node id :: t)) :
    (follow ((id, ⟨next⟩) :: r) (next + 1) t).apply ⟨next⟩ = ⟨next⟩ := by
  obtain ⟨hid, ht⟩ := List.forall_mem_cons.mp h.registered
  have hne : (⟨next⟩ : CriteriaId) ≠ id := by
    rintro rfl
    exact Nat.lt_irrefl _ hid
  have hlater : (⟨next⟩ : CriteriaId) ∉ nodes t := fun hmem => Nat.lt_irrefl _ (ht _ hmem)
  rw [apply_follow_of_notMem hlater, Renaming.apply_cons, if_neg hne]
  exact h.fresh _ (Nat.le_refl next)

theorem read (h : Ahead r next t) {u : List Visit} (hu : nodes t = nodes u) :
    Ahead r next u := by
  obtain ⟨hnodup, hregistered, huncopied, hfresh⟩ := h
  rw [hu] at hnodup hregistered huncopied
  exact ⟨hnodup, hregistered, huncopied, hfresh⟩

theorem apply_eq_iff (h : Ahead r next t) :
    r.apply id = (follow r next t).apply id ↔ id ∉ nodes t := by
  constructor
  · intro heq hid
    have hfresh := (le_index_apply_follow h.nodup r next hid).1
    rw [← heq, h.uncopied id hid] at hfresh
    exact absurd (h.registered id hid) (Nat.not_lt.mpr hfresh)
  · intro hid
    rw [apply_follow_of_notMem hid]

theorem replay_eq_iff (h : Ahead r next t) :
    replay r next t = t.map (relabel (.all (follow r next t).apply)) ↔
      Settled .handle t ∧ Settled .parent t := by
  -- Along the trail the renaming grows: `Ahead` says that it knows nothing yet of what is still to come.
  induction t generalizing r next with
  | nil => simp [replay, Settled]
  | cons v t ih =>
      rw [settled_cons, settled_cons]
      cases v with
      | node id =>
          simp [replay, follow, h.apply_copied, ih h.node]
      | parent id =>
          have htail := h.read (u := t) rfl
          simp [replay, follow, htail.apply_eq_iff, ih htail]
          tauto
      | handle id =>
          have htail := h.read (u := t) rfl
          simp [replay, follow, htail.apply_eq_iff, ih htail]
          tauto

theorem replay_of_settled (h : Ahead r next t) (hsettled : Settled .handle t)
    (g : CriteriaId → CriteriaId) (hg : ∀ id id', g id = g id') :
    (replay r next t).map (relabel ⟨fun id => id, g⟩) =
      t.map (relabel ⟨(follow r next t).apply, g⟩) := by
  induction t generalizing r next with
  | nil => rfl
  | cons v t ih =>
      obtain ⟨hv, ht⟩ := settled_cons.mp hsettled
      cases v with
      | node id =>
          simp [replay, follow, relabel, h.apply_copied, ih h.node ht]
      | parent id =>
          have htail := h.read (u := t) rfl
          simp [replay, follow, relabel, ih htail ht, hg (r.apply id) id]
      | handle id =>
          have htail := h.read (u := t) rfl
          simp [replay, follow, relabel, htail.apply_eq_iff.mpr (hv id rfl), ih htail ht]

theorem replay_renamed (h : Ahead r next t)
    (hr : ∀ id, (follow r next t).apply (r.apply id) = (follow r next t).apply id) :
    (replay r next t).map (relabel (.all (follow r next t).apply)) =
      t.map (relabel (.all (follow r next t).apply)) := by
  induction t generalizing r next with
  | nil => rfl
  | cons v t ih =>
      cases v with
      | node id =>
          have hcopied := ih h.node fun other => by
            rw [Renaming.apply_cons]
            split
            next heq => rw [heq, h.apply_copy, h.apply_copied]
            next => exact hr other
          simp [replay, follow, h.apply_copied, h.apply_copy, hcopied]
      | parent id =>
          have hr : ∀ id, (follow r next t).apply (r.apply id) = (follow r next t).apply id := hr
          simpa [replay, follow, hr] using ih (h.read (u := t) rfl) hr
      | handle id =>
          have hr : ∀ id, (follow r next t).apply (r.apply id) = (follow r next t).apply id := hr
          simpa [replay, follow, hr] using ih (h.read (u := t) rfl) hr

end Ahead

end Visit

namespace Criteria

def copyOf (c : Criteria) (next : Nat) : CriteriaId → CriteriaId :=
  (follow [] next c.trail).apply

structure Registered (size : Nat) (c : Criteria) : Prop where
  scope : ∀ m ∈ c.members, m.scope = c.scope
  ids : (c.members.map Criteria.id).Nodup
  known : ∀ m ∈ c.members, m.id.index < size

variable {c : Criteria} {size : Nat}

theorem mem_nodes_trail {id : CriteriaId} : id ∈ nodes c.trail ↔ id ∈ c.members.map Criteria.id :=
  (nodes_trail_perm.1 c).mem_iff

theorem Registered.ahead (h : Registered size c) : Visit.Ahead [] size c.trail := by
  refine .start ((nodes_trail_perm.1 c).nodup_iff.mpr h.ids) fun id hid => ?_
  obtain ⟨m, hm, rfl⟩ := List.mem_map.mp (mem_nodes_trail.mp hid)
  exact h.known m hm

theorem Registered.fresh (h : Registered size c) {m : Criteria} (hm : m ∈ c.members) :
    size ≤ (c.copyOf size m.id).index ∧
      (c.copyOf size m.id).index < size + c.members.length := by
  have hmem := mem_nodes_trail.mpr (List.mem_map_of_mem hm)
  have hbounds := Visit.le_index_apply_follow h.ahead.nodup [] size hmem
  rwa [(nodes_trail_perm.1 c).length_eq, List.length_map] at hbounds

theorem Registered.nodup (h : Registered size c) :
    (c.members.map fun m => c.copyOf size m.id).Nodup := by
  have hperm := (nodes_trail_perm.1 c).map (c.copyOf size)
  rw [List.map_map] at hperm
  refine hperm.nodup_iff.mp ?_
  rw [copyOf, Visit.map_apply_follow h.ahead.nodup]
  exact List.Nodup.map (fun _ _ heq => CriteriaId.mk.inj heq) List.nodup_range'

theorem copyOf_of_notMem {id : CriteriaId} (h : id ∉ c.members.map Criteria.id) :
    c.copyOf size id = id :=
  Visit.apply_follow_of_notMem (mt mem_nodes_trail.mp h) [] size

end Criteria

namespace Workspace

variable {w v : Workspace} {c d : Criteria}

theorem holds_of_each (hscope : ∀ m ∈ c.members, m.scope = c.scope) (hmodels : c.Each w.Models) :
    ∀ m ∈ c.members, m.scope = c.scope ∧ (w.scope c.scope).registry.Holds m.node.entity := by
  intro m hm
  have hnode : m.node.scope = c.scope := hscope m hm
  exact ⟨hnode, hnode ▸ hmodels m hm⟩

theorem exists_derive (hopen : c.scope.index < w.scopes.length)
    (hscope : ∀ m ∈ c.members, m.scope = c.scope) (hmodels : c.Each w.Models)
    (hfree : (w.scope c.scope).frozen = false)
    (hroom : (w.scope c.scope).size + c.members.length ≤ Scope.capacity) :
    ∃ d v, w.derive c = (.ok d, v) := by
  have hcount : (nodes c.trail).length = c.members.length := by
    rw [(nodes_trail_perm.1 c).length_eq, List.length_map]
  obtain ⟨htotal, -⟩ := Copying.tracks_copy.1 c (holds_of_each hscope hmodels) w [] hopen rfl
  obtain ⟨d, hd⟩ := htotal hfree (hcount ▸ hroom)
  exact ⟨d, _, Prod.ext hd rfl⟩

theorem derive_eq_ok (hopen : c.scope.index < w.scopes.length)
    (hscope : ∀ m ∈ c.members, m.scope = c.scope) (hmodels : c.Each w.Models)
    (h : w.derive c = (.ok d, v)) :
    Grown c.scope c.members.length w v ∧
      Copying.Matches Criteria.relabel c.trail c (replay [] (w.scope c.scope).size c.trail) d := by
  have hcount : (nodes c.trail).length = c.members.length := by
    rw [(nodes_trail_perm.1 c).length_eq, List.length_map]
  obtain ⟨-, hspec⟩ := Copying.tracks_copy.1 c (holds_of_each hscope hmodels) w [] hopen rfl
  obtain ⟨hresult, hstate⟩ := Prod.mk.inj h
  obtain ⟨-, hgrown, hmatches⟩ := hspec d v _ (Prod.ext hresult (Prod.ext hstate rfl))
  exact ⟨hcount ▸ hgrown, hmatches⟩

end Workspace

def Criteria.RefersBack (c : Criteria) : Prop :=
  Visit.Settled .handle c.trail ∧ Visit.Settled .parent c.trail

theorem Criteria.Registered.copyOf_notMem {c : Criteria} {size : Nat} (h : c.Registered size)
    (id : CriteriaId) : c.copyOf size id ∉ c.members.map Criteria.id := by
  intro hmem
  obtain ⟨m, hm, heq⟩ := List.mem_map.mp hmem
  by_cases hid : id ∈ c.members.map Criteria.id
  · obtain ⟨n, hn, rfl⟩ := List.mem_map.mp hid
    have hfresh := (h.fresh hn).1
    have hknown := h.known m hm
    rw [← heq] at hfresh
    omega
  · rw [Criteria.copyOf_of_notMem hid] at hmem
    exact hid hmem

theorem derive_rebinds {S : Session} (hS : S.Reachable) {c d : Criteria} (hc : c ∈ S.criteria)
    (hscope : ∀ m ∈ c.members, m.scope = c.scope) (hids : (c.members.map Criteria.id).Nodup)
    {w : Workspace} (h : S.workspace.derive c = (.ok d, w)) :
    ∃ r : CriteriaId → CriteriaId,
      (c.members.map fun m => r m.id).Nodup ∧
        (∀ m ∈ c.members, ¬ S.workspace.Knows c.scope (r m.id) ∧ w.Knows c.scope (r m.id)) ∧
        (∀ id, id ∉ c.members.map Criteria.id → r id = id) ∧
        d.relabel (.all r) = c.relabel (.all r) ∧
        (d = c.relabel (.all r) ↔ c.RefersBack) ∧
        (c.RefersBack → ∀ visit ∈ d.trail, visit.id ∉ c.members.map Criteria.id) := by
  have hsound := (Session.sound_of_reachable hS).criteria c hc
  have hopen := (hsound.known c c.self_mem_members).opened
  let size := (S.workspace.scope c.scope).size
  have hregistered : c.Registered size :=
    { scope := hscope
      ids := hids
      known := fun m hm => by
        have hknows := hsound.known m hm
        rw [hscope m hm, Workspace.Knows, Scope.isSome_slot?] at hknows
        exact of_decide_eq_true hknows }
  have hmodels := Session.models_of_reachable hS hc
  obtain ⟨hgrown, hmatches⟩ := Workspace.derive_eq_ok hopen hscope hmodels h
  have hahead := hregistered.ahead
  have hiff : d = c.relabel (.all (c.copyOf size)) ↔ c.RefersBack := by
    have hreplay := hmatches.relabel (.all fun id => id) (.all (c.copyOf size))
    rwa [relabel_identity.1, Visit.map_relabel_identity, Criteria.copyOf, hahead.replay_eq_iff] at hreplay
  refine ⟨c.copyOf size, hregistered.nodup, fun m hm => ?_, fun id hid => Criteria.copyOf_of_notMem hid,
    ?_, hiff, ?_⟩
  · obtain ⟨hfresh, hroom⟩ := hregistered.fresh hm
    have hsize := hgrown.size
    simp only [Workspace.Knows, Scope.isSome_slot?, decide_eq_true_eq]
    omega
  · exact (hmatches.relabel _ _).mpr (hahead.replay_renamed fun id => rfl)
  · intro hback visit hvisit
    rw [hiff.mpr hback, (trail_relabel _).1] at hvisit
    obtain ⟨before, -, rfl⟩ := List.mem_map.mp hvisit
    cases before <;> exact hregistered.copyOf_notMem _

def wagon : Model.Entity :=
  { name := "Wagon", table := "wagons", columns := [{ name := "track", property := "track" }] }

def yard : Session :=
  { workspace := (Workspace.openScope {} {} { entities := [wagon] }).2 }

def shunt (S : Session) : Session :=
  S.taking (S.workspace.create ⟨0⟩ "Wagon" none)

def lone (index : Nat) : Criteria :=
  .fresh ⟨0⟩ ⟨index⟩ wagon none

def coupled (index other : Nat) : Criteria :=
  (lone index).push
    (.test { owner := some ⟨index⟩, matched := .standard,
             target := some (.resolved { name := "track", property := "track" }) }
      (.columnEqual ⟨⟨other⟩, none, .resolved { name := "track", property := "track" }⟩))

def train : Criteria :=
  ((lone 0).join (coupled 1 2)).join (coupled 2 0)

def siding : Session :=
  ((((shunt (shunt (shunt yard))).holding (coupled 1 2)).holding (coupled 2 0)).holding
    ((lone 0).join (coupled 1 2))).holding train

theorem reachable_siding : siding.Reachable := by
  have hyard : yard.Reachable := .single (.openScope {} { entities := [wagon] })
  have hthree : (shunt (shunt (shunt yard))).Reachable :=
    ((hyard.tail (.create "Wagon" none (by decide))).tail (.create "Wagon" none (by decide))).tail
      (.create "Wagon" none (by decide))
  have hcriteria : (shunt (shunt (shunt yard))).criteria = [lone 2, lone 1, lone 0] := rfl
  have hone : ((shunt (shunt (shunt yard))).holding (coupled 1 2)).Reachable := by
    have hadd : (shunt (shunt (shunt yard))).workspace.add (lone 1)
        (.condition (.equalsProperty .and "track" (lone 2) "track")) =
          (some (coupled 1 2), (shunt (shunt (shunt yard))).workspace) := rfl
    exact hthree.tail (.add (by simp [hcriteria]) (List.nil_subset _) (List.nil_subset _) hadd)
  have htwo : (((shunt (shunt (shunt yard))).holding (coupled 1 2)).holding (coupled 2 0)).Reachable := by
    have hadd : (shunt (shunt (shunt yard))).workspace.add (lone 2)
        (.condition (.equalsProperty .and "track" (lone 0) "track")) =
          (some (coupled 2 0), (shunt (shunt (shunt yard))).workspace) := rfl
    exact hone.tail (.add (by simp [Session.holding, hcriteria]) (List.nil_subset _)
      (List.nil_subset _) hadd)
  have hjoined : ((((shunt (shunt (shunt yard))).holding (coupled 1 2)).holding (coupled 2 0)).holding
      ((lone 0).join (coupled 1 2))).Reachable :=
    htwo.tail (.join (by simp [Session.holding, hcriteria]) (by simp [Session.holding]))
  exact hjoined.tail (.join (by simp [Session.holding]) (by simp [Session.holding]))

theorem train_uncoupled :
    ∃ d w r, siding.workspace.derive train = (.ok d, w) ∧ d.relabel (.all r) = train.relabel (.all r) ∧
      .handle ⟨2⟩ ∈ d.trail := by
  obtain ⟨r, -, -, -, hrelabel, -⟩ := derive_rebinds reachable_siding (c := train)
    List.mem_cons_self (by decide) (by decide) rfl
  exact ⟨_, _, r, rfl, hrelabel, by decide⟩

theorem train_not_rebound :
    ∃ d w, siding.workspace.derive train = (.ok d, w) ∧
      ¬ ∃ r : CriteriaId → CriteriaId,
        (∀ m ∈ train.members, ¬ siding.workspace.Knows ⟨0⟩ (r m.id)) ∧ d = train.relabel (.all r) := by
  refine ⟨_, _, rfl, ?_⟩
  rintro ⟨r, hfresh, heq⟩
  have htrail := congrArg Criteria.trail heq
  rw [(trail_relabel _).1] at htrail
  have hthird : some (Visit.handle ⟨2⟩) = some (.handle (r ⟨2⟩)) := congrArg (fun t => t[2]?) htrail
  have hsame : r ⟨2⟩ = ⟨2⟩ := (Visit.handle.inj (Option.some.inj hthird)).symm
  have hmember : coupled 2 0 ∈ train.members := by
    have hmembers : train.members = [train, coupled 1 2, coupled 2 0] := rfl
    simp [hmembers]
  have hunknown := hfresh _ hmember
  rw [show (coupled 2 0).id = ⟨2⟩ from rfl, hsame] at hunknown
  exact hunknown rfl

end QueryCriteria
