import QueryCriteria.Proofs.CopyLogic
import QueryCriteria.Proofs.Soundness

namespace QueryCriteria

namespace Copying

def Course.extending : Course where
  reaches := Workspace.Extends
  keeps _ _ := True
  refuses _ := True
  refl := .refl
  trans := .trans

section Steps

variable {w : Workspace}

theorem extends_rename (w : Workspace) (id : CriteriaId) :
    Ensures .extending w (rename id) fun _ _ => True :=
  fun _ _ => ⟨.refl w, trivial, fun _ _ => trivial, fun _ _ => trivial⟩

theorem knows_copyNode {node : Node} (parent : Option CriteriaId) (h : w.Knows node.scope node.id) :
    Ensures .extending w (copyNode node parent) fun v copy => v.Knows copy.scope copy.id := by
  intro r _
  rcases hcreate : w.create node.scope node.entity.name parent with ⟨result, v⟩
  obtain ⟨hwv, hfresh⟩ := Workspace.create_spec hcreate
  simp only [copyNode, hcreate]
  cases result with
  | error e => exact ⟨hwv, trivial, fun _ _ => trivial, fun copy hcopy => by cases hcopy⟩
  | ok c =>
      refine ⟨hwv, trivial, fun _ _ => trivial, fun copy hcopy => ?_⟩
      obtain rfl := Except.ok.inj hcopy
      obtain ⟨entity, -, -, hknows⟩ := hfresh c rfl h.opened
      exact hknows

end Steps

theorem carries_sound : Carries .extending (fun w c => c.Sound w) (fun w p => p.Sound w)
    (fun w _ d => d.Sound w) fun w _ q => q.Sound w where
  criteria _ _ _ hwv hc := hc.grow hwv
  predicate _ _ _ hwv hp := hp.grow hwv
  criteriaCopy _ _ _ _ hwv hd := hd.grow hwv
  predicateCopy _ _ _ _ hwv hq := hq.grow hwv
  parts h := (sound_mk.mp h).2
  node h := by
    refine ensures_bind (ensures_rename? extends_rename _) fun v parent hwv _ => ?_
    refine (knows_copyNode parent (hwv.known _ _ (sound_mk.mp h).1)).imp fun v copy hcopy u qs ds hvu hqs hds => ?_
    exact sound_mk.mpr ⟨hvu.known _ _ hcopy, forall_of_forall₂ hqs, forall_of_forall₂ hds⟩
  test h := by
    obtain ⟨htarget, hfilled⟩ := sound_test.mp h
    refine ensures_bind (ensures_copyTest extends_rename hfilled fun _ _ _ => trivial) fun v copy _ hcopy => ?_
    exact ensures_bind (ensures_copyHead extends_rename _) fun _ new _ hnew =>
      ensures_pure (sound_test.mpr ⟨hnew ▸ htarget, hcopy⟩)
  existence h := ⟨sound_existence.mp h,
    (ensures_copyHead extends_rename _).imp fun _ _ _ _ hd => sound_existence.mpr hd⟩
  subquery h := by
    obtain ⟨htarget, hquery⟩ := sound_subquery.mp h
    exact ⟨hquery, (ensures_copyHead extends_rename _).imp fun _ _ hnew _ hd =>
      sound_subquery.mpr ⟨hnew ▸ htarget, hd⟩⟩
  nested h := ⟨sound_nested.mp h, (ensures_copyHead extends_rename _).imp fun _ _ _ _ hqs =>
    sound_nested.mpr (forall_of_forall₂ hqs)⟩

end Copying

namespace Workspace

theorem derive_spec {w v : Workspace} {c : Criteria} {result : Except CriteriaError Criteria}
    (hc : c.Sound w) (h : w.derive c = (result, v)) :
    w.Extends v ∧ ∀ d, result = .ok d → d.Sound v := by
  obtain ⟨hwv, -, -, hsound⟩ := Copying.carries_sound.copy.1 c w hc [] trivial
  obtain ⟨rfl, rfl⟩ := Prod.mk.inj h
  exact ⟨hwv, hsound⟩

end Workspace

end QueryCriteria
