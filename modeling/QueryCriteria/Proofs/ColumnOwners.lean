import QueryCriteria.Proofs.Rendering

namespace QueryCriteria

open Fragment

def Criteria.columnOwners (c : Criteria) : List CriteriaId :=
  c.gather (fun c => [c.id]) fun p => p.head.owner.toList

theorem columnOwners_subset_named (c : Criteria) : c.columnOwners ⊆ c.named := by
  intro id hid
  rw [named_eq_gather, mem_gather.1]
  rcases mem_gather.1 c |>.mp hid with hmember | ⟨p, hp, hid⟩
  · exact .inl hmember
  · exact .inr ⟨p, hp, List.mem_append_left _ hid⟩

namespace Fragment

def decider? : Fragment → Option CriteriaId
  | .keyword _ use => if use.correlated then none else some use.owner
  | .column use => if use.correlated then none else some use.owner
  | _ => none

theorem owner?_of_decider? {f : Fragment} : ∀ id ∈ f.decider?, id ∈ f.owner? := by
  have hcolumn : ∀ use : ColumnUse, ∀ id ∈ if use.correlated then none else some use.owner,
      id ∈ some use.owner := by
    intro use id hid
    cases hcorrelated : use.correlated <;> simp_all
  intro id hid
  cases f with
  | keyword text use => exact hcolumn use id hid
  | column use => exact hcolumn use id hid
  | _ => cases hid

theorem granted_decider? : Granted decider? fun p => p.head.owner.toList where
  owned _ _ hid := owner?_of_decider? _ hid
  keyword _ _ := rfl
  owner p id hid := Option.mem_toList.mpr hid
  test enclosing head t := by
    have howner : head.owner.getD enclosing ∈ enclosing :: head.owner.toList := by
      cases head.owner <;> simp
    unfold predicateFragment
    split
    · simp [Within, decider?]
    · cases t with
      | columnEqual other => simp [testFragments, Within, decider?]
      | _ =>
          intro f hf id hid
          exact (inner_testFragments howner (by simp [Test.handles])).ownedBy f hf id (owner?_of_decider? id hid)

theorem piece_congr {ctx ctx' : Context} {f : Fragment} (halias : ∀ id ∈ f.owner?, ctx.alias? id = ctx'.alias? id)
    (hqualifies : ∀ id ∈ f.decider?, ctx.qualifies id = ctx'.qualifies id) : f.piece ctx = f.piece ctx' := by
  have hcolumn : ∀ use : ColumnUse, ctx.alias? use.owner = ctx'.alias? use.owner →
      (∀ id ∈ (Fragment.column use).decider?, ctx.qualifies id = ctx'.qualifies id) →
        use.text ctx = use.text ctx' := by
    intro use hown hdecided
    have hneeds : use.needsOwner ctx = use.needsOwner ctx' := by
      cases hcorrelated : use.correlated with
      | true => simp [ColumnUse.needsOwner, hcorrelated]
      | false =>
          have hsame := hdecided use.owner (by simp [decider?, hcorrelated])
          simp only [ColumnUse.needsOwner, hsame]
    simp only [ColumnUse.text, ColumnUse.qualifier?, hneeds, hown]
  cases f with
  | keyword text use => simp only [piece, hcolumn use (halias use.owner rfl) hqualifies]
  | column use => simp only [piece, hcolumn use (halias use.owner rfl) hqualifies]
  | source id table => simp only [piece, halias id rfl]
  | lead connective => cases connective <;> rfl
  | _ => rfl

end Fragment

theorem pieces_congr {ctx ctx' : Context} {c : Criteria} (halias : ∀ id ∈ c.named, ctx.alias? id = ctx'.alias? id)
    (hqualifies : ∀ id ∈ c.columnOwners, ctx.qualifies id = ctx'.qualifies id) (existenceOnly : Bool) :
    (draft existenceOnly c).map (piece ctx) = (draft existenceOnly c).map (piece ctx') := by
  have hdecided := (granted_decider?.of_draft.1 c).1 existenceOnly
  exact Clauses.map_congr fun f hf => piece_congr
    (fun id hid => halias id (ownedBy_draft c existenceOnly f hf id hid))
    fun id hid => hqualifies id (hdecided f hf id hid)

end QueryCriteria
