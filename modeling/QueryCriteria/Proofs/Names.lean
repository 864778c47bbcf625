import Mathlib.Data.List.Nodup
import QueryCriteria.Scope.Names
import Std.Data.String.ToNat

namespace QueryCriteria.NumberedNames

theorem name_inj {stem : String} {m n : UInt64} (h : name stem m = name stem n) : m = n := by
  have hlist := congrArg String.toList h
  simp only [name, String.toList_append, List.append_cancel_left_eq] at hlist
  have hrepr : m.toNat.repr = n.toNat.repr := String.toList_inj.mp hlist
  exact UInt64.toNat.inj (Nat.repr_injective hrepr)

theorem drawFreeWithin_succ (taken : NameSet) (fuel : Nat) (ns : NumberedNames) :
    drawFreeWithin taken (fuel + 1) ns =
      if taken.has ns.draw.1 then drawFreeWithin taken fuel ns.draw.2 else ns.draw := rfl

@[simp]
theorem stem_drawFree (taken : NameSet) (ns : NumberedNames) : (drawFree taken ns).2.stem = ns.stem := by
  unfold drawFree
  generalize taken.entries.length = fuel
  induction fuel generalizing ns with
  | zero => rfl
  | succ fuel ih =>
      rw [drawFreeWithin_succ]
      by_cases htaken : taken.has ns.draw.1 = true
      · rw [if_pos htaken]
        exact ih ns.draw.2
      · rw [if_neg htaken]
        rfl

theorem drawMany_append (ns : NumberedNames) (m n : Nat) :
    (drawMany (m + n) ns).1 = (drawMany m ns).1 ++ (drawMany n (ns.advance m)).1 := by
  induction m generalizing ns with
  | zero => simp [drawMany]
  | succ m ih =>
      rw [Nat.succ_add, drawMany, drawMany]
      simp only [draw, ih, advance_advance, List.cons_append, Nat.add_comm 1]

theorem drawMany_eq_map (count : Nat) (ns : NumberedNames) :
    (drawMany count ns).1 =
      (List.range count).map fun i => name ns.stem (ns.issued + UInt64.ofNat (i + 1)) := by
  induction count with
  | zero => rfl
  | succ count ih =>
      rw [drawMany_append ns count 1, ih, List.range_succ, List.map_append]
      simp [drawMany, draw, advance, UInt64.add_assoc]

theorem toNat_ofNat_add (issued : UInt64) {i : Nat} (h : issued.toNat + i < UInt64.size) :
    (issued + UInt64.ofNat i).toNat = issued.toNat + i := by
  have hi : i < UInt64.size := by omega
  rw [UInt64.toNat_add, UInt64.toNat_ofNat_of_lt' hi]
  exact Nat.mod_eq_of_lt h

theorem nodup_drawMany {count : Nat} {ns : NumberedNames} (h : ns.issued.toNat + count < UInt64.size) :
    (drawMany count ns).1.Nodup := by
  rw [drawMany_eq_map]
  refine List.Nodup.map_on ?_ List.nodup_range
  intro i hi j hj hij
  have hi := List.mem_range.mp hi
  have hj := List.mem_range.mp hj
  have hnumber := congrArg UInt64.toNat (name_inj hij)
  rw [toNat_ofNat_add _ (by omega), toNat_ofNat_add _ (by omega)] at hnumber
  omega

theorem drawMany_eq_numbered {count : Nat} {ns : NumberedNames}
    (h : ns.issued.toNat + count < UInt64.size) :
    (drawMany count ns).1 =
      (List.range count).map fun i => ns.stem ++ toString (ns.issued.toNat + (i + 1)) := by
  rw [drawMany_eq_map]
  refine List.map_congr_left fun i hi => ?_
  have hi := List.mem_range.mp hi
  rw [name, toNat_ofNat_add _ (by omega)]

theorem disjoint_drawMany {m n : Nat} {ns : NumberedNames}
    (h : ns.issued.toNat + (m + n) < UInt64.size) :
    (drawMany m ns).1.Disjoint (drawMany n (ns.advance m)).1 := by
  have hnodup := nodup_drawMany h
  rw [drawMany_append] at hnodup
  exact List.disjoint_of_nodup_append hnodup

end QueryCriteria.NumberedNames
