import QueryCriteria.Proofs.FreshAliases

namespace QueryCriteria

theorem NameSet.mem_names_of_has {taken : NameSet} {name : String} (h : taken.has name = true) :
    name ∈ taken.names := by
  obtain ⟨entries⟩ := taken
  simp only [NameSet.has, NameMap.get?, NameMap.names] at h ⊢
  induction entries with
  | nil => cases h
  | cons entry rest ih =>
      rw [List.map_cons, List.mem_cons]
      by_cases heq : name = entry.1
      · exact .inl heq
      · rw [List.lookup_cons, beq_eq_false_iff_ne.mpr heq] at h
        exact .inr (ih h)

namespace NumberedNames

def searchWithin (taken : NameSet) : Nat → NumberedNames → Nat
  | 0, _ => 1
  | fuel + 1, ns => if taken.has ns.draw.1 then searchWithin taken fuel ns.draw.2 + 1 else 1

def searchLength (taken : NameSet) (ns : NumberedNames) : Nat :=
  searchWithin taken taken.entries.length ns

theorem searchWithin_pos (taken : NameSet) (fuel : Nat) (ns : NumberedNames) :
    0 < searchWithin taken fuel ns := by
  cases fuel with
  | zero => exact Nat.one_pos
  | succ fuel =>
      rw [searchWithin]
      split
      · exact Nat.succ_pos _
      · exact Nat.one_pos

theorem searchLength_pos (taken : NameSet) (ns : NumberedNames) : 0 < searchLength taken ns :=
  searchWithin_pos taken taken.entries.length ns

theorem name_draw (ns : NumberedNames) (i : Nat) :
    name ns.draw.2.stem (ns.draw.2.issued + UInt64.ofNat i) =
      name ns.stem (ns.issued + UInt64.ofNat (i + 1)) := by
  simp [draw, advance, UInt64.add_assoc, UInt64.add_comm 1]

theorem drawFreeWithin_eq (taken : NameSet) (fuel : Nat) (ns : NumberedNames) :
    drawFreeWithin taken fuel ns =
      (name ns.stem (ns.issued + UInt64.ofNat (searchWithin taken fuel ns)),
        ns.advance (searchWithin taken fuel ns)) := by
  induction fuel generalizing ns with
  | zero => rfl
  | succ fuel ih =>
      rw [drawFreeWithin_succ, searchWithin]
      split
      · rw [ih, name_draw]
        simp [draw, advance_advance, Nat.add_comm 1]
      · rfl

theorem drawFree_eq (taken : NameSet) (ns : NumberedNames) :
    drawFree taken ns =
      (name ns.stem (ns.issued + UInt64.ofNat (searchLength taken ns)),
        ns.advance (searchLength taken ns)) :=
  drawFreeWithin_eq taken taken.entries.length ns

theorem taken_of_lt_searchWithin {taken : NameSet} {fuel i : Nat} {ns : NumberedNames} (hi : 0 < i)
    (h : i < searchWithin taken fuel ns) :
    taken.has (name ns.stem (ns.issued + UInt64.ofNat i)) = true := by
  induction fuel generalizing ns i with
  | zero =>
      rw [searchWithin] at h
      omega
  | succ fuel ih =>
      rw [searchWithin] at h
      split at h
      · next htaken =>
        obtain ⟨j, rfl⟩ := Nat.exists_eq_succ_of_ne_zero (Nat.ne_of_gt hi)
        cases j with
        | zero => exact htaken
        | succ j =>
            rw [← name_draw]
            exact ih (Nat.succ_pos j) (Nat.lt_of_succ_lt_succ h)
      · omega

theorem searchWithin_of_taken {taken : NameSet} {fuel : Nat} {ns : NumberedNames}
    (h : taken.has (drawFreeWithin taken fuel ns).1 = true) : searchWithin taken fuel ns = fuel + 1 := by
  induction fuel generalizing ns with
  | zero => rfl
  | succ fuel ih =>
      rw [drawFreeWithin_succ] at h
      rw [searchWithin]
      split at h
      · next htaken => rw [if_pos htaken, ih h]
      · next hfree => exact absurd h hfree

theorem free_drawFree {taken : NameSet} {ns : NumberedNames}
    (h : ns.issued.toNat + searchLength taken ns < UInt64.size) :
    taken.has (drawFree taken ns).1 = false := by
  by_contra hne
  have htaken : taken.has (drawFree taken ns).1 = true := by simpa using hne
  have hlength : searchLength taken ns = taken.entries.length + 1 := searchWithin_of_taken htaken
  have hsubset : (drawMany (searchLength taken ns) ns).1 ⊆ taken.names := by
    intro drawn hdrawn
    rw [drawMany_eq_map] at hdrawn
    obtain ⟨i, hi, rfl⟩ := List.mem_map.mp hdrawn
    have hi := List.mem_range.mp hi
    refine NameSet.mem_names_of_has ?_
    by_cases hlast : i + 1 = searchLength taken ns
    · rw [drawFree_eq] at htaken
      rwa [hlast]
    · exact taken_of_lt_searchWithin (Nat.succ_pos i) (show i + 1 < searchLength taken ns by omega)
  have hle := ((nodup_drawMany h).subperm hsubset).length_le
  rw [length_drawMany, hlength, NameMap.names, List.length_map] at hle
  omega

end NumberedNames

end QueryCriteria
