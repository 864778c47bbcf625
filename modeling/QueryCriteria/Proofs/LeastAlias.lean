import Mathlib.Data.Set.Card
import QueryCriteria.Proofs.AliasSearch
import QueryCriteria.Proofs.Placeholders

namespace QueryCriteria

open QueryCriteria.Model

namespace NumberedNames

inductive Searched (taken : NameSet) : NumberedNames → Nat → String × NumberedNames → Prop
  | free {ns : NumberedNames} : taken.has ns.draw.1 = false → Searched taken ns 1 ns.draw
  | passed {ns : NumberedNames} {draws : Nat} {result : String × NumberedNames} : taken.has ns.draw.1 = true →
      Searched taken ns.draw.2 draws result → Searched taken ns (draws + 1) result

def takenAhead (taken : NameSet) (ns : NumberedNames) : Set String :=
  {drawn | taken.has drawn = true ∧ ∃ n, ns.issued.toNat < n ∧ drawn = ns.stem ++ toString n}

variable {taken : NameSet} {ns : NumberedNames} {draws other : Nat} {result last : String × NumberedNames}

theorem Searched.unique (h : Searched taken ns draws result) (k : Searched taken ns other last) :
    draws = other ∧ result = last := by
  induction h generalizing other with
  | free hfree =>
      cases k with
      | free => exact ⟨rfl, rfl⟩
      | passed htaken => exact absurd (hfree.symm.trans htaken) Bool.false_ne_true
  | passed htaken _ ih =>
      cases k with
      | free hfree => exact absurd (hfree.symm.trans htaken) Bool.false_ne_true
      | passed _ hrest =>
          obtain ⟨rfl, rfl⟩ := ih hrest
          exact ⟨rfl, rfl⟩

theorem searched_within {fuel : Nat} (h : taken.has (drawFreeWithin taken fuel ns).1 = false) :
    Searched taken ns (searchWithin taken fuel ns) (drawFreeWithin taken fuel ns) := by
  induction fuel generalizing ns with
  | zero => exact .free h
  | succ fuel ih =>
      rw [drawFreeWithin_succ] at h ⊢
      rw [searchWithin]
      split at h
      · next htaken =>
        rw [if_pos htaken, if_pos htaken]
        exact .passed htaken (ih h)
      · next hfree =>
        rw [if_neg hfree, if_neg hfree]
        exact .free h

theorem name_ahead {i : Nat} (h : ns.issued.toNat + i < UInt64.size) :
    name ns.stem (ns.issued + UInt64.ofNat i) = ns.stem ++ toString (ns.issued.toNat + i) := by
  rw [name, toNat_ofNat_add ns.issued h]

theorem advance_ahead {i : Nat} (h : ns.issued.toNat + i < UInt64.size) :
    ns.advance i = { ns with issued := UInt64.ofNat (ns.issued.toNat + i) } := by
  have hissued : ns.issued + UInt64.ofNat i = UInt64.ofNat (ns.issued.toNat + i) := by
    refine UInt64.toNat.inj ?_
    rw [toNat_ofNat_add ns.issued h, UInt64.toNat_ofNat_of_lt' h]
  rw [advance, hissued]

theorem finite_taken (taken : NameSet) : {drawn | taken.has drawn = true}.Finite :=
  taken.names.finite_toSet.subset fun _ hdrawn => NameSet.mem_names_of_has hdrawn

theorem ncard_taken_le (taken : NameSet) : {drawn | taken.has drawn = true}.ncard ≤ taken.entries.length := by
  have hsubset : {drawn | taken.has drawn = true} ⊆ (taken.names.toFinset : Set String) :=
    fun _ hdrawn => List.mem_toFinset.mpr (NameSet.mem_names_of_has hdrawn)
  calc {drawn | taken.has drawn = true}.ncard
    _ ≤ (taken.names.toFinset : Set String).ncard := Set.ncard_le_ncard hsubset
    _ = taken.names.toFinset.card := Set.ncard_coe_finset _
    _ ≤ taken.names.length := taken.names.toFinset_card_le
    _ = taken.entries.length := List.length_map _

theorem ncard_takenAhead_le (taken : NameSet) (ns : NumberedNames) :
    (takenAhead taken ns).ncard ≤ {drawn | taken.has drawn = true}.ncard :=
  Set.ncard_le_ncard (fun _ hdrawn => hdrawn.1) (finite_taken taken)

theorem le_ncard_takenAhead {count : Nat} (hroom : ns.issued.toNat + count < UInt64.size)
    (htaken : ∀ i, 0 < i → i ≤ count → taken.has (name ns.stem (ns.issued + UInt64.ofNat i)) = true) :
    count ≤ (takenAhead taken ns).ncard := by
  have hinj : Set.InjOn (fun i => name ns.stem (ns.issued + UInt64.ofNat i)) (Finset.Icc 1 count : Set Nat) := by
    intro i hi j hj heq
    have hi := (Finset.mem_Icc.mp hi).2
    have hj := (Finset.mem_Icc.mp hj).2
    exact name_ofNat_inj (by omega) (by omega) heq
  have hsubset : (fun i => name ns.stem (ns.issued + UInt64.ofNat i)) '' (Finset.Icc 1 count : Set Nat) ⊆
      takenAhead taken ns := by
    rintro _ ⟨i, hi, rfl⟩
    obtain ⟨hpos, hle⟩ := Finset.mem_Icc.mp hi
    exact ⟨htaken i hpos hle, _, by omega, name_ahead (by omega)⟩
  have hfinite : (takenAhead taken ns).Finite := (finite_taken taken).subset fun _ hdrawn => hdrawn.1
  calc count
    _ = (Finset.Icc 1 count : Set Nat).ncard := by rw [Set.ncard_coe_finset, Nat.card_Icc, Nat.add_sub_cancel]
    _ = _ := hinj.ncard_image.symm
    _ ≤ (takenAhead taken ns).ncard := Set.ncard_le_ncard hsubset hfinite

theorem searchLength_le (h : ns.issued.toNat + {drawn | taken.has drawn = true}.ncard < UInt64.size - 1) :
    searchLength taken ns ≤ (takenAhead taken ns).ncard + 1 := by
  have hahead := ncard_takenAhead_le taken ns
  by_contra hlong
  have hall : (takenAhead taken ns).ncard + 1 ≤ (takenAhead taken ns).ncard :=
    le_ncard_takenAhead (by omega) fun i hpos hle =>
      taken_of_lt_searchWithin hpos (show i < searchLength taken ns by omega)
  omega

end NumberedNames

open NumberedNames

theorem nextAlias_least (s : Scope)
    (h : s.aliases.issued.toNat + {drawn | s.reserved.has drawn = true}.ncard < UInt64.size - 1) :
    ∃ draws, ∃ n < UInt64.size, n = s.aliases.issued.toNat + draws ∧
      IsLeast {n | s.aliases.issued.toNat < n ∧ s.reserved.has (s.aliases.stem ++ toString n) = false} n ∧
      draws ≤ (takenAhead s.reserved s.aliases).ncard + 1 ∧
      (∀ k result, Searched s.reserved s.aliases k result ↔ k = draws ∧
        result = (s.aliases.stem ++ toString n, { s.aliases with issued := UInt64.ofNat n })) ∧
      s.nextAlias =
        (s.aliases.stem ++ toString n, { s with aliases := { s.aliases with issued := UInt64.ofNat n } }) := by
  have hle := searchLength_le h
  have hahead := ncard_takenAhead_le s.reserved s.aliases
  have hroom : s.aliases.issued.toNat + searchLength s.reserved s.aliases < UInt64.size := by omega
  have hfree := free_drawFree hroom
  have hsearched : Searched s.reserved s.aliases (searchLength s.reserved s.aliases) (drawFree s.reserved s.aliases) :=
    searched_within hfree
  have hdraw := drawFree_eq s.reserved s.aliases
  rw [name_ahead hroom, advance_ahead hroom] at hdraw
  rw [hdraw] at hfree hsearched
  refine ⟨searchLength s.reserved s.aliases, _, hroom, rfl, ⟨⟨?_, hfree⟩, fun n hn => ?_⟩, hle,
    fun k result => ?_, ?_⟩
  · have hpos := searchLength_pos s.reserved s.aliases
    omega
  · obtain ⟨habove, hnfree⟩ := hn
    by_contra hlt
    have htaken := taken_of_lt_searchWithin (show 0 < n - s.aliases.issued.toNat by omega)
      (show n - s.aliases.issued.toNat < searchLength s.reserved s.aliases by omega)
    rw [name_ahead (by omega), Nat.add_sub_cancel' (Nat.le_of_lt habove), hnfree] at htaken
    exact Bool.false_ne_true htaken
  · constructor
    · exact fun hother => hother.unique hsearched
    · rintro ⟨rfl, rfl⟩
      exact hsearched
  · rw [Scope.nextAlias, hdraw]

def crowded : Scope :=
  (Scope.fresh { aliasPrefix := "t1" } {}).run [.register staff none, .register staff none, .register staff none,
    .fixAlias ⟨0⟩ "t11", .fixAlias ⟨1⟩ "t12", .fixAlias ⟨2⟩ "t2"]

theorem crowded_third : ∃ draws, draws ≤ (takenAhead crowded.reserved crowded.aliases).ncard + 1 ∧
    Searched crowded.reserved crowded.aliases draws ("t13", ⟨"t1", 3⟩) ∧
    crowded.nextAlias = ("t13", { crowded with aliases := ⟨"t1", 3⟩ }) := by
  have hfixed := ncard_taken_le crowded.reserved
  have hlength : crowded.reserved.entries.length = 3 := by rfl
  have hissued : crowded.aliases.issued.toNat = 0 := by rfl
  have hthird : IsLeast {n | 0 < n ∧ crowded.reserved.has (crowded.aliases.stem ++ toString n) = false} 3 := by
    refine ⟨⟨by decide, by rfl⟩, ?_⟩
    rintro n ⟨hpos, hfree⟩
    by_contra hlt
    obtain rfl | rfl : n = 1 ∨ n = 2 := by omega
    · exact absurd hfree (by decide)
    · exact absurd hfree (by decide)
  obtain ⟨draws, n, -, -, hleast, hle, hsearched, hnext⟩ :=
    nextAlias_least crowded (by simp only [UInt64.size]; omega)
  rw [hissued] at hleast
  obtain rfl := hleast.unique hthird
  exact ⟨draws, hle, (hsearched _ _).mpr ⟨rfl, rfl⟩, hnext⟩

end QueryCriteria
