import Mathlib.Data.Finset.Card
import Mathlib.Order.Interval.Finset.Nat
import Mathlib.Tactic.Linarith
import QueryCriteria.Proofs.Growth

namespace QueryCriteria

open QueryCriteria.Model

namespace NumberedNames

theorem drawFreeWithin_spec (taken : NameSet) (fuel : Nat) (ns : NumberedNames) :
    ∃ count, 0 < count ∧ count ≤ fuel + 1 ∧ drawFreeWithin taken fuel ns =
      (name ns.stem (ns.issued + UInt64.ofNat count), ns.advance count) := by
  induction fuel generalizing ns with
  | zero => exact ⟨1, by simp, by simp, rfl⟩
  | succ fuel ih =>
      rw [drawFreeWithin_succ]
      split
      · obtain ⟨count, -, hle, heq⟩ := ih ns.draw.2
        refine ⟨1 + count, by omega, by omega, ?_⟩
        rw [heq]
        simp [draw, advance, UInt64.add_assoc]
      · exact ⟨1, by simp, by simp, rfl⟩

theorem drawFree_spec (taken : NameSet) (ns : NumberedNames) :
    ∃ count, 0 < count ∧ count ≤ taken.entries.length + 1 ∧ drawFree taken ns =
      (name ns.stem (ns.issued + UInt64.ofNat count), ns.advance count) :=
  drawFreeWithin_spec taken taken.entries.length ns

theorem name_ofNat_inj {stem : String} {issued : UInt64} {m n : Nat} (hm : m < UInt64.size)
    (hn : n < UInt64.size)
    (h : name stem (issued + UInt64.ofNat m) = name stem (issued + UInt64.ofNat n)) : m = n := by
  have hsum := name_inj h
  have hoffset := congrArg UInt64.toNat ((UInt64.add_right_inj issued).mp hsum)
  rwa [UInt64.toNat_ofNat_of_lt' hm, UInt64.toNat_ofNat_of_lt' hn] at hoffset

end NumberedNames

theorem NameMap.length_put_le {α : Type} (name : String) (value : α) (l : List (String × α)) :
    (put name value l).length ≤ l.length + 1 := by
  induction l with
  | nil => simp [put]
  | cons entry rest ih =>
      obtain ⟨n, v⟩ := entry
      simp only [put]
      split
      · simpa using ih
      · split <;> simp

namespace Scope

def bare (s : Scope) : Finset Nat :=
  (Finset.range s.size).filter fun index => s.alias? ⟨index⟩ = none

theorem mem_bare {s : Scope} {id : CriteriaId} :
    id.index ∈ s.bare ↔ (s.slot? id).isSome ∧ s.alias? id = none := by
  simp [bare, isSome_slot?]

theorem Aliased.bare_subset {s t : Scope} (h : Aliased s t) : t.bare ⊆ s.bare := by
  intro index hindex
  have hid : ∀ u : Scope, index ∈ u.bare ↔ (u.slot? ⟨index⟩).isSome ∧ u.alias? ⟨index⟩ = none :=
    fun _ => mem_bare
  obtain ⟨hslot, hnone⟩ := (hid t).mp hindex
  rw [h.isSome_slot?] at hslot
  refine (hid s).mpr ⟨hslot, ?_⟩
  cases ha : s.alias? ⟨index⟩ with
  | none => rfl
  | some a => rw [h.alias? ha] at hnone; cases hnone

theorem card_bare_lt {s t : Scope} (h : t.bare ⊆ s.bare) {id : CriteriaId} (hid : id.index ∈ s.bare)
    (ht : (t.alias? id).isSome) : t.bare.card < s.bare.card := by
  refine Finset.card_lt_card (Finset.ssubset_iff_subset_ne.mpr ⟨h, fun heq => ?_⟩)
  rw [← heq, mem_bare] at hid
  simp [hid.2] at ht

structure Spacious (s : Scope) : Prop where
  size : s.size ≤ capacity
  reserved : s.reserved.entries.length + s.bare.card ≤ s.size

theorem spacious_fresh (config : Config) (registry : Registry) : (fresh config registry).Spacious where
  size := Nat.zero_le _
  reserved := Nat.le_of_eq rfl

section Spacious

variable {s t : Scope}

theorem Spacious.aliased (h : s.Spacious) (hst : Aliased s t) : t.Spacious where
  size := hst.size ▸ h.size
  reserved := by
    have hreserved : t.reserved = s.reserved := by rw [hst.frame]
    have hbare := Finset.card_le_card hst.bare_subset
    have hold := h.reserved
    rw [hreserved, hst.size]
    omega

theorem alias?_append {slots : List Slot} (hslots : ∀ slot ∈ slots, slot.aliasName = none)
    (id : CriteriaId) :
    ({ s with slots := s.slots ++ slots } : Scope).alias? id = s.alias? id := by
  by_cases hold : id.index < s.slots.length
  · simp [Scope.alias?, slot?, List.getElem?_append_left hold]
  · have hnew := Nat.le_of_not_lt hold
    rw [Scope.alias?, slot?, List.getElem?_append_right hnew, Scope.alias?, slot?,
      List.getElem?_eq_none hnew]
    cases hslot : slots[id.index - s.slots.length]? with
    | none => rfl
    | some slot => exact hslots slot (List.mem_of_getElem? hslot)

theorem Spacious.append (h : s.Spacious) {slots : List Slot}
    (hslots : ∀ slot ∈ slots, slot.aliasName = none) (hroom : s.size + slots.length ≤ capacity) :
    ({ s with slots := s.slots ++ slots } : Scope).Spacious := by
  generalize ht : ({ s with slots := s.slots ++ slots } : Scope) = t
  have hsize : t.size = s.size + slots.length := by simp [← ht, Scope.size]
  have hreserved : t.reserved = s.reserved := by rw [← ht]
  have hbare : t.bare ⊆ s.bare ∪ Finset.Ico s.size t.size := by
    intro index hindex
    simp only [bare, Finset.mem_filter, Finset.mem_range] at hindex
    simp only [bare, Finset.mem_union, Finset.mem_filter, Finset.mem_range, Finset.mem_Ico]
    rw [← ht, alias?_append hslots, ht] at hindex
    by_cases hold : index < s.size
    · exact .inl ⟨hold, hindex.2⟩
    · exact .inr ⟨Nat.le_of_not_lt hold, hindex.1⟩
  have hcard := (Finset.card_le_card hbare).trans (Finset.card_union_le _ _)
  rw [Nat.card_Ico] at hcard
  have hold := h.reserved
  constructor
  · omega
  · rw [hreserved]
    omega

theorem alias?_setAlias_of_ne {id other : CriteriaId} (h : other ≠ id) (aliasName : String) :
    (s.setAlias id aliasName).alias? other = s.alias? other := by
  rw [Scope.alias?, slot?_setAlias, Scope.alias?]
  cases s.slot? other <;> simp [h.symm]

theorem alias?_setAlias_self {id : CriteriaId} (h : (s.slot? id).isSome) (aliasName : String) :
    (s.setAlias id aliasName).alias? id = some aliasName := by
  obtain ⟨slot, hslot⟩ := Option.isSome_iff_exists.mp h
  simp [Scope.alias?, slot?_setAlias, hslot]

theorem Spacious.fixAlias (h : s.Spacious) {id : CriteriaId} (hslot : (s.slot? id).isSome)
    (hnone : s.alias? id = none) (aliasName : String) :
    ({ s with reserved := s.reserved.add aliasName }.setAlias id aliasName).Spacious := by
  have hset := fun other (hne : other ≠ id) => alias?_setAlias_of_ne (s := s) hne aliasName
  have hself := alias?_setAlias_self hslot aliasName
  have hsize : (s.setAlias id aliasName).size = s.size := by simp [setAlias, Scope.size]
  have hbare : (s.setAlias id aliasName).bare ⊆ s.bare := by
    intro index hindex
    simp only [bare, Finset.mem_filter, hsize] at hindex ⊢
    by_cases hid : (⟨index⟩ : CriteriaId) = id
    · rw [hid, hself] at hindex
      cases hindex.2
    · rwa [hset _ hid] at hindex
  have hlt := card_bare_lt hbare (mem_bare.mpr ⟨hslot, hnone⟩) (by rw [hself]; rfl)
  have hreserved : (s.reserved.add aliasName).entries.length ≤ s.reserved.entries.length + 1 :=
    NameMap.length_put_le aliasName () s.reserved.entries
  have hold := h.reserved
  refine ⟨hsize ▸ h.size, ?_⟩
  calc (s.reserved.add aliasName).entries.length + (s.setAlias id aliasName).bare.card
    _ ≤ s.size := by omega
    _ = (s.setAlias id aliasName).size := hsize.symm

theorem spacious_step (h : s.Spacious) (a : Action) : (s.step a).Spacious := by
  rcases s.step_cases a with heffect | ⟨hsame, -⟩
  · generalize s.step a = t at heffect ⊢
    cases heffect with
    | register entity parent hfree hroom => exact h.append (by simp) hroom
    | aliasOf hfree hslot hnone => exact h.aliased (aliased_drawAlias hnone)
    | aliasWhileHeld hslot hnone => exact h.aliased (aliased_drawAlias hnone)
    | fixAlias aliasName hfree hslot hnone => exact h.fixAlias hslot hnone aliasName
    | compile c hfree =>
        rcases s.state_compile c with ⟨-, hsame⟩ | ⟨-, t, haliased, hstate⟩
        · rwa [hsame]
        · have hheld : s.held.Spacious := ⟨h.size, h.reserved⟩
          have ht := hheld.aliased haliased
          rw [hstate]
          exact ⟨ht.size, ht.reserved⟩
    | _ => exact ⟨h.size, h.reserved⟩
  · rwa [hsame]

end Spacious

structure Numbered (s t : Scope) (count : Nat) (number : CriteriaId → Nat) : Prop where
  aliased : Aliased s t
  aliases : t.aliases = s.aliases.advance count
  cost : count + (s.reserved.entries.length + 1) * t.bare.card ≤
    (s.reserved.entries.length + 1) * s.bare.card
  named : ∀ id, s.alias? id = none → (t.alias? id).isSome → 0 < number id ∧ number id ≤ count ∧
    t.alias? id = some (NumberedNames.name s.aliases.stem (s.aliases.issued + UInt64.ofNat (number id)))
  distinct : ∀ id other, s.alias? id = none → s.alias? other = none → (t.alias? id).isSome →
    (t.alias? other).isSome → number id = number other → id = other

namespace Numbered

variable {s t u : Scope} {m n : Nat} {number later : CriteriaId → Nat}

theorem refl (s : Scope) : Numbered s s 0 fun _ => 0 where
  aliased := .refl s
  aliases := (NumberedNames.advance_zero _).symm
  cost := Nat.le_of_eq (Nat.zero_add _)
  named id hnone hsome := by simp [hnone] at hsome
  distinct id other hnone _ hsome := by simp [hnone] at hsome

theorem trans (h : Numbered s t m number) (k : Numbered t u n later) :
    Numbered s u (m + n) fun id => if (t.alias? id).isSome then number id else m + later id := by
  have hreserved : t.reserved = s.reserved := by rw [h.aliased.frame]
  have hkept : ∀ id, (t.alias? id).isSome → u.alias? id = t.alias? id := by
    intro id hsome
    obtain ⟨a, ha⟩ := Option.isSome_iff_exists.mp hsome
    rw [ha, k.aliased.alias? ha]
  have hlate : ∀ id, ¬ (t.alias? id).isSome → t.alias? id = none := fun id => by simp
  refine ⟨h.aliased.trans k.aliased, ?_, ?_, fun id hnone hsome => ?_,
    fun id other hid hother hidSome hotherSome => ?_⟩
  · rw [k.aliases, h.aliases, NumberedNames.advance_advance]
  · have hcost := k.cost
    have hcost' := h.cost
    rw [hreserved] at hcost
    omega
  · by_cases ht : (t.alias? id).isSome
    · obtain ⟨hpos, hle, hname⟩ := h.named id hnone ht
      rw [if_pos ht, hkept id ht]
      exact ⟨hpos, by omega, hname⟩
    · obtain ⟨hpos, hle, hname⟩ := k.named id (hlate id ht) hsome
      rw [if_neg ht, hname, h.aliases]
      refine ⟨by omega, by omega, ?_⟩
      simp [NumberedNames.advance, UInt64.add_assoc]
  -- What was named before `t` has a number up to `m`, and what was named after it a greater one.
  · by_cases htid : (t.alias? id).isSome <;> by_cases htother : (t.alias? other).isSome
    · rw [if_pos htid, if_pos htother]
      exact h.distinct id other hid hother htid htother
    · have hearly := (h.named id hid htid).2.1
      have hpos := (k.named other (hlate other htother) hotherSome).1
      rw [if_pos htid, if_neg htother]
      omega
    · have hearly := (h.named other hother htother).2.1
      have hpos := (k.named id (hlate id htid) hidSome).1
      rw [if_neg htid, if_pos htother]
      omega
    · rw [if_neg htid, if_neg htother]
      intro heq
      exact k.distinct id other (hlate id htid) (hlate other htother) hidSome hotherSome (by omega)

end Numbered

theorem numbered_drawAlias {s : Scope} {id : CriteriaId} (hslot : (s.slot? id).isSome)
    (hnone : s.alias? id = none) : ∃ count number, Numbered s (s.drawAlias id).2 count number := by
  obtain ⟨count, hpos, hle, hdraw⟩ := NumberedNames.drawFree_spec s.reserved s.aliases
  have haliased := aliased_drawAlias hnone
  have hname : (s.drawAlias id).2.alias? id =
      some (NumberedNames.name s.aliases.stem (s.aliases.issued + UInt64.ofNat count)) := by
    rw [alias?_drawAlias hslot, drawAlias, nextAlias, hdraw]
  have honly : ∀ other, s.alias? other = none → ((s.drawAlias id).2.alias? other).isSome → other = id := by
    intro other hother hsome
    by_contra hne
    have hkept : (s.drawAlias id).2.alias? other = s.nextAlias.2.alias? other :=
      alias?_setAlias_of_ne hne _
    have hsame : s.nextAlias.2.alias? other = s.alias? other := rfl
    rw [hkept, hsame, hother] at hsome
    cases hsome
  refine ⟨count, fun _ => count, haliased, ?_, ?_, fun other hother hsome => ?_,
    fun other other' hother hother' hsome hsome' _ => ?_⟩
  · have haliases : (s.drawAlias id).2.aliases = (NumberedNames.drawFree s.reserved s.aliases).2 := rfl
    rw [haliases, hdraw]
  · have hlt := card_bare_lt haliased.bare_subset (mem_bare.mpr ⟨hslot, hnone⟩) (by rw [hname]; rfl)
    have hstep := Nat.mul_le_mul_left (s.reserved.entries.length + 1) hlt
    rw [Nat.mul_succ] at hstep
    omega
  · obtain rfl := honly other hother hsome
    exact ⟨hpos, Nat.le_refl _, hname⟩
  · rw [honly other hother hsome, honly other' hother' hsome']

theorem numbered_withAlias (s : Scope) (id : CriteriaId) :
    ∃ count number, Numbered s (s.withAlias id) count number := by
  have hstep : s.withAlias id = s.step (.aliasWhileHeld id) := by
    rw [withAlias, step]
    cases s.aliasWhileHeld id <;> rfl
  rw [hstep]
  rcases s.step_aliasWhileHeld id with heffect | hsame
  · generalize s.step (.aliasWhileHeld id) = t at heffect
    cases heffect with
    | aliasWhileHeld hslot hnone => exact numbered_drawAlias hslot hnone
  · rw [hsame]
    exact ⟨_, _, .refl s⟩

theorem numbered_settle (s : Scope) (refs : List Reference) :
    ∃ count number, Numbered s (s.settle refs) count number := by
  induction refs generalizing s with
  | nil => exact ⟨_, _, .refl s⟩
  | cons r rs ih =>
      obtain ⟨m, number, h⟩ := s.numbered_withAlias r.id
      obtain ⟨n, later, k⟩ := ih (s.withAlias r.id)
      exact ⟨_, _, h.trans k⟩

theorem Spacious.cost_lt {s : Scope} (h : s.Spacious) :
    (s.reserved.entries.length + 1) * s.bare.card < UInt64.size := by
  have hsize := h.size
  have hreserved := h.reserved
  have hcapacity : capacity = 4294967296 := rfl
  have hnames : UInt64.size = 18446744073709551616 := rfl
  generalize s.reserved.entries.length = fixed at hreserved ⊢
  generalize s.bare.card = bare at hreserved ⊢
  -- The two numbers add up to no more than the handles, so their product is below the square of these.
  rw [hnames]
  nlinarith [sq_nonneg ((fixed : ℤ) + 1 - bare)]

theorem alias?_settle_inj {s : Scope} (h : s.Spacious) {refs : List Reference} {id other : CriteriaId}
    (hid : s.alias? id = none) (hother : s.alias? other = none)
    (hsome : ((s.settle refs).alias? id).isSome)
    (heq : (s.settle refs).alias? id = (s.settle refs).alias? other) : id = other := by
  obtain ⟨count, number, hnumbered⟩ := s.numbered_settle refs
  have hsome' : ((s.settle refs).alias? other).isSome := heq ▸ hsome
  obtain ⟨-, hle, hname⟩ := hnumbered.named id hid hsome
  obtain ⟨-, hle', hname'⟩ := hnumbered.named other hother hsome'
  have hcount : count < UInt64.size := by
    have hcost := hnumbered.cost
    have hlt := h.cost_lt
    omega
  rw [hname, hname'] at heq
  refine hnumbered.distinct id other hid hother hsome hsome' ?_
  exact NumberedNames.name_ofNat_inj (by omega) (by omega) (Option.some.inj heq)

end Scope

end QueryCriteria
