import Mathlib.Algebra.Ring.Nat
import Mathlib.Data.List.Pairwise
import Mathlib.Data.String.Basic
import QueryCriteria.Metrics.Counters

namespace QueryCriteria

namespace NameMap

variable {α : Type} {amount : String → α → Nat} {fresh : α} {name : String}

def Ascending (m : NameMap α) : Prop :=
  m.entries.Pairwise (·.1 < ·.1)

def total (amount : String → α → Nat) (m : NameMap α) : Nat :=
  (m.entries.map fun e => amount e.1 e.2).sum

theorem mem_put {value : α} {l : List (String × α)} {e : String × α} (h : e ∈ put name value l) :
    e = (name, value) ∨ e ∈ l := by
  induction l with
  | nil => simpa [put] using h
  | cons head rest ih =>
      rw [put] at h
      split at h
      · rcases List.mem_cons.mp h with rfl | h
        · exact .inr List.mem_cons_self
        · exact (ih h).imp_right (List.mem_cons_of_mem _)
      · split at h
        · exact (List.mem_cons.mp h).imp_right (List.mem_cons_of_mem _)
        · exact List.mem_cons.mp h

theorem pairwise_put (value : α) {l : List (String × α)} (h : l.Pairwise (·.1 < ·.1)) :
    (put name value l).Pairwise (·.1 < ·.1) := by
  induction l with
  | nil => simp [put]
  | cons head rest ih =>
      obtain ⟨n, v⟩ := head
      obtain ⟨hhead, hrest⟩ := List.pairwise_cons.mp h
      rw [put]
      split
      next hlt =>
        refine List.pairwise_cons.mpr ⟨fun e he => ?_, ih hrest⟩
        rcases mem_put he with rfl | he
        · exact hlt
        · exact hhead e he
      next hge =>
        split
        next heq => exact List.pairwise_cons.mpr ⟨heq ▸ hhead, hrest⟩
        next hne =>
          have hlt : name < n := lt_of_le_of_ne (not_lt.mp hge) (Ne.symm hne)
          refine List.pairwise_cons.mpr ⟨fun e he => ?_, h⟩
          rcases List.mem_cons.mp he with rfl | he
          · exact hlt
          · exact lt_trans hlt (hhead e he)

theorem sum_put (value : α) {l : List (String × α)} (h : l.Pairwise (·.1 < ·.1))
    (hfresh : amount name fresh = 0) :
    ((put name value l).map fun e => amount e.1 e.2).sum + amount name ((l.lookup name).getD fresh) =
      (l.map fun e => amount e.1 e.2).sum + amount name value := by
  induction l with
  | nil => simp [put, hfresh]
  | cons head rest ih =>
      obtain ⟨n, v⟩ := head
      obtain ⟨hhead, hrest⟩ := List.pairwise_cons.mp h
      have ih := ih hrest
      rw [put]
      split
      next hlt =>
        have hne : (name == n) = false := by simpa using (ne_of_lt hlt).symm
        simp only [List.lookup_cons, hne, List.map_cons, List.sum_cons]
        omega
      next hge =>
        split
        next heq =>
          subst heq
          simp
          omega
        next hne =>
          have hlt : name < n := lt_of_le_of_ne (not_lt.mp hge) (Ne.symm hne)
          have hmissing : ((n, v) :: rest).lookup name = none := by
            refine List.lookup_eq_none_iff.mpr fun e he => ?_
            rcases List.mem_cons.mp he with rfl | he
            · simpa using ne_of_lt hlt
            · simpa using ne_of_lt (lt_trans hlt (hhead e he))
          rw [hmissing]
          simp [hfresh]
          omega

theorem ascending_update (m : NameMap α) (hm : m.Ascending) (name : String) (fresh : α) (f : α → α) :
    (m.update name fresh f).Ascending :=
  pairwise_put _ hm

theorem total_update {m : NameMap α} (hm : m.Ascending) (hfresh : amount name fresh = 0) (f : α → α) :
    (m.update name fresh f).total amount + amount name ((m.get? name).getD fresh) =
      m.total amount + amount name (f ((m.get? name).getD fresh)) :=
  sum_put _ hm hfresh

theorem amount_le_total (m : NameMap α) (hfresh : amount name fresh = 0) :
    amount name ((m.get? name).getD fresh) ≤ m.total amount := by
  cases hget : m.get? name with
  | none => simp [hfresh]
  | some v =>
      obtain ⟨before, after, hsplit, -⟩ := List.lookup_eq_some_iff.mp hget
      simp [total, hsplit]
      omega

end NameMap

namespace SkipReason

def structuralLabels : List String :=
  [emptyCollection, missingBound, missingTemplate, missingSubquery, missingOther, emptyNested].map label

theorem label_mem_structuralLabels (r : SkipReason) :
    r.label ∈ structuralLabels ↔ r.isStructural = true := by
  cases r <;> simp [structuralLabels, label, isStructural]

theorem mem_structuralLabels {s : String} :
    s ∈ structuralLabels ↔ ∃ r : SkipReason, r.isStructural = true ∧ r.label = s := by
  constructor
  · intro h
    obtain ⟨r, -, rfl⟩ := List.mem_map.mp h
    exact ⟨r, (label_mem_structuralLabels r).mp h, rfl⟩
  · rintro ⟨r, hr, rfl⟩
    exact (label_mem_structuralLabels r).mpr hr

end SkipReason

namespace Metrics

theorem plus_zero (count : UInt64) : plus count 0 = count := by
  have := count.toNat_lt
  refine UInt64.toNat_inj.mp ?_
  rw [toNat_plus]
  simp only [UInt64.size]
  omega

theorem toNat_plus_of_le {count : UInt64} {n : Nat} (h : count.toNat + n < UInt64.size) :
    (plus count n).toNat = count.toNat + n := by
  rw [toNat_plus]
  omega

def Counters.Ordered (c : Counters) : Prop :=
  c.skips.Ascending ∧ c.entities.Ascending

theorem ordered_count {c : Counters} (h : c.Ordered) (e : Event) : (c.count e).Ordered := by
  obtain ⟨hskips, hentities⟩ := h
  cases e with
  | expressionSkipped reason => exact ⟨c.skips.ascending_update hskips _ _ _, hentities⟩
  | _ => exact ⟨hskips, c.entities.ascending_update hentities _ _ _⟩

structure Ledger where
  overall : Counters → UInt64
  parts : Counters → Nat
  weight : Event → Nat

namespace Ledger

def total (l : Ledger) (es : List Event) : Nat :=
  (es.map l.weight).sum

structure Sound (l : Ledger) : Prop where
  fresh : (l.overall {}).toNat = 0 ∧ l.parts {} = 0
  overall : ∀ c e, l.overall (c.count e) = plus (l.overall c) (l.weight e)
  parts : ∀ c e, c.Ordered → l.parts c + l.weight e < UInt64.size →
    l.parts (c.count e) = l.parts c + l.weight e

theorem Sound.step {l : Ledger} (h : l.Sound) {c : Counters} (hc : c.Ordered) {e : Event} {n : Nat}
    (hoverall : (l.overall c).toNat = n) (hparts : l.parts c = n) (hroom : n + l.weight e < UInt64.size) :
    (l.overall (c.count e)).toNat = n + l.weight e ∧ l.parts (c.count e) = n + l.weight e := by
  rw [h.overall, h.parts c e hc (by omega), toNat_plus_of_le (by omega)]
  omega

theorem Sound.run {l : Ledger} (h : l.Sound) {es : List Event} (hroom : l.total es < UInt64.size) :
    (l.overall (es.foldl Counters.count {})).toNat = l.total es ∧
      l.parts (es.foldl Counters.count {}) = l.total es := by
  have hrun : ∀ (es : List Event) (c : Counters) (n : Nat), c.Ordered → (l.overall c).toNat = n →
      l.parts c = n → n + l.total es < UInt64.size →
        (l.overall (es.foldl Counters.count c)).toNat = n + l.total es ∧
          l.parts (es.foldl Counters.count c) = n + l.total es := by
    intro es
    induction es with
    | nil => exact fun c n _ hoverall hparts _ => ⟨hoverall, hparts⟩
    | cons e es ih =>
        intro c n hc hoverall hparts hroom
        have htotal : l.total (e :: es) = l.weight e + l.total es := by simp [total]
        rw [htotal] at hroom ⊢
        obtain ⟨hoverall, hparts⟩ := h.step hc (e := e) hoverall hparts (by omega)
        have hlater := ih (c.count e) _ (ordered_count hc e) hoverall hparts (by omega)
        rwa [Nat.add_assoc] at hlater
  have hordered : Counters.Ordered {} := ⟨.nil, .nil⟩
  simpa using hrun es {} 0 hordered h.fresh.1 h.fresh.2 (by omega)

end Ledger

inductive Tally where
  | criteriaCreated
  | compiles
  | compileFailures
  | parametersBound

namespace Tally

def overall (c : Counters) : Tally → UInt64
  | .criteriaCreated => c.criteriaCreated
  | .compiles => c.compiles
  | .compileFailures => c.compileFailures
  | .parametersBound => c.parametersBound

def ofEntity (c : EntityCounters) : Tally → UInt64
  | .criteriaCreated => c.criteriaCreated
  | .compiles => c.compiles
  | .compileFailures => c.compileFailures
  | .parametersBound => c.parametersBound

def weight : Tally → Event → Nat
  | .criteriaCreated, .criteriaCreated _ => 1
  | .compiles, .compileFinished _ _ _ _ => 1
  | .compileFailures, .compileFailed _ _ => 1
  | .parametersBound, .compileFinished _ _ parameters _ => parameters
  | _, _ => 0

def ledger (t : Tally) : Ledger where
  overall c := overall c t
  parts c := c.entities.total fun _ x => (ofEntity x t).toNat
  weight := t.weight

theorem entities_count (c : Counters) (e : Event) :
    ((c.count e).entities = c.entities ∧ ∀ t : Tally, t.weight e = 0) ∨
      ∃ name f, (c.count e).entities = c.entities.update name {} f ∧
        ∀ (x : EntityCounters) (t : Tally), ofEntity (f x) t = plus (ofEntity x t) (t.weight e) := by
  cases e with
  | expressionSkipped reason => exact .inl ⟨rfl, fun t => by cases t <;> rfl⟩
  | _ =>
      right
      simp only [Counters.count, Counters.updateEntity]
      refine ⟨_, _, rfl, fun x t => ?_⟩
      cases t <;> simp [ofEntity, weight, plus_zero]

theorem sound_ledger (t : Tally) : t.ledger.Sound where
  fresh := by cases t <;> exact ⟨rfl, rfl⟩
  overall c e := by
    cases t <;> cases e <;> simp [ledger, overall, weight, plus_zero, Counters.count, Counters.updateEntity]
  parts c e hc hroom := by
    rcases entities_count c e with ⟨hsame, hweight⟩ | ⟨name, f, hupdate, hf⟩
    · simp only [ledger, hsame, hweight t, Nat.add_zero]
    · let amount : String → EntityCounters → Nat := fun _ x => (ofEntity x t).toNat
      have hnothing : amount name {} = 0 := by cases t <;> rfl
      have htotal := NameMap.total_update hc.2 hnothing f
      -- The counter of one entity is no more than all of them together, so there is room for it too.
      have hle := c.entities.amount_le_total hnothing
      simp only [ledger, amount] at hroom htotal hle ⊢
      rw [hf, toNat_plus_of_le (by omega)] at htotal
      rw [hupdate]
      omega

end Tally

namespace Ledger

def ofSkips (overall : Counters → UInt64) (counts : String → Bool) : Ledger where
  overall := overall
  parts c := c.skips.total fun label n => if counts label then n.toNat else 0
  weight
    | .expressionSkipped reason => if counts reason.label then 1 else 0
    | _ => 0

theorem sound_ofSkips {overall : Counters → UInt64} {counts : String → Bool} (hfresh : (overall {}).toNat = 0)
    (hoverall : ∀ c e, overall (c.count e) = plus (overall c) ((ofSkips overall counts).weight e)) :
    (ofSkips overall counts).Sound where
  fresh := ⟨hfresh, rfl⟩
  overall := hoverall
  parts c e hc hroom := by
    cases e with
    | expressionSkipped reason =>
        let amount : String → UInt64 → Nat := fun label n => if counts label then n.toNat else 0
        have hnothing : amount reason.label 0 = 0 := by simp [amount]
        have htotal := NameMap.total_update hc.1 hnothing (plus · 1)
        have hle := c.skips.amount_le_total hnothing
        simp only [ofSkips, amount, Counters.count] at hroom htotal hle ⊢
        split at hroom
        next hcounts =>
          simp only [hcounts, if_true] at htotal hle ⊢
          rw [toNat_plus_of_le (by omega)] at htotal
          omega
        next hcounts =>
          simp only [hcounts, Bool.false_eq_true, if_false] at htotal hle ⊢
          omega
    | _ => rfl

def skips : Ledger :=
  ofSkips Counters.expressionsSkipped fun _ => true

def structuralSkips : Ledger :=
  ofSkips Counters.structuralSkips fun label => decide (label ∈ SkipReason.structuralLabels)

theorem sound_skips : skips.Sound := by
  refine sound_ofSkips rfl fun c e => ?_
  cases e <;> simp [ofSkips, Counters.count, Counters.updateEntity, plus_zero]

theorem sound_structuralSkips : structuralSkips.Sound := by
  refine sound_ofSkips rfl fun c e => ?_
  cases e with
  | expressionSkipped reason =>
      cases hstructural : reason.isStructural <;>
        simp [ofSkips, Counters.count, SkipReason.label_mem_structuralLabels, hstructural, plus_zero]
  | _ => simp [ofSkips, Counters.count, Counters.updateEntity, plus_zero]

end Ledger

end Metrics

end QueryCriteria
