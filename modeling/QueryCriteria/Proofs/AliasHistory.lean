import QueryCriteria.Proofs.AliasSearch
import QueryCriteria.Proofs.CompileSteps

namespace QueryCriteria

inductive Naming where
  | drawn (name : String) (holder : Option CriteriaId) (count : Nat)
  | fixed (name : String) (holder : CriteriaId)
deriving DecidableEq, Repr

namespace Naming

def name : Naming → String
  | .drawn name _ _ => name
  | .fixed name _ => name

def holder? : Naming → Option CriteriaId
  | .drawn _ holder _ => holder
  | .fixed _ holder => some holder

def isDrawn : Naming → Bool
  | .drawn _ _ _ => true
  | .fixed _ _ => false

def count : Naming → Nat
  | .drawn _ _ count => count
  | .fixed _ _ => 0

def draws (h : List Naming) : Nat :=
  (h.map count).sum

def holders (h : List Naming) : List CriteriaId :=
  h.filterMap holder?

theorem draws_append (h k : List Naming) : draws (h ++ k) = draws h + draws k := by
  simp [draws]

theorem holders_append (h k : List Naming) : holders (h ++ k) = holders h ++ holders k :=
  List.filterMap_append

end Naming

namespace Scope

def drawnFor (s : Scope) (id : CriteriaId) : Except ScopeError (String × Scope) → Option Naming
  | .error _ => none
  | .ok (name, _) =>
      if (s.alias? id).isSome then none
      else some (.drawn name (some id) (s.aliases.searchLength s.reserved))

def naming? (s : Scope) : Action → Option Naming
  | .drawAlias => some (.drawn s.nextAlias.1 none (s.aliases.searchLength s.reserved))
  | .aliasOf id => s.drawnFor id (s.aliasOf id)
  | .aliasWhileHeld id => s.drawnFor id (s.aliasWhileHeld id)
  | .fixAlias id aliasName =>
      match s.assignAlias id aliasName with
      | .error _ => none
      | .ok _ => some (.fixed aliasName id)
  | _ => none

def namings (s : Scope) : List Action → List Naming
  | [] => []
  | a :: as => (s.naming? a).toList ++ (s.step a).namings as

theorem namings_append (s : Scope) (as bs : List Action) :
    s.namings (as ++ bs) = s.namings as ++ (s.run as).namings bs := by
  induction as generalizing s with
  | nil => rfl
  | cons a as ih => rw [List.cons_append, namings, ih, namings, List.append_assoc, run_cons]

inductive Names (s : Scope) : Option Naming → Scope → Prop
  | silent {t : Scope} : (∀ id, t.alias? id = s.alias? id) → t.aliases = s.aliases →
      t.reserved = s.reserved → Names s none t
  | drawn : Names s (some (.drawn s.nextAlias.1 none (s.aliases.searchLength s.reserved))) s.nextAlias.2
  | drawnFor {id : CriteriaId} : (s.slot? id).isSome → s.alias? id = none →
      Names s (some (.drawn s.nextAlias.1 (some id) (s.aliases.searchLength s.reserved)))
        (s.drawAlias id).2
  | fixed {id : CriteriaId} (aliasName : String) : (s.slot? id).isSome → s.alias? id = none →
      Names s (some (.fixed aliasName id))
        ({ s with reserved := s.reserved.add aliasName }.setAlias id aliasName)

theorem Names.nothing (s : Scope) : Names s none s :=
  .silent (fun _ => rfl) rfl rfl

inductive AliasAnswer (s : Scope) (id : CriteriaId) : Except ScopeError (String × Scope) → Prop
  | known {a : String} : s.alias? id = some a → AliasAnswer s id (.ok (a, s))
  | drawn : (s.slot? id).isSome → s.alias? id = none → AliasAnswer s id (.ok (s.drawAlias id))
  | refused (e : ScopeError) : AliasAnswer s id (.error e)

theorem aliasAnswer_aliasOf (s : Scope) (id : CriteriaId) : s.AliasAnswer id (s.aliasOf id) := by
  unfold aliasOf
  cases hslot : s.slot? id with
  | none => exact .refused _
  | some slot =>
      have halias := alias?_of_slot? hslot
      cases hname : slot.aliasName with
      | some current =>
          simp only [hname]
          exact .known (halias.trans hname)
      | none =>
          simp only [hname]
          split
          · exact .refused _
          · exact .drawn (by rw [hslot]; rfl) (halias.trans hname)

theorem aliasAnswer_aliasWhileHeld (s : Scope) (id : CriteriaId) :
    s.AliasAnswer id (s.aliasWhileHeld id) := by
  unfold aliasWhileHeld
  cases hslot : s.slot? id with
  | none => exact .refused _
  | some slot =>
      have halias := alias?_of_slot? hslot
      cases hname : slot.aliasName with
      | some current =>
          simp only [hname]
          exact .known (halias.trans hname)
      | none =>
          simp only [hname]
          exact .drawn (by rw [hslot]; rfl) (halias.trans hname)

theorem names_answer {s : Scope} {id : CriteriaId} {answer : Except ScopeError (String × Scope)}
    (h : s.AliasAnswer id answer) : s.Names (s.drawnFor id answer) (s.after answer) := by
  cases h with
  | @known a ha =>
      have hsilent : s.drawnFor id (.ok (a, s)) = none := by simp [drawnFor, ha]
      rw [hsilent]
      exact .nothing s
  | drawn hslot hnone =>
      have hdrawn : s.drawnFor id (.ok (s.drawAlias id)) =
          some (.drawn s.nextAlias.1 (some id) (s.aliases.searchLength s.reserved)) := by
        simp [drawnFor, hnone, drawAlias]
      rw [hdrawn]
      exact .drawnFor hslot hnone
  | refused e => exact .nothing s

theorem assignAlias_eq_ok_iff {s t : Scope} {id : CriteriaId} {aliasName : String} :
    s.assignAlias id aliasName = .ok t ↔ s.frozen = false ∧ (s.slot? id).isSome ∧ s.alias? id = none ∧
      { s with reserved := s.reserved.add aliasName }.setAlias id aliasName = t := by
  unfold assignAlias
  cases hfrozen : s.frozen with
  | true => simp
  | false =>
      cases hslot : s.slot? id with
      | none => simp
      | some slot =>
          have halias := alias?_of_slot? hslot
          cases hname : slot.aliasName <;> simp [halias, hname]

theorem names_fixAlias (s : Scope) (id : CriteriaId) (aliasName : String) :
    s.Names (s.naming? (.fixAlias id aliasName)) (s.step (.fixAlias id aliasName)) := by
  cases hfixed : s.assignAlias id aliasName with
  | error e =>
      simp only [naming?, step, hfixed]
      exact .nothing s
  | ok t =>
      obtain ⟨-, hslot, hnone, rfl⟩ := assignAlias_eq_ok_iff.mp hfixed
      simp only [naming?, step, hfixed]
      exact .fixed aliasName hslot hnone

theorem names_step (s : Scope) {a : Action} (ha : ∀ c, a ≠ .compile c) :
    s.Names (s.naming? a) (s.step a) := by
  cases a with
  | register entity parent =>
      rcases s.step_cases (.register entity parent) with heffect | ⟨hsame, -⟩
      · generalize s.step (.register entity parent) = t at heffect
        cases heffect
        exact .silent (alias?_append (by simp)) rfl rfl
      · rw [hsame]
        exact .nothing s
  | drawParameter => exact .silent (fun _ => rfl) rfl rfl
  | drawAlias => exact .drawn
  | aliasOf id => exact names_answer (s.aliasAnswer_aliasOf id)
  | aliasWhileHeld id => exact names_answer (s.aliasAnswer_aliasWhileHeld id)
  | fixAlias id aliasName => exact s.names_fixAlias id aliasName
  | freeze =>
      rcases s.step_cases .freeze with heffect | ⟨hsame, -⟩
      · generalize s.step .freeze = t at heffect
        cases heffect
        exact .silent (fun _ => rfl) rfl rfl
      · rw [hsame]
        exact .nothing s
  | unfreeze => exact .silent (fun _ => rfl) rfl rfl
  | compile c => exact absurd rfl (ha c)

structure Recorded (stem : String) (s : Scope) (h : List Naming) : Prop where
  counter : s.aliases = ({ stem } : NumberedNames).advance (Naming.draws h)
  reserved : ∀ a, s.reserved.has a = true ↔ ∃ id, .fixed a id ∈ h
  carried : ∀ id a, s.alias? id = some a ↔ ∃ n ∈ h, n.holder? = some id ∧ n.name = a
  once : (Naming.holders h).Nodup
  numbered : ∀ n ∈ h, n.isDrawn = true →
    ∃ i, i ≤ Naming.draws h ∧ n.name = NumberedNames.name stem (UInt64.ofNat i)
  fresh : h.Pairwise fun earlier later => later.isDrawn = true → earlier.name ≠ later.name

theorem recorded_fresh (config : Config) (registry : Model.Registry) :
    Recorded config.aliasPrefix (fresh config registry) [] where
  counter := by simp [fresh, Naming.draws]
  reserved a := by simp [fresh, NameSet.has, NameMap.get?]
  carried id a := by simp [fresh, alias?, slot?]
  once := List.nodup_nil
  numbered := by simp
  fresh := .nil

namespace Recorded

variable {stem : String} {s t : Scope} {h : List Naming}

theorem new_name (hs : Recorded stem s h)
    (hroom : Naming.draws h + s.aliases.searchLength s.reserved < UInt64.size) :
    s.nextAlias.1 = NumberedNames.name stem
        (UInt64.ofNat (Naming.draws h + s.aliases.searchLength s.reserved)) ∧
      ∀ m ∈ h, m.name ≠ s.nextAlias.1 := by
  have hissued : s.aliases.issued = UInt64.ofNat (Naming.draws h) := by
    rw [hs.counter]
    simp [NumberedNames.advance]
  have hstem : s.aliases.stem = stem := by rw [hs.counter]; rfl
  have hname : s.nextAlias.1 = NumberedNames.name stem
      (UInt64.ofNat (Naming.draws h + s.aliases.searchLength s.reserved)) := by
    have heq := congrArg Prod.fst (NumberedNames.drawFree_eq s.reserved s.aliases)
    rw [hissued, hstem, ← UInt64.ofNat_add] at heq
    exact heq
  refine ⟨hname, fun m hm hclash => ?_⟩
  cases hdrawn : m.isDrawn with
  | true =>
      obtain ⟨i, hi, hm⟩ := hs.numbered m hm hdrawn
      have hsame := NumberedNames.name_inj (hm.symm.trans (hclash.trans hname))
      have hpos := s.aliases.searchLength_pos s.reserved
      have hnumber := congrArg UInt64.toNat hsame
      rw [UInt64.toNat_ofNat_of_lt' (by omega), UInt64.toNat_ofNat_of_lt' hroom] at hnumber
      omega
  | false =>
      have hfree : s.reserved.has s.nextAlias.1 = false := by
        refine NumberedNames.free_drawFree ?_
        rw [hissued, UInt64.toNat_ofNat_of_lt' (by omega)]
        exact hroom
      obtain ⟨id, hid⟩ : ∃ id, Naming.fixed m.name id ∈ h := by
        cases m with
        | drawn name holder count => cases hdrawn
        | fixed name holder => exact ⟨holder, hm⟩
      rw [← hclash, (hs.reserved m.name).mpr ⟨id, hid⟩] at hfree
      cases hfree

theorem not_mem_holders (hs : Recorded stem s h) {id : CriteriaId} (hnone : s.alias? id = none) :
    id ∉ Naming.holders h := by
  intro hid
  obtain ⟨n, hn, hholder⟩ := List.mem_filterMap.mp hid
  rw [(hs.carried id n.name).mpr ⟨n, hn, hholder, rfl⟩] at hnone
  cases hnone

theorem enter (hs : Recorded stem s h) {n : Naming} (hcounter : t.aliases = s.aliases.advance n.count)
    (hreserved : ∀ a, t.reserved.has a = true ↔ s.reserved.has a = true ∨ ∃ id, n = .fixed a id)
    (hcarried : ∀ id a, t.alias? id = some a ↔ s.alias? id = some a ∨ n.holder? = some id ∧ n.name = a)
    (hbare : ∀ id ∈ n.holder?, s.alias? id = none)
    (hdrawn : n.isDrawn = true →
      n.name = NumberedNames.name stem (UInt64.ofNat (Naming.draws h + n.count)) ∧
        ∀ m ∈ h, m.name ≠ n.name) :
    Recorded stem t (h ++ [n]) := by
  have hdraws : Naming.draws (h ++ [n]) = Naming.draws h + n.count := by
    rw [Naming.draws_append]
    simp [Naming.draws]
  refine ⟨?_, fun a => ?_, fun id a => ?_, ?_, fun m hm hmdrawn => ?_, ?_⟩
  · rw [hcounter, hs.counter, NumberedNames.advance_advance, hdraws]
  · rw [hreserved, hs.reserved]
    simp only [List.mem_append, List.mem_singleton, exists_or, eq_comm]
  · rw [hcarried, hs.carried]
    simp only [List.mem_append, List.mem_singleton, or_and_right, exists_or, exists_eq_left]
  · rw [Naming.holders_append]
    refine List.nodup_append.mpr ⟨hs.once, ?_, fun id hid last hlast => ?_⟩
    · cases hholder : n.holder? <;> simp [Naming.holders, hholder]
    · obtain ⟨m, hm, hholder⟩ := List.mem_filterMap.mp hlast
      rw [List.mem_singleton.mp hm] at hholder
      rintro rfl
      exact hs.not_mem_holders (hbare id hholder) hid
  · rw [hdraws]
    rcases List.mem_append.mp hm with hold | hlast
    · obtain ⟨i, hi, hm⟩ := hs.numbered m hold hmdrawn
      exact ⟨i, Nat.le_add_right_of_le hi, hm⟩
    · obtain rfl := List.mem_singleton.mp hlast
      exact ⟨_, Nat.le_refl _, (hdrawn hmdrawn).1⟩
  · refine List.pairwise_append.mpr
      ⟨hs.fresh, List.pairwise_singleton _ _, fun m hm last hlast hlastdrawn => ?_⟩
    obtain rfl := List.mem_singleton.mp hlast
    exact (hdrawn hlastdrawn).2 m hm

theorem draw (hs : Recorded stem s h)
    (hroom : Naming.draws h + s.aliases.searchLength s.reserved < UInt64.size)
    {holder : Option CriteriaId} (hbare : ∀ id ∈ holder, s.alias? id = none)
    (haliases : t.aliases = s.nextAlias.2.aliases) (hreserved : t.reserved = s.reserved)
    (hcarried : ∀ id a, t.alias? id = some a ↔
      s.alias? id = some a ∨ holder = some id ∧ s.nextAlias.1 = a) :
    Recorded stem t (h ++ [.drawn s.nextAlias.1 holder (s.aliases.searchLength s.reserved)]) := by
  refine hs.enter ?_ (fun a => ?_) hcarried hbare fun _ => hs.new_name hroom
  · rw [haliases]
    exact congrArg Prod.snd (NumberedNames.drawFree_eq s.reserved s.aliases)
  · rw [hreserved]
    simp

theorem fix (hs : Recorded stem s h) {id : CriteriaId} {aliasName : String} (hnone : s.alias? id = none)
    (haliases : t.aliases = s.aliases) (hreserved : t.reserved = s.reserved.add aliasName)
    (hcarried : ∀ other a, t.alias? other = some a ↔
      s.alias? other = some a ∨ id = other ∧ aliasName = a) :
    Recorded stem t (h ++ [.fixed aliasName id]) := by
  refine hs.enter ?_ (fun a => ?_) (fun other a => ?_) ?_ (by rintro ⟨⟩)
  · rw [haliases]
    exact (NumberedNames.advance_zero _).symm
  · rw [hreserved]
    by_cases ha : a = aliasName
    · subst ha
      simp [NameSet.has_add_self]
    · simp [NameSet.has_add_of_ne _ ha, Ne.symm ha]
  · rw [hcarried, Naming.holder?, Option.some.injEq]
    rfl
  · rintro other ⟨⟩
    exact hnone

end Recorded

theorem alias?_setAlias_iff {s : Scope} {id : CriteriaId} (hslot : (s.slot? id).isSome)
    (hnone : s.alias? id = none) (aliasName : String) (other : CriteriaId) (a : String) :
    (s.setAlias id aliasName).alias? other = some a ↔
      s.alias? other = some a ∨ id = other ∧ aliasName = a := by
  by_cases hid : other = id
  · subst hid
    simp [alias?_setAlias_self hslot, hnone]
  · simp [alias?_setAlias_of_ne hid, Ne.symm hid]

theorem recorded_names {stem : String} {s t : Scope} {h : List Naming} {n? : Option Naming}
    (hs : Recorded stem s h) (hnames : s.Names n? t)
    (hroom : Naming.draws h + Naming.draws n?.toList < UInt64.size) :
    Recorded stem t (h ++ n?.toList) := by
  cases hnames with
  | silent halias haliases hreserved =>
      rw [Option.toList_none, List.append_nil]
      exact ⟨haliases ▸ hs.counter, fun a => hreserved ▸ hs.reserved a,
        fun id a => halias id ▸ hs.carried id a, hs.once, hs.numbered, hs.fresh⟩
  | drawn =>
      refine hs.draw hroom (by simp) rfl rfl fun id a => ?_
      have hsame : s.nextAlias.2.alias? id = s.alias? id := rfl
      simp [hsame]
  | @drawnFor id hslot hnone =>
      refine hs.draw hroom (by simpa using hnone) rfl rfl fun other a => ?_
      rw [Option.some.injEq]
      exact alias?_setAlias_iff (s := s.nextAlias.2) hslot hnone s.nextAlias.1 other a
  | fixed aliasName hslot hnone =>
      exact hs.fix hnone rfl rfl (alias?_setAlias_iff hslot hnone aliasName)

theorem recorded_run {stem : String} {s : Scope} {h : List Naming} (hs : Recorded stem s h)
    {as : List Action} (has : ∀ a ∈ as, ∀ c, a ≠ .compile c)
    (hroom : Naming.draws h + Naming.draws (s.namings as) < UInt64.size) :
    Recorded stem (s.run as) (h ++ s.namings as) := by
  induction as generalizing s h with
  | nil => simpa [namings, run] using hs
  | cons a as ih =>
      obtain ⟨ha, has⟩ := List.forall_mem_cons.mp has
      rw [namings, Naming.draws_append] at hroom
      rw [namings, run_cons, ← List.append_assoc]
      refine ih (recorded_names hs (s.names_step ha) (by omega)) has ?_
      rw [Naming.draws_append]
      omega

theorem eq_fixAlias_of_naming? {s : Scope} {a : Action} {name : String} {id : CriteriaId}
    (h : s.naming? a = some (.fixed name id)) : a = .fixAlias id name := by
  have hasked : ∀ other answer, s.drawnFor other answer ≠ some (.fixed name id) := by
    intro other answer hanswer
    unfold drawnFor at hanswer
    split at hanswer
    · cases hanswer
    · split at hanswer <;> cases hanswer
  cases a with
  | aliasOf other => exact absurd h (hasked _ _)
  | aliasWhileHeld other => exact absurd h (hasked _ _)
  | fixAlias other aliasName =>
      simp only [naming?] at h
      split at h
      · cases h
      · cases h
        rfl
  | _ => cases h

theorem fixAlias_mem_of_fixed_mem {s : Scope} {as : List Action} {name : String} {id : CriteriaId}
    (h : .fixed name id ∈ s.namings as) : .fixAlias id name ∈ as := by
  induction as generalizing s with
  | nil => cases h
  | cons a as ih =>
      rcases List.mem_append.mp h with hfirst | hrest
      · rw [eq_fixAlias_of_naming? (Option.mem_toList.mp hfirst)]
        exact List.mem_cons_self
      · exact List.mem_cons_of_mem _ (ih hrest)

theorem fixAlias_mem_unfolded {s : Scope} {as : List Action} {name : String} {id : CriteriaId}
    (h : .fixAlias id name ∈ s.unfolded as) : .fixAlias id name ∈ as := by
  induction as generalizing s with
  | nil => cases h
  | cons a as ih =>
      rcases List.mem_append.mp h with hfirst | hrest
      · cases a with
        | compile c =>
            rw [parts] at hfirst
            split at hfirst
            · cases hfirst
            · simp [inner] at hfirst
        | _ =>
            rw [List.mem_singleton.mp hfirst]
            exact List.mem_cons_self
      · exact List.mem_cons_of_mem _ (ih hrest)

end Scope

end QueryCriteria
