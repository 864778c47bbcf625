import Mathlib.Data.List.Nodup
import QueryCriteria.Model.Registry

namespace QueryCriteria.Model

section Unique

variable {α : Type} {p : α → Bool} {l : List α} {a : α}

theorem filter_eq_singleton_iff (h : (l.filter p).length ≤ 1) : l.filter p = [a] ↔ a ∈ l ∧ p a = true := by
  rw [← List.mem_filter]
  constructor
  · intro heq
    rw [heq]
    exact List.mem_singleton.mpr rfl
  · intro hmem
    obtain ⟨b, hb⟩ := List.length_eq_one_iff.mp (Nat.le_antisymm h (List.length_pos_of_mem hmem))
    rw [hb] at hmem ⊢
    rw [List.mem_singleton.mp hmem]

theorem find?_eq_some_iff_filter (h : (l.filter p).length ≤ 1) : l.find? p = some a ↔ l.filter p = [a] := by
  rw [← List.head?_filter]
  constructor
  · intro hhead
    obtain ⟨rest, hrest⟩ := List.head?_eq_some_iff.mp hhead
    exact (filter_eq_singleton_iff h).mpr (List.mem_filter.mp (hrest ▸ List.mem_cons_self))
  · intro heq
    rw [heq]
    rfl

theorem length_filter_key_le {key : α → String} (h : (l.map key).Nodup) (k : String) :
    (l.filter (key · == k)).length ≤ 1 := by
  have hcount := List.nodup_iff_count_le_one.mp h k
  rwa [List.count, List.countP_map, List.countP_eq_length_filter] at hcount

end Unique

namespace Entity

variable {e : Entity} {property : String} {c : Column}

def mapped (e : Entity) (property : String) : List Column :=
  e.columns.filter (·.property == property)

theorem WellFormed.length_mapped_le (h : e.WellFormed) (property : String) : (e.mapped property).length ≤ 1 :=
  length_filter_key_le h.properties property

theorem WellFormed.property?_eq_some_iff (h : e.WellFormed) :
    e.property? property = some c ↔ c ∈ e.columns ∧ c.property = property := by
  rw [Entity.property?, find?_eq_some_iff_filter (h.length_mapped_le property),
    filter_eq_singleton_iff (h.length_mapped_le property), beq_iff_eq]

theorem WellFormed.mapped_eq_singleton (h : e.WellFormed) (hproperty : e.property? property = some c) :
    e.mapped property = [c] :=
  (find?_eq_some_iff_filter (h.length_mapped_le property)).mp hproperty

theorem WellFormed.idColumn?_eq_some_iff (h : e.WellFormed) :
    e.idColumn? = some c ↔ e.primaryColumns = [c] :=
  find?_eq_some_iff_filter h.primary

end Entity

namespace Registry

variable {r s : Registry} {e held : Entity} {name : String} {calls : List Entity}

theorem register_eq_ok_iff :
    r.register e = .ok s ↔ e.WellFormed ∧ r.entity? e.name = none ∧ s = ⟨r.entities ++ [e]⟩ := by
  rw [← Entity.validate_eq_ok_iff, register]
  cases e.validate with
  | error err => simp
  | ok =>
      cases r.entity? e.name with
      | none => simp [eq_comm]
      | some held => simp

def Accepts (r : Registry) (e : Entity) : Prop :=
  ∃ s, r.register e = .ok s

theorem accepts_iff : r.Accepts e ↔ e.WellFormed ∧ r.entity? e.name = none := by
  simp [Accepts, register_eq_ok_iff]

theorem register_eq_error_iff :
    (∃ err, r.register e = .error err) ↔ ¬ e.WellFormed ∨ (r.entity? e.name).isSome := by
  have hrefused : (∃ err, r.register e = .error err) ↔ ¬ r.Accepts e := by
    rw [Accepts]
    cases r.register e <;> simp
  rw [hrefused, accepts_iff, ← Option.not_isSome_iff_eq_none]
  tauto

def attempt (r : Registry) (e : Entity) : Registry :=
  match r.register e with
  | .ok s => s
  | .error _ => r

def run (r : Registry) (calls : List Entity) : Registry :=
  calls.foldl attempt r

theorem run_append (r : Registry) (calls more : List Entity) : r.run (calls ++ more) = (r.run calls).run more :=
  List.foldl_append

theorem attempt_of_accepts (h : r.Accepts e) : (r.attempt e).entities = r.entities ++ [e] := by
  obtain ⟨s, hs⟩ := h
  rw [attempt, hs]
  exact entities_of_register hs

theorem attempt_of_not_accepts (h : ¬ r.Accepts e) : r.attempt e = r := by
  rw [attempt]
  cases hregister : r.register e with
  | error err => rfl
  | ok s => exact absurd ⟨s, hregister⟩ h

structure Sound (r : Registry) : Prop where
  wellFormed : ∀ e ∈ r.entities, e.WellFormed
  names : (r.entities.map Entity.name).Nodup

theorem Sound.entity?_eq_some_iff (h : r.Sound) : r.entity? name = some e ↔ e ∈ r.entities ∧ e.name = name := by
  have hle := length_filter_key_le h.names name
  rw [entity?, find?_eq_some_iff_filter hle, filter_eq_singleton_iff hle, beq_iff_eq]

theorem Sound.attempt (h : r.Sound) (e : Entity) : (r.attempt e).Sound := by
  by_cases haccepts : r.Accepts e
  · obtain ⟨hwell, hnew⟩ := accepts_iff.mp haccepts
    have hentities := attempt_of_accepts haccepts
    constructor
    · rw [hentities]
      exact List.forall_mem_append.mpr ⟨h.wellFormed, List.forall_mem_singleton.mpr hwell⟩
    · rw [hentities, List.map_append]
      refine h.names.append (List.nodup_singleton _) ?_
      rw [List.map_singleton, List.disjoint_singleton, List.mem_map]
      rintro ⟨held, hheld, hname⟩
      rw [(h.entity?_eq_some_iff).mpr ⟨hheld, hname⟩] at hnew
      cases hnew
  · rwa [attempt_of_not_accepts haccepts]

theorem Sound.run (h : r.Sound) (calls : List Entity) : (r.run calls).Sound := by
  induction calls generalizing r with
  | nil => exact h
  | cons e rest ih => exact ih (h.attempt e)

theorem sound_empty : ({} : Registry).Sound where
  wellFormed := by simp
  names := List.nodup_nil

theorem mem_attempt : held ∈ (r.attempt e).entities ↔ held ∈ r.entities ∨ held = e ∧ r.Accepts e := by
  by_cases haccepts : r.Accepts e
  · simp [attempt_of_accepts haccepts, haccepts]
  · simp [attempt_of_not_accepts haccepts, haccepts]

theorem mem_run : held ∈ (r.run calls).entities ↔
    held ∈ r.entities ∨ ∃ before after, calls = before ++ held :: after ∧ (r.run before).Accepts held := by
  induction calls generalizing r with
  | nil => simp [run]
  | cons e rest ih =>
      have hrun : r.run (e :: rest) = (r.attempt e).run rest := rfl
      rw [hrun, ih, mem_attempt, or_assoc]
      refine or_congr_right ?_
      constructor
      · rintro (⟨rfl, haccepts⟩ | ⟨before, after, rfl, haccepts⟩)
        · exact ⟨[], rest, rfl, haccepts⟩
        · exact ⟨e :: before, after, rfl, haccepts⟩
      · rintro ⟨before, after, hsplit, haccepts⟩
        cases before with
        | nil =>
            obtain ⟨rfl, -⟩ := List.cons.inj hsplit
            exact .inl ⟨rfl, haccepts⟩
        | cons first before =>
            obtain ⟨rfl, rfl⟩ := List.cons.inj hsplit
            exact .inr ⟨before, after, rfl, haccepts⟩

def taken (r : Registry) : List Entity → List Entity
  | [] => []
  | e :: rest =>
      match r.register e with
      | .ok s => e :: s.taken rest
      | .error _ => r.taken rest

theorem entities_run (r : Registry) (calls : List Entity) :
    (r.run calls).entities = r.entities ++ r.taken calls := by
  induction calls generalizing r with
  | nil => simp [run, taken]
  | cons e rest ih =>
      have hrun : r.run (e :: rest) = (r.attempt e).run rest := rfl
      rw [hrun, taken, attempt]
      cases hregister : r.register e with
      | error err => exact ih r
      | ok s => rw [ih s, entities_of_register hregister, List.append_assoc, List.singleton_append]

theorem entity?_of_register (h : r.register e = .ok s) :
    s.entity? name = if e.name = name then some e else r.entity? name := by
  obtain ⟨-, hnew, rfl⟩ := register_eq_ok_iff.mp h
  rw [entity?, List.find?_append, ← entity?]
  by_cases hname : e.name = name
  · subst hname
    rw [hnew, if_pos rfl]
    simp
  · simp [hname]

theorem Sound.entity?_run_of_some (h : r.Sound) (hheld : r.entity? name = some held) (calls : List Entity) :
    (r.run calls).entity? name = some held := by
  obtain ⟨hmem, hname⟩ := h.entity?_eq_some_iff.mp hheld
  exact (h.run calls).entity?_eq_some_iff.mpr ⟨mem_run.mpr (.inl hmem), hname⟩

theorem Sound.wellFormed_of_entity? (h : r.Sound) (hheld : r.entity? name = some held) : held.WellFormed :=
  h.wellFormed held (h.entity?_eq_some_iff.mp hheld).1

variable {entity property : String} {c : Column}

theorem Sound.column?_eq_some_iff (h : r.Sound) : r.column? entity property = some c ↔
    ∃ e, r.entity? entity = some e ∧ c ∈ e.columns ∧ c.property = property := by
  rw [column?, Option.bind_eq_some_iff]
  refine exists_congr fun e => and_congr_right fun he => ?_
  exact (h.wellFormed_of_entity? he).property?_eq_some_iff

theorem Sound.mapped_of_column? (h : r.Sound) (hc : r.column? entity property = some c) :
    ∃ e, r.entity? entity = some e ∧ e.mapped property = [c] := by
  obtain ⟨e, he, hproperty⟩ := Option.bind_eq_some_iff.mp hc
  exact ⟨e, he, (h.wellFormed_of_entity? he).mapped_eq_singleton hproperty⟩

theorem Sound.idColumn?_eq_some_iff (h : r.Sound) : r.idColumn? entity = some c ↔
    ∃ e, r.entity? entity = some e ∧ e.primaryColumns = [c] := by
  rw [idColumn?, Option.bind_eq_some_iff]
  refine exists_congr fun e => and_congr_right fun he => ?_
  exact (h.wellFormed_of_entity? he).idColumn?_eq_some_iff

end Registry

theorem registry_holds_what_it_took (calls : List Entity) :
    let r := Registry.run {} calls
    r.entities = Registry.taken {} calls ∧
    (∀ name e, r.entity? name = some e ↔ e.name = name ∧
      ∃ before after, calls = before ++ e :: after ∧ (Registry.run {} before).Accepts e) ∧
    (∀ name e, r.entity? name = some e →
      e.WellFormed ∧ ∀ more, (Registry.run {} (calls ++ more)).entity? name = some e) ∧
    (∀ e, (∃ err, r.register e = .error err) ↔ ¬ e.WellFormed ∨ (r.entity? e.name).isSome) ∧
    (∀ e err, r.register e = .error err → Registry.run {} (calls ++ [e]) = r) ∧
    (∀ e s, r.register e = .ok s → Registry.run {} (calls ++ [e]) = s ∧
      ∀ name, s.entity? name = if e.name = name then some e else r.entity? name) ∧
    (∀ entity property c, r.column? entity property = some c ↔
      ∃ e, r.entity? entity = some e ∧ c ∈ e.columns ∧ c.property = property) ∧
    (∀ entity property c, r.column? entity property = some c →
      ∃ e, r.entity? entity = some e ∧ e.mapped property = [c]) ∧
    ∀ entity c, r.idColumn? entity = some c ↔ ∃ e, r.entity? entity = some e ∧ e.primaryColumns = [c] := by
  intro r
  have hsound : r.Sound := Registry.sound_empty.run calls
  have hlast : ∀ e, Registry.run {} (calls ++ [e]) = r.attempt e :=
    fun e => Registry.run_append {} calls [e]
  refine ⟨?_, fun name e => ?_, fun name e he => ⟨hsound.wellFormed_of_entity? he, fun more => ?_⟩,
    fun e => Registry.register_eq_error_iff, fun e err herr => ?_, fun e s hs => ⟨?_, fun name => ?_⟩,
    fun _ _ _ => hsound.column?_eq_some_iff, fun _ _ _ => hsound.mapped_of_column?,
    fun _ _ => hsound.idColumn?_eq_some_iff⟩
  · exact Registry.entities_run {} calls
  · rw [hsound.entity?_eq_some_iff, Registry.mem_run, and_comm]
    simp
  · rw [Registry.run_append]
    exact hsound.entity?_run_of_some he more
  · rw [hlast, Registry.attempt, herr]
  · rw [hlast, Registry.attempt, hs]
  · exact Registry.entity?_of_register hs

def invoice : Entity where
  name := "Invoice"
  table := "invoices"
  columns :=
    [{ name := "id", property := "key", flags := .ofList [.primary] }, { name := "total", property := "amount" }]

def deliveries : List Entity :=
  [invoice, { invoice with table := "bills" },
    { name := "Payment", table := "payments"
      columns := [{ name := "id", property := "key" }, { name := "number", property := "key" }] }]

theorem invoice_kept : (Registry.run {} deliveries).entities = [invoice] ∧
    (∀ more, (Registry.run {} (deliveries ++ more)).entity? "Invoice" = some invoice) ∧
    (Registry.run {} deliveries).column? "Invoice" "amount" = some { name := "total", property := "amount" } ∧
    (Registry.run {} deliveries).idColumn? "Invoice" =
      some { name := "id", property := "key", flags := .ofList [.primary] } := by
  obtain ⟨hentities, -, hkept, -, -, -, hcolumn, -, hid⟩ := registry_holds_what_it_took deliveries
  have htaken : Registry.taken {} deliveries = [invoice] := by decide +kernel
  rw [htaken] at hentities
  have hheld : (Registry.run {} deliveries).entity? "Invoice" = some invoice := by
    rw [Registry.entity?, hentities]
    rfl
  exact ⟨hentities, (hkept _ _ hheld).2, (hcolumn _ _ _).mpr ⟨invoice, hheld, by decide, rfl⟩,
    (hid _ _).mpr ⟨invoice, hheld, rfl⟩⟩

end QueryCriteria.Model
