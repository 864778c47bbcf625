import QueryCriteria.Compile.Clauses

namespace QueryCriteria

namespace SqlPart

variable {α β : Type} [SqlPart α]

structure Blind (h : α → Option β) : Prop where
  sql : ∀ s, h (sql s) = none
  heading : ∀ keyword parts, h (heading keyword parts) = none
  empty : ∀ a, isEmpty a = true → h a = none

variable [SqlPart β]

structure Faithful (f : α → β) : Prop where
  sql : ∀ s, f (SqlPart.sql s) = SqlPart.sql s
  heading : ∀ keyword parts, f (SqlPart.heading keyword parts) = SqlPart.heading keyword (parts.map f)
  isEmpty : ∀ a, SqlPart.isEmpty (f a) = SqlPart.isEmpty a

end SqlPart

namespace Clauses

open SqlPart

section Blind

variable {α β : Type} [SqlPart α] {h : α → Option β}

theorem filterMap_clause (hb : Blind h) (keyword : String) (parts : List α) :
    (clause keyword parts).filterMap h = parts.filterMap h := by
  unfold clause
  split
  next hall =>
    have hnone : ∀ a ∈ parts, h a = none := fun a ha => hb.empty a (List.all_eq_true.mp hall a ha)
    rw [List.filterMap_nil, List.filterMap_eq_nil_iff.mpr hnone]
  next => rw [List.filterMap_cons_none (hb.heading keyword parts)]

theorem filterMap_query (hb : Blind h) (select source filter group order : List α) :
    (query select source filter group order).filterMap h =
      select.filterMap h ++ source.filterMap h ++ filter.filterMap h ++ group.filterMap h ++
        order.filterMap h := by
  simp [query, filterMap_clause hb, hb.sql]

theorem filterMap_windowParts (hb : Blind h) (window : Option Window) :
    (windowParts window).filterMap h = [] := by
  cases window <;> simp [windowParts, hb.sql]

theorem filterMap_statement (hb : Blind h) (c : Clauses α) :
    c.statement.filterMap h =
      c.select.filterMap h ++ c.source.filterMap h ++ c.filter.filterMap h ++ c.group.filterMap h ++
        c.order.filterMap h := by
  simp [statement, filterMap_query hb, filterMap_windowParts hb]

theorem filterMap_countStatement (hb : Blind h) {c : Clauses α} (hselect : c.select.filterMap h = [])
    (hgroup : c.group.filterMap h = []) (horder : c.order.filterMap h = []) (distinct keepOrder : Bool) :
    (c.countStatement distinct keepOrder).filterMap h = c.source.filterMap h ++ c.filter.filterMap h := by
  unfold countStatement
  split
  · simp [filterMap_query hb, hb.sql]
  · cases keepOrder <;> simp [filterMap_query hb, hb.sql, hselect, hgroup, horder]

theorem mem_clause {keyword : String} {parts : List α} {a : α} (ha : a ∈ parts)
    (hne : isEmpty a = false) : a ∈ clause keyword parts := by
  unfold clause
  split
  next hall => simp [List.all_eq_true.mp hall a ha] at hne
  next => exact List.mem_cons_of_mem _ ha

theorem mem_statement {c : Clauses α} {a : α} (ha : a ∈ c.bindingOrder) (hne : isEmpty a = false) :
    a ∈ c.statement := by
  simp only [bindingOrder, List.mem_append] at ha
  simp only [statement, query, List.mem_append, List.mem_cons]
  rcases ha with (((ha | ha) | ha) | ha) | ha
  · simp [ha]
  · simp [mem_clause ha hne]
  · simp [mem_clause ha hne]
  · simp [mem_clause ha hne]
  · simp [ha]

theorem mem_of_mem_clause {keyword : String} {parts : List α} {a : α} (ha : a ∈ clause keyword parts) :
    a ∈ parts ∨ a = heading keyword parts := by
  unfold clause at ha
  split at ha
  · simp at ha
  · exact (List.mem_cons.mp ha).symm

theorem mem_bindingOrder {c : Clauses α} {a : α} (ha : a ∈ c.statement) :
    a ∈ c.bindingOrder ∨ (∃ s, a = sql s) ∨
      ∃ keyword parts, parts ⊆ c.bindingOrder ∧ a = heading keyword parts := by
  simp only [statement, query, List.mem_append, List.mem_cons] at ha
  have hfilter : c.filter ⊆ c.bindingOrder := fun b hb => by simp [bindingOrder, hb]
  have hgroup : c.group ⊆ c.bindingOrder := fun b hb => by simp [bindingOrder, hb]
  have horder : c.order ⊆ c.bindingOrder := fun b hb => by simp [bindingOrder, hb]
  have hclause : ∀ {keyword : String} {parts : List α}, parts ⊆ c.bindingOrder → a ∈ clause keyword parts →
      a ∈ c.bindingOrder ∨ (∃ s, a = sql s) ∨
        ∃ keyword parts, parts ⊆ c.bindingOrder ∧ a = heading keyword parts := fun hparts ha =>
    (mem_of_mem_clause ha).imp (@hparts a) fun heq => .inr ⟨_, _, hparts, heq⟩
  rcases ha with (((((rfl | ha) | rfl | ha) | ha) | ha) | ha) | ha
  · exact .inr (.inl ⟨_, rfl⟩)
  · exact .inl (by simp [bindingOrder, ha])
  · exact .inr (.inl ⟨_, rfl⟩)
  · exact .inl (by simp [bindingOrder, ha])
  · exact hclause hfilter ha
  · exact hclause hgroup ha
  · exact hclause horder ha
  · cases hw : c.window with
    | none => simp [hw, windowParts] at ha
    | some w =>
        simp only [hw, windowParts, List.mem_singleton] at ha
        exact .inr (.inl ⟨w.text, ha⟩)

end Blind

section Infix

variable {α : Type} [SqlPart α] {l : List α}

theorem source_infix_statement (c : Clauses α) : c.source <:+: c.statement := by
  rw [statement, query]
  exact ⟨sql "SELECT " :: c.select ++ [sql " FROM "], clause " WHERE " c.filter ++
    clause " GROUP BY " c.group ++ clause " ORDER BY " c.order ++ windowParts c.window, by simp⟩

theorem infix_statement_of_filter {c : Clauses α} (h : l <:+: c.filter) (hne : ∃ a ∈ l, isEmpty a = false) :
    l <:+: c.statement := by
  obtain ⟨a, ha, hne⟩ := hne
  have hall : ¬ c.filter.all isEmpty = true := fun hall => by
    simp [List.all_eq_true.mp hall a (h.subset ha)] at hne
  refine h.trans ?_
  rw [statement, query, clause, if_neg hall]
  exact ⟨sql "SELECT " :: c.select ++ sql " FROM " :: c.source ++ [heading " WHERE " c.filter],
    clause " GROUP BY " c.group ++ clause " ORDER BY " c.order ++ windowParts c.window, by simp⟩

end Infix

theorem map_congr {α β : Type} {f g : α → β} {c : Clauses α} (h : ∀ a ∈ c.bindingOrder, f a = g a) :
    c.map f = c.map g := by
  simp only [bindingOrder, List.mem_append] at h
  have hselect := List.map_congr_left fun a ha => h a (.inr ha)
  have horder := List.map_congr_left fun a ha => h a (.inl (.inr ha))
  have hgroup := List.map_congr_left fun a ha => h a (.inl (.inl (.inr ha)))
  have hfilter := List.map_congr_left fun a ha => h a (.inl (.inl (.inl (.inr ha))))
  have hsource := List.map_congr_left fun a ha => h a (.inl (.inl (.inl (.inl ha))))
  simp only [map, hselect, hsource, hfilter, hgroup, horder]

section Map

variable {α β : Type} [SqlPart α] [SqlPart β] {f : α → β}

variable (hf : Faithful f)
include hf

theorem all_isEmpty_map (parts : List α) : (parts.map f).all isEmpty = parts.all isEmpty := by
  rw [List.all_map]
  exact congrArg parts.all (funext hf.isEmpty)

theorem clause_map (keyword : String) (parts : List α) :
    clause keyword (parts.map f) = (clause keyword parts).map f := by
  unfold clause
  rw [all_isEmpty_map hf]
  split
  · rfl
  · rw [List.map_cons, hf.heading]

theorem query_map (select source filter group order : List α) :
    query (select.map f) (source.map f) (filter.map f) (group.map f) (order.map f) =
      (query select source filter group order).map f := by
  simp [query, clause_map hf, hf.sql]

theorem statement_map (c : Clauses α) : (c.map f).statement = c.statement.map f := by
  have hwindow : windowParts c.window = (windowParts (α := α) c.window).map f := by
    cases c.window <;> simp [windowParts, hf.sql]
  simp [statement, map, query_map hf, hwindow]

theorem countStatement_map (distinct keepOrder : Bool) (c : Clauses α) :
    (c.map f).countStatement distinct keepOrder = (c.countStatement distinct keepOrder).map f := by
  have horder : (if keepOrder then c.order.map f else []) =
      (if keepOrder then c.order else []).map f := by
    cases keepOrder <;> rfl
  have hcount : query [SqlPart.sql "COUNT(*)"] (c.source.map f) (c.filter.map f) [] [] =
      (query [SqlPart.sql "COUNT(*)"] c.source c.filter [] []).map f := by
    simpa [hf.sql] using query_map hf [SqlPart.sql "COUNT(*)"] c.source c.filter [] []
  simp only [countStatement, map, all_isEmpty_map hf, horder, query_map hf, hcount]
  split
  · rfl
  · simp [hf.sql]

end Map

end Clauses

end QueryCriteria
