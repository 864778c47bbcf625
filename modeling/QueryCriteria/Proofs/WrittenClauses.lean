import QueryCriteria.Proofs.ColumnUses
import QueryCriteria.Proofs.Pieces
import QueryCriteria.Proofs.TestFragments

namespace QueryCriteria

open Fragment

namespace Piece

variable {α : Type} {ps qs : List (Piece α)}

def written (ps : List (Piece α)) : List (Piece α) :=
  ps.filter fun p => !SqlPart.isEmpty p

theorem isEmpty_text (s : String) : SqlPart.isEmpty (text s : Piece α) = (s == "") := rfl

theorem written_append (ps qs : List (Piece α)) : written (ps ++ qs) = written ps ++ written qs :=
  List.filter_append ps qs

theorem written_of_all_isEmpty (h : ps.all SqlPart.isEmpty = true) : written ps = [] := by
  refine List.filter_eq_nil_iff.mpr fun p hp => ?_
  simp [List.all_eq_true.mp h p hp]

theorem filled_written (ps : List (Piece α)) (words : List String) :
    filled (written ps) words = filled ps words := by
  induction ps generalizing words with
  | nil => rfl
  | cons p ps ih =>
      cases p with
      | text s =>
          by_cases hs : s = ""
          · subst hs
            rw [written, List.filter_cons_of_neg (by simp [isEmpty_text]), ← written, ih, filled,
              String.empty_append]
          · rw [written, List.filter_cons_of_pos (by simp [isEmpty_text, hs]), ← written, filled, filled, ih]
      | hole a =>
          rw [written, List.filter_cons_of_pos (by rfl), ← written]
          cases words with
          | nil => exact ih []
          | cons word words => exact congrArg (word ++ ·) (ih words)

end Piece

namespace Fragment

variable {ctx : Context} {fs : List Fragment}

theorem isEmpty_piece_of_isEmpty {f : Fragment} (h : f.isEmpty = true) :
    SqlPart.isEmpty (f.piece ctx) = true := by
  cases f with
  | sql s => exact h
  | lead connective => cases connective <;> first | rfl | cases h
  | _ => cases h

theorem isEmpty_piece_column (use : ColumnUse) :
    SqlPart.isEmpty ((Fragment.column use).piece ctx) = (use.text ctx == "") := rfl

def isSolid : Fragment → Bool
  | .sql text => text != ""
  | .keyword _ _ => false
  | .column _ => false
  | .lead none => false
  | _ => true

theorem isEmpty_piece_of_solid {f : Fragment} (hreject : f.isReject = false) (h : f.isSolid = true) :
    SqlPart.isEmpty (f.piece ctx) = false := by
  cases f with
  | sql s => simpa [isSolid, piece, Piece.isEmpty_text] using h
  | reject e => cases hreject
  | rejectEmpty use => cases hreject
  | lead connective => cases connective <;> simp_all [piece, Piece.isEmpty_text, isSolid]
  | source id table => simp [piece, Piece.isEmpty_text]
  | openGroup negated => cases negated <;> rfl
  | bind v => rfl
  | closeGroup => rfl
  | openQuery => rfl
  | closeQuery => rfl
  | _ => cases h

theorem not_columns_of_solid {f : Fragment} (h : f.isSolid = true) :
    f.isEmpty = false ∧ f.column? = none := by
  cases f with
  | sql s => exact ⟨by simpa [isSolid, isEmpty] using h, rfl⟩
  | keyword text use => cases h
  | column use => cases h
  | lead connective => cases connective <;> first | exact ⟨rfl, rfl⟩ | cases h
  | _ => exact ⟨rfl, rfl⟩

-- A clause in which nothing is solid has one column, so it is written where that column is.
def Uniform (fs : List Fragment) : Prop :=
  (∃ f ∈ fs, f.isSolid = true) ∨ ∃ use, ∀ f ∈ fs, f.isEmpty = true ∨ f = .column use

theorem heading_of_uniform {use : ColumnUse} (h : ∀ f ∈ fs, f.isEmpty = true ∨ f = .column use)
    (hsome : ∃ f ∈ fs, f.isEmpty = false) (text : String) :
    SqlPart.heading text fs = Fragment.keyword text use := by
  obtain ⟨f, hf, hne⟩ := hsome
  have huse : Fragment.column use ∈ fs := by
    rcases h f hf with hempty | rfl
    · rw [hempty] at hne
      cases hne
    · exact hf
  have hall : fs.all (fun f => f.isEmpty || f.column?.isSome) = true := by
    refine List.all_eq_true.mpr fun f hf => ?_
    rcases h f hf with hempty | rfl
    · rw [hempty, Bool.true_or]
    · rfl
  have hfirst : fs.findSome? column? = some use := by
    have hfound : (fs.findSome? column?).isSome := List.findSome?_isSome_iff.mpr ⟨_, huse, rfl⟩
    obtain ⟨other, hother⟩ := Option.isSome_iff_exists.mp hfound
    obtain ⟨f, hf, hcolumn⟩ := List.exists_of_findSome?_eq_some hother
    rcases h f hf with hempty | rfl
    · cases f with
      | column use => cases hempty
      | _ => cases hcolumn
    · rw [hother, ← hcolumn]
      rfl
  change heading text fs = _
  rw [heading, hfirst]
  exact if_pos hall

theorem heading_of_solid (hsolid : ∃ f ∈ fs, f.isSolid = true) (text : String) :
    SqlPart.heading text fs = Fragment.sql text := by
  obtain ⟨f, hf, hsolid⟩ := hsolid
  obtain ⟨hempty, hcolumn⟩ := not_columns_of_solid hsolid
  rcases heading_cases text fs with heq | ⟨use, -, hcolumns, -⟩
  · exact heq
  · simpa [hempty, hcolumn] using hcolumns f hf

theorem written_clause_of_solid (hsolid : ∃ f ∈ fs, f.isSolid = true) (hfs : Accepted fs) (text : String) :
    (Clauses.clause text fs).map (piece ctx) = Clauses.clause text (fs.map (piece ctx)) := by
  have hheading := heading_of_solid hsolid text
  obtain ⟨f, hf, hsolid⟩ := hsolid
  have hfragments : ¬ fs.all SqlPart.isEmpty = true := fun hall => by
    have hdropped : f.isEmpty = true := List.all_eq_true.mp hall f hf
    rw [(not_columns_of_solid hsolid).1] at hdropped
    cases hdropped
  have hpieces : ¬ (fs.map (piece ctx)).all SqlPart.isEmpty = true := fun hall => by
    have hdropped := List.all_eq_true.mp hall _ (List.mem_map_of_mem hf)
    rw [isEmpty_piece_of_solid (hfs f hf) hsolid] at hdropped
    cases hdropped
  rw [Clauses.clause, if_neg hfragments, Clauses.clause, if_neg hpieces, List.map_cons, hheading]
  rfl

theorem written_clause_of_column {use : ColumnUse} (h : ∀ f ∈ fs, f.isEmpty = true ∨ f = .column use)
    (text : String) :
    Piece.written ((Clauses.clause text fs).map (piece ctx)) =
      Piece.written (Clauses.clause text (fs.map (piece ctx))) := by
  by_cases hall : fs.all SqlPart.isEmpty = true
  · have hpieces : (fs.map (piece ctx)).all SqlPart.isEmpty = true := by
      rw [List.all_map, List.all_eq_true]
      exact fun f hf => isEmpty_piece_of_isEmpty (List.all_eq_true.mp hall f hf)
    rw [Clauses.clause, if_pos hall, Clauses.clause, if_pos hpieces]
    rfl
  · have hsome : ∃ f ∈ fs, f.isEmpty = false := by
      by_contra hnone
      refine hall (List.all_eq_true.mpr fun f hf => ?_)
      cases hempty : f.isEmpty with
      | true => exact hempty
      | false => exact absurd ⟨f, hf, hempty⟩ hnone
    rw [Clauses.clause, if_neg hall, heading_of_uniform h hsome, List.map_cons]
    by_cases htext : use.text ctx = ""
    · have hpieces : (fs.map (piece ctx)).all SqlPart.isEmpty = true := by
        rw [List.all_map, List.all_eq_true]
        intro f hf
        rcases h f hf with hempty | rfl
        · exact isEmpty_piece_of_isEmpty hempty
        · simp [isEmpty_piece_column, htext]
      have hkeyword : SqlPart.isEmpty ((Fragment.keyword text use).piece ctx) = true := by
        simp [piece, htext, Piece.isEmpty_text]
      rw [Clauses.clause, if_pos hpieces, Piece.written_of_all_isEmpty]
      · rfl
      · rw [List.all_cons, hkeyword, hpieces, Bool.and_self]
    · have hpieces : ¬ (fs.map (piece ctx)).all SqlPart.isEmpty = true := fun hall => by
        obtain ⟨f, hf, hne⟩ := hsome
        rcases h f hf with hempty | rfl
        · rw [hempty] at hne
          cases hne
        · have hdropped := List.all_eq_true.mp hall _ (List.mem_map_of_mem hf)
          simp [isEmpty_piece_column, htext] at hdropped
      have hkeyword : (Fragment.keyword text use).piece ctx = .text text := by simp [piece, htext]
      rw [Clauses.clause, if_neg hpieces, hkeyword]
      rfl

theorem written_clause (h : Uniform fs) (hfs : Accepted fs) (text : String) :
    Piece.written ((Clauses.clause text fs).map (piece ctx)) =
      Piece.written (Clauses.clause text (fs.map (piece ctx))) := by
  rcases h with hsolid | ⟨use, huse⟩
  · rw [written_clause_of_solid hsolid hfs]
  · exact written_clause_of_column huse text

end Fragment

section Uniform

variable {enclosing : CriteriaId}

theorem eq_some_of_templateFragments {template : String} {args : TemplateArgs} {column : Option ColumnUse}
    {use : ColumnUse} (h : .column use ∈ templateFragments template args column) : column = some use := by
  have hmem : use ∈ (templateFragments template args column).filterMap column? :=
    List.mem_filterMap.mpr ⟨_, h, rfl⟩
  rw [column?_templateFragments, List.mem_flatMap] at hmem
  obtain ⟨named, hnamed, huse⟩ := hmem
  rw [List.eq_of_mem_replicate huse]
  exact Option.mem_toList.mp hnamed

theorem uniform_of_columns {fs : List Fragment} (hkeyword : ∀ f ∈ fs, ∀ text use, f ≠ .keyword text use)
    (use : ColumnUse) (hcolumn : ∀ other, .column other ∈ fs → other = use) : Uniform fs := by
  by_cases hsolid : ∃ f ∈ fs, f.isSolid = true
  · exact .inl hsolid
  · refine .inr ⟨use, fun f hf => ?_⟩
    have hnot : f.isSolid = false := by
      cases h : f.isSolid with
      | false => rfl
      | true => exact absurd ⟨f, hf, h⟩ hsolid
    cases f with
    | sql s => exact .inl (by simpa [isSolid, isEmpty] using hnot)
    | keyword text other => exact absurd rfl (hkeyword _ hf text other)
    | column other => exact .inr (by rw [hcolumn other hf])
    | lead connective =>
        cases connective with
        | none => exact .inl rfl
        | some c => cases hnot
    | _ => cases hnot

theorem uniform_predicateFragment (enclosing : CriteriaId) (p : Predicate) :
    Uniform (predicateFragment enclosing p) := by
  cases p with
  | test head t =>
      unfold predicateFragment
      cases head.target with
      | none => exact .inl ⟨_, List.mem_singleton_self _, rfl⟩
      | some target =>
          cases t with
          | template args column =>
              have hkeyword : OfTests (head.owner.getD enclosing :: (Test.template args column).handles)
                  fun f => ∀ text use, f ≠ .keyword text use := by
                constructor <;> simp
              have hplain : ∀ f ∈ testFragments enclosing head target (.template args column),
                  ∀ text use, f ≠ .keyword text use :=
                within_testFragments hkeyword List.mem_cons_self fun _ => List.mem_cons_of_mem _
              cases hcolumn : column.map (head.columnUse enclosing) with
              | none =>
                  refine uniform_of_columns hplain (head.columnUse enclosing target) fun other hother => ?_
                  rw [eq_some_of_templateFragments hother] at hcolumn
                  cases hcolumn
              | some use =>
                  refine uniform_of_columns hplain use fun other hother => ?_
                  rw [eq_some_of_templateFragments hother] at hcolumn
                  exact Option.some.inj hcolumn
          | range op values =>
              by_cases hempty : values.isEmpty = true
              · exact .inl (by simp [testFragments, hempty, isSolid])
              · exact .inl (by simp [testFragments, hempty, isSolid])
          | _ => exact .inl (by simp [testFragments, isSolid])
  | existence head negated query => exact .inl ⟨.openQuery, by simp [predicateFragment], rfl⟩
  | subquery head op query => exact .inl ⟨.openQuery, by simp [predicateFragment], rfl⟩
  | nested head negated children => exact .inl ⟨.openGroup negated, by simp [predicateFragment], rfl⟩

theorem uniform_predicateFragments (ps : List Predicate) : Uniform (predicateFragments enclosing true ps) := by
  cases ps with
  | nil => exact .inr ⟨{ owner := enclosing, target := .raw "" }, by simp [predicateFragments]⟩
  | cons p ps =>
      cases ps with
      | nil =>
          rw [predicateFragments, predicateFragments, List.append_nil, if_pos rfl]
          rcases uniform_predicateFragment enclosing p with ⟨f, hf, hsolid⟩ | ⟨use, huse⟩
          · exact .inl ⟨f, List.mem_cons_of_mem _ hf, hsolid⟩
          · exact .inr ⟨use, List.forall_mem_cons.mpr ⟨.inl rfl, huse⟩⟩
      | cons q ps => exact .inl ⟨.lead (some q.head.connective), by simp [predicateFragments], rfl⟩

theorem uniform_listed {items : List (List Fragment)} (h : ∀ item ∈ items, Uniform item) :
    Uniform (listed items) := by
  cases items with
  | nil => exact .inr ⟨{ owner := ⟨0⟩, target := .raw "" }, by simp [listed, List.intercalate]⟩
  | cons item items =>
      cases items with
      | nil => simpa [listed, List.intercalate] using h item List.mem_cons_self
      | cons next items => exact .inl ⟨.sql ", ", by simp [listed, List.intercalate], rfl⟩

theorem uniform_draft (existenceOnly : Bool) (c : Criteria) :
    Uniform (draft existenceOnly c).filter ∧ Uniform (draft existenceOnly c).group ∧
      Uniform (draft existenceOnly c).order := by
  obtain ⟨node, ps, js⟩ := c
  have hsql : ∀ s, Uniform [.sql s] := fun s => by
    refine uniform_of_columns ?_ { owner := node.id, target := .raw "" } ?_ <;> simp
  refine ⟨uniform_predicateFragments ps, uniform_listed ?_, uniform_listed ?_⟩
  · refine List.forall_mem_map.mpr fun grouping _ => ?_
    cases grouping with
    | native sql => exact hsql sql
    | column target => exact .inr ⟨{ owner := node.id, target }, by simp [Node.groupItem, Node.column]⟩
  · refine List.forall_mem_map.mpr fun order _ => ?_
    cases order with
    | native sql => exact hsql sql
    | column target direction => exact .inl (by simp [Node.orderItem, isSolid, Node.column])

end Uniform

theorem written_statement {ctx : Context} {existenceOnly : Bool} {c : Criteria}
    (h : Accepted (draft existenceOnly c).bindingOrder) :
    Piece.written ((draft existenceOnly c).statement.map (piece ctx)) =
      Piece.written ((draft existenceOnly c).map (piece ctx)).statement := by
  obtain ⟨hfilter, hgroup, horder⟩ := uniform_draft existenceOnly c
  simp only [Clauses.bindingOrder, within_append] at h
  obtain ⟨⟨⟨⟨-, haccepted⟩, hgrouped⟩, hordered⟩, -⟩ := h
  have hwindow : (Clauses.windowParts (draft existenceOnly c).window).map (piece ctx) =
      Clauses.windowParts (draft existenceOnly c).window := by
    cases (draft existenceOnly c).window <;> rfl
  have hsql : ∀ s, piece ctx (SqlPart.sql s) = SqlPart.sql s := fun _ => rfl
  simp only [Clauses.statement, Clauses.query, Clauses.map, List.map_append, List.map_cons, hsql,
    Piece.written_append, written_clause hfilter haccepted, written_clause hgroup hgrouped,
    written_clause horder hordered, hwindow]

end QueryCriteria
