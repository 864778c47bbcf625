import QueryCriteria.Proofs.Sources

namespace QueryCriteria

namespace Fragment

def isBracket : Fragment → Bool
  | .openQuery => true
  | .closeQuery => true
  | _ => false

def blocks (block : List Fragment) (outer : List (List Fragment)) :
    List Fragment → List (List Fragment)
  | [] => block :: outer
  | .openQuery :: fs => blocks [] (block :: outer) fs
  | .closeQuery :: fs =>
      match outer with
      | [] => block :: blocks [] [] fs
      | enclosing :: outer => block :: blocks enclosing outer fs
  | f :: fs => blocks (block ++ [f]) outer fs

theorem blocks_cons {f : Fragment} (hf : f.isBracket = false) (block : List Fragment)
    (outer : List (List Fragment)) (fs : List Fragment) :
    blocks block outer (f :: fs) = blocks (block ++ [f]) outer fs := by
  cases f <;> first | rfl | cases hf

theorem flatten_blocks_perm (block : List Fragment) (outer : List (List Fragment))
    (fs : List Fragment) :
    (blocks block outer fs).flatten.Perm
      (block ++ (outer.flatten ++ fs.filter fun f => !f.isBracket)) := by
  induction fs generalizing block outer with
  | nil => simp [blocks]
  | cons f fs ih =>
      cases hf : f.isBracket with
      | false =>
          rw [blocks_cons hf, List.filter_cons_of_pos (by simp [hf])]
          refine (ih _ _).trans ?_
          rw [List.append_assoc, List.singleton_append]
          exact List.perm_middle.symm.append_left block
      | true =>
          rw [List.filter_cons_of_neg (by simp [hf])]
          cases f with
          | openQuery => simpa [blocks] using ih [] (block :: outer)
          | closeQuery =>
              cases outer with
              | nil => simpa [blocks] using (ih [] []).append_left block
              | cons enclosing outer => simpa [blocks] using (ih enclosing outer).append_left block
          | _ => cases hf

inductive Balanced : List Fragment → List Fragment → List (List Fragment) → Prop
  | nil : Balanced [] [] []
  | cons {f : Fragment} {fs direct : List Fragment} {inner : List (List Fragment)} :
      f.isBracket = false → Balanced fs direct inner → Balanced (f :: fs) (f :: direct) inner
  | query {query block fs direct : List Fragment} {within inner : List (List Fragment)} :
      Balanced query block within → Balanced fs direct inner →
      Balanced (.openQuery :: query ++ .closeQuery :: fs) direct (within ++ block :: inner)

namespace Balanced

variable {fs gs direct more : List Fragment} {inner later : List (List Fragment)}

theorem blocks_append (h : Balanced fs direct inner) (block : List Fragment)
    (outer : List (List Fragment)) (rest : List Fragment) :
    blocks block outer (fs ++ rest) = inner ++ blocks (block ++ direct) outer rest := by
  induction h generalizing block outer rest with
  | nil => simp
  | cons hf _ ih =>
      rw [List.cons_append, blocks_cons hf, ih]
      simp
  | query _ _ ihQuery ih =>
      simp only [List.cons_append, List.append_assoc, blocks, ihQuery, ih, List.nil_append]

theorem append (h : Balanced fs direct inner) (k : Balanced gs more later) :
    Balanced (fs ++ gs) (direct ++ more) (inner ++ later) := by
  induction h with
  | nil => exact k
  | cons hf _ ih => exact .cons hf ih
  | query hquery _ _ ih => simpa using hquery.query ih

theorem of_within (h : Within (fun f => f.isBracket = false) fs) : Balanced fs fs [] := by
  induction fs with
  | nil => exact .nil
  | cons f fs ih =>
      obtain ⟨hf, hfs⟩ := within_cons.mp h
      exact .cons hf (ih hfs)

theorem eq_of_within (h : Balanced fs direct inner) (hfs : Within (fun f => f.isBracket = false) fs) :
    direct = fs := by
  induction h with
  | nil => rfl
  | cons _ _ ih => rw [ih (within_cons.mp hfs).2]
  | query _ _ _ _ => cases hfs .openQuery List.mem_cons_self

end Balanced

def Framed (tables : List CriteriaId) (owned : CriteriaId → Prop) (good : List Fragment → Prop)
    (fs : List Fragment) : Prop :=
  ∃ direct inner, Balanced fs direct inner ∧ direct.filterMap source? = tables ∧
    Within (fun f => ∀ id ∈ f.owner?, owned id) direct ∧ ∀ b ∈ inner, good b

def Inline (owned : CriteriaId → Prop) (f : Fragment) : Prop :=
  f.isSource = false ∧ f.isBracket = false ∧ ∀ id ∈ f.owner?, owned id

section Framed

variable {tables others : List CriteriaId} {owned : CriteriaId → Prop} {good : List Fragment → Prop}
  {fs gs : List Fragment}

theorem framed_inline (h : Within (Inline owned) fs) : Framed [] owned good fs := by
  refine ⟨fs, [], .of_within fun f hf => (h f hf).2.1, ?_, fun f hf => (h f hf).2.2, by simp⟩
  refine List.filterMap_eq_nil_iff.mpr fun f hf => ?_
  have hsource := (h f hf).1
  cases f <;> first | rfl | cases hsource

theorem framed_fixed {f : Fragment} (hsource : f.isSource = false) (hbracket : f.isBracket = false)
    (howner : f.owner? = none) : Framed [] owned good [f] := by
  refine framed_inline (within_cons.mpr ⟨⟨hsource, hbracket, ?_⟩, by simp [Within]⟩)
  simp [howner]

theorem Framed.append (h : Framed tables owned good fs) (k : Framed others owned good gs) :
    Framed (tables ++ others) owned good (fs ++ gs) := by
  obtain ⟨direct, inner, hbalanced, htables, howned, hgood⟩ := h
  obtain ⟨direct', inner', hbalanced', htables', howned', hgood'⟩ := k
  refine ⟨direct ++ direct', inner ++ inner', hbalanced.append hbalanced', ?_,
    within_append.mpr ⟨howned, howned'⟩, List.forall_mem_append.mpr ⟨hgood, hgood'⟩⟩
  rw [List.filterMap_append, htables, htables']

theorem Framed.bracket {own : CriteriaId → Prop} (h : Framed tables own good fs)
    (hblock : ∀ b, b.filterMap source? = tables → Within (fun f => ∀ id ∈ f.owner?, own id) b → good b) :
    Framed [] owned good (.openQuery :: fs ++ [.closeQuery]) := by
  obtain ⟨direct, inner, hbalanced, htables, howned, hgood⟩ := h
  refine ⟨[], inner ++ [direct], hbalanced.query .nil, rfl, by simp [Within], ?_⟩
  simpa [or_imp, forall_and] using ⟨hgood, hblock direct htables howned⟩

end Framed

end Fragment

open Fragment

section Statement

variable {tables : List CriteriaId} {owned : CriteriaId → Prop} {good : List Fragment → Prop}

structure Clauses.Framed (tables : List CriteriaId) (owned : CriteriaId → Prop)
    (good : List Fragment → Prop) (d : Clauses Fragment) : Prop where
  select : Fragment.Framed [] owned good d.select
  source : Fragment.Framed tables owned good d.source
  filter : Fragment.Framed [] owned good d.filter
  group : Fragment.Framed [] owned good d.group
  order : Fragment.Framed [] owned good d.order

variable {α : Type} [SqlPart α] {f : α → Fragment}

structure Fragment.Shows (f : α → Fragment) : Prop where
  sql : ∀ s, f (SqlPart.sql s) = .sql s
  heading : ∀ keyword parts, f (SqlPart.heading keyword parts) = .sql keyword ∨
    ∃ use, .column use ∈ parts.map f ∧ Within (fun x => x.isBracket = false) (parts.map f) ∧
      f (SqlPart.heading keyword parts) = .keyword keyword use

theorem framed_clause (hf : Fragment.Shows f) {parts : List α}
    (h : Fragment.Framed [] owned good (parts.map f)) (keyword : String) :
    Fragment.Framed [] owned good ((Clauses.clause keyword parts).map f) := by
  unfold Clauses.clause
  split
  · exact framed_inline (by simp [Within])
  · rw [List.map_cons]
    rcases hf.heading keyword parts with heq | ⟨use, huse, hplain, heq⟩
    · rw [heq]
      exact (framed_fixed rfl rfl rfl).append h
    · have howned : owned use.owner := by
        obtain ⟨direct, inner, hbalanced, -, howned, -⟩ := h
        obtain rfl := hbalanced.eq_of_within hplain
        exact howned _ huse use.owner rfl
      have hkeyword : Fragment.Framed [] owned good [.keyword keyword use] :=
        framed_inline (by simpa [Within, Inline, isSource, isBracket, owner?] using howned)
      rw [heq]
      exact hkeyword.append h

theorem framed_statement (hf : Fragment.Shows f) {cs : Clauses α}
    (h : (cs.map f).Framed tables owned good) : Fragment.Framed tables owned good (cs.statement.map f) := by
  have hsql : ∀ s, Fragment.Framed [] owned good [.sql s] := fun _ => framed_fixed rfl rfl rfl
  have hwindow : Fragment.Framed [] owned good ((Clauses.windowParts (α := α) cs.window).map f) := by
    cases cs.window with
    | none => exact framed_inline (by simp [Within, Clauses.windowParts])
    | some w => simpa [Clauses.windowParts, hf.sql] using hsql w.text
  have hselect := (hsql "SELECT ").append h.select
  have hsource := (hsql " FROM ").append h.source
  have hall := ((((hselect.append hsource).append (framed_clause hf h.filter " WHERE ")).append
    (framed_clause hf h.group " GROUP BY ")).append (framed_clause hf h.order " ORDER BY ")).append hwindow
  simpa [Clauses.statement, Clauses.query, Clauses.map, hf.sql] using hall

end Statement

inductive Predicate.Groups : Predicate → Predicate → Prop
  | self (p : Predicate) : Groups p p
  | nested {head : Predicate.Head} {negated : Bool} {children : List Predicate} {p q : Predicate} :
      p ∈ children → Groups p q → Groups (.nested head negated children) q

def Criteria.Draws (m : Criteria) (id : CriteriaId) : Prop :=
  id = m.id ∨ ∃ p ∈ m.predicates, ∃ q, p.Groups q ∧ q.head.owner = some id

structure Criteria.Fills (m : Criteria) (block : List Fragment) : Prop where
  table : block.filterMap source? = [m.id]
  owned : Within (fun f => ∀ id ∈ f.owner?, m.Draws id) block

section Tree

variable {owned : CriteriaId → Prop} {good : List Fragment → Prop} {enclosing : CriteriaId}

theorem inline_of_plain {ids : List CriteriaId} {fs : List Fragment} (h : Plain ids fs)
    (hids : ∀ id ∈ ids, owned id) : Within (Inline owned) fs := by
  intro f hf
  have hplain := h f hf
  cases f with
  | sql s => simp [Inline, isSource, isBracket, owner?]
  | column use =>
      refine ⟨rfl, rfl, fun id hid => ?_⟩
      obtain rfl := Option.some.inj hid
      exact hids use.owner hplain
  | _ => cases hplain

theorem inline_test {head : Predicate.Head} {t : Test} (howner : owned (head.owner.getD enclosing))
    (ht : t.handles = []) : Within (Inline owned) (predicateFragment enclosing (.test head t)) := by
  have hof : OfTests [head.owner.getD enclosing] (Inline owned) := by
    constructor <;> simp_all [Inline, isSource, isBracket, owner?]
  unfold predicateFragment
  split
  · simp [Within, Inline, isSource, isBracket, owner?]
  · exact within_testFragments hof List.mem_cons_self (by simp [ht])

theorem framed_subject {head : Predicate.Head} (howner : owned (head.owner.getD enclosing))
    (operator : String) : Fragment.Framed [] owned good [subjectFragment enclosing head operator] := by
  unfold subjectFragment
  cases head.target with
  | none => exact framed_fixed rfl rfl rfl
  | some target =>
      refine framed_inline ?_
      simpa [Within, Inline, isSource, isBracket, owner?, Predicate.Head.columnUse] using howner

theorem framed_predicates {ps : List Predicate}
    (h : ∀ p ∈ ps, Fragment.Framed [] owned good (predicateFragment enclosing p)) (first : Bool) :
    Fragment.Framed [] owned good (predicateFragments enclosing first ps) := by
  induction ps generalizing first with
  | nil => exact framed_inline (by simp [Within, predicateFragments])
  | cons p ps ih =>
      obtain ⟨hp, hps⟩ := List.forall_mem_cons.mp h
      exact ((framed_fixed rfl rfl rfl).append hp).append (ih hps false)

theorem framed_members {ms more : List Criteria} {tables : List CriteriaId} {fs : List Fragment}
    (h : Fragment.Framed tables owned (fun b => ∃ m ∈ ms, m.Fills b) fs) (hsub : ms ⊆ more) :
    Fragment.Framed tables owned (fun b => ∃ m ∈ more, m.Fills b) fs := by
  obtain ⟨direct, inner, hbalanced, htables, howned, hgood⟩ := h
  refine ⟨direct, inner, hbalanced, htables, howned, fun b hb => ?_⟩
  obtain ⟨m, hm, hfills⟩ := hgood b hb
  exact ⟨m, hsub hm, hfills⟩

theorem framed_query {query : Criteria} {existenceOnly : Bool}
    (h : (draft existenceOnly query).Framed [query.id] query.Draws fun b => ∃ m ∈ query.members, m.Fills b) :
    Fragment.Framed [] owned (fun b => ∃ m ∈ query.members, m.Fills b)
      (.openQuery :: (draft existenceOnly query).statement ++ [.closeQuery]) := by
  have hshows : Fragment.Shows (id : Fragment → Fragment) := by
    refine ⟨fun _ => rfl, fun keyword parts => ?_⟩
    rw [List.map_id]
    refine (heading_cases keyword parts).imp_right ?_
    rintro ⟨use, huse, hcolumns, heq⟩
    refine ⟨use, huse, fun f hf => ?_, heq⟩
    cases f <;> first | rfl | cases (hcolumns _ hf).elim (fun h => h) fun h => h
  have hclauses : (draft existenceOnly query).map id = draft existenceOnly query := by simp [Clauses.map]
  have hstatement := framed_statement hshows (hclauses.symm ▸ h)
  rw [List.map_id] at hstatement
  exact hstatement.bracket fun b htable howned => ⟨query, query.self_mem_members, htable, howned⟩

theorem framed_draft_mk {node : Node} {ps : List Predicate}
    (howned : owned node.id)
    (hp : ∀ p ∈ ps, Fragment.Framed [] owned good (predicateFragment node.id p)) (existenceOnly : Bool) :
    (draft existenceOnly (.mk node ps [])).Framed [node.id] owned good := by
  have hself : node.id ∈ [node.id] := List.mem_cons_self
  have hids : ∀ id ∈ [node.id], owned id := by simpa using howned
  have hplain : ∀ {fs}, Plain [node.id] fs → Fragment.Framed [] owned good fs := fun h =>
    framed_inline (inline_of_plain h hids)
  constructor
  · simp only [draft]
    split
    · exact hplain (by simp [Within, isPlain])
    · exact hplain (plain_projection hself (by simp))
  · refine ⟨_, [], .of_within ?_, rfl, ?_, by simp⟩ <;>
      simp [draft, joinFragments, Within, isBracket, owner?, howned]
  · exact framed_predicates hp true
  · exact hplain (plain_listed (by simpa using fun g _ => node.plain_groupItem hself g))
  · exact hplain (plain_listed (by simpa using fun o _ => node.plain_orderItem hself o))

theorem framed_draft :
    (∀ c : Criteria, (∀ r ∈ c.references, r.correlates = false) → ∀ existenceOnly,
      (draft existenceOnly c).Framed [c.id] c.Draws fun b => ∃ m ∈ c.members, m.Fills b) ∧
    ∀ p : Predicate, (∀ r ∈ p.references, r.correlates = false) →
      ∀ enclosing (owned : CriteriaId → Prop), owned enclosing →
        (∀ q, p.Groups q → ∀ id ∈ q.head.owner, owned id) →
        Fragment.Framed [] owned (fun b => ∃ m ∈ p.members, m.Fills b) (predicateFragment enclosing p) := by
  have howner : ∀ {owned : CriteriaId → Prop} {enclosing : CriteriaId} {head : Predicate.Head},
      owned enclosing → (∀ id ∈ head.owner, owned id) → owned (head.owner.getD enclosing) := by
    intro owned enclosing head henclosing hhead
    cases ho : head.owner with
    | none => exact henclosing
    | some id => exact hhead id ho
  -- The owners stay open for a predicate: one in a group stands in the block of the whole group, and
  -- so draws on the criteria around the group.
  apply tree_induction
  case criteria =>
    intro node ps js hp _ hc existenceOnly
    rw [references_mk] at hc
    simp only [List.mem_cons, List.mem_append, List.mem_flatMap] at hc
    have hjoined := hc _ (.inl rfl)
    obtain rfl : js = [] := by
      simpa [Reference.correlates, Criteria.ownReference, Criteria.joins] using hjoined
    refine framed_draft_mk (.inl rfl) (fun p hmem => ?_) existenceOnly
    have hpredicate := hp p hmem (fun r hr => hc r (.inr (.inl ⟨p, hmem, hr⟩))) node.id
      (Criteria.mk node ps []).Draws (.inl rfl) fun q hq id hid => .inr ⟨p, hmem, q, hq, hid⟩
    refine framed_members hpredicate fun m hm => ?_
    simp only [Criteria.members_mk, List.mem_cons, List.mem_append, List.mem_flatMap]
    exact .inr (.inl ⟨p, hmem, hm⟩)
  case test =>
    intro head t hp enclosing owned henclosing howned
    have ht : t.handles = [] := by
      cases t with
      | columnEqual other =>
          have hcorrelated := hp (.correlated other.criteria)
            (by simp [Predicate.references, Test.references])
          cases hcorrelated
      | _ => rfl
    exact framed_inline (inline_test (howner henclosing (howned _ (.self _))) ht)
  case existence =>
    intro head negated query hq hp enclosing owned _ _
    have hquery := hq (fun r hr => hp r (by simp [Predicate.references, hr])) true
    have hopening : Fragment.Framed [] owned (fun b => ∃ m ∈ query.members, m.Fills b)
        [.sql (if negated then "NOT EXISTS " else "EXISTS ")] := framed_fixed rfl rfl rfl
    simpa [predicateFragment] using hopening.append (framed_query hquery)
  case subquery =>
    intro head op query hq hp enclosing owned henclosing howned
    have hquery := hq (fun r hr => hp r (by simp [Predicate.references, hr])) false
    have hsubject : Fragment.Framed [] owned (fun b => ∃ m ∈ query.members, m.Fills b)
        [subjectFragment enclosing head op.text] :=
      framed_subject (howner henclosing (howned (.subquery head op query) (.self _))) op.text
    have hopening := hsubject.append (framed_fixed (f := .sql (" " ++ op.text ++ " ")) rfl rfl rfl)
    simpa [predicateFragment] using hopening.append (framed_query hquery)
  case nested =>
    intro head negated children hc hp enclosing owned henclosing howned
    rw [references_nested] at hp
    have hchildren : ∀ p ∈ children, Fragment.Framed [] owned
        (fun b => ∃ m ∈ (Predicate.nested head negated children).members, m.Fills b)
        (predicateFragment enclosing p) := by
      intro p hmem
      have hchild := hc p hmem (fun r hr => hp r (List.mem_append_right _
        (List.mem_flatMap.mpr ⟨p, hmem, hr⟩))) enclosing owned henclosing
        fun q hq => howned q (.nested hmem hq)
      refine framed_members hchild fun m hm => ?_
      rw [Predicate.members_nested]
      exact List.mem_flatMap.mpr ⟨p, hmem, hm⟩
    have hopened := (framed_fixed (f := .openGroup negated) rfl rfl rfl).append
      (framed_predicates hchildren true)
    simpa [predicateFragment] using hopened.append (framed_fixed (f := .closeGroup) rfl rfl rfl)

end Tree

theorem blocks_of_framed {tables : List CriteriaId} {owned : CriteriaId → Prop}
    {good : List Fragment → Prop} {fs block : List Fragment} (h : Fragment.Framed tables owned good fs)
    (hblock : block ∈ blocks [] [] fs) :
    good block ∨ block.filterMap source? = tables ∧ Within (fun f => ∀ id ∈ f.owner?, owned id) block := by
  obtain ⟨direct, inner, hbalanced, htables, howned, hgood⟩ := h
  have hblocks := hbalanced.blocks_append [] [] []
  rw [List.append_nil] at hblocks
  rw [hblocks] at hblock
  simp only [blocks, List.nil_append, List.mem_append, List.mem_singleton] at hblock
  rcases hblock with hinner | rfl
  · exact .inl (hgood block hinner)
  · exact .inr ⟨htables, howned⟩

section Compile

variable {s u : Scope} {c : Criteria} {compiled : Compiled}

theorem correlates_of_unqualified (hplain : ∀ m ∈ c.members, m.node.qualify = none) {id : CriteriaId}
    (h : qualifies .auto c.references id = false) : ∀ r ∈ c.references, r.correlates = false := by
  have hoverrides : c.references.filterMap Reference.override? = [] := by
    refine List.filterMap_eq_nil_iff.mpr fun r hr => ?_
    rcases mem_references.mp hr with ⟨m, hm, rfl⟩ | ⟨p, -, hown⟩
    · simp [Criteria.ownReference, hplain m hm, Reference.override?]
    · have htable := handle_of_mem_ownReferences hown
      cases r with
      | source => cases htable
      | _ => rfl
  simpa [qualifies, hoverrides, QualifyMode.qualifies] using h

theorem qualifies_of_qualifier? {ctx : Context} {use : ColumnUse} (hraw : use.target.isRaw = false)
    (hfailure : use.failure? ctx = none) (hqualifier : use.qualifier? ctx = none) :
    ctx.qualifies use.owner = false := by
  cases halias : use.tableAlias with
  | some given => simp [ColumnUse.qualifier?, halias] at hqualifier
  | none =>
      have hneeds : use.needsOwner ctx = false := by
        by_contra hneeds
        simp_all [ColumnUse.qualifier?, ColumnUse.failure?]
      simp [ColumnUse.needsOwner, halias, hraw] at hneeds
      exact hneeds.2

theorem failure?_of_compile (h : s.compile c = (.ok compiled, u)) {ctx : Context}
    {cs : Clauses (Traced ctx)} (hcs : cs.map Traced.fragment = c.statementDraft) {use : ColumnUse}
    (huse : .column use ∈ cs.statement.map Traced.fragment) :
    use.failure? (u.context c.references) = none := by
  obtain ⟨x, hx, hcolumn⟩ := List.mem_map.mp huse
  exact failure?_of_traced h hcs (Traced.mem_bindingOrder_of_column hx hcolumn) hcolumn

theorem unqualified_in_own_block (h : s.compile c = (.ok compiled, u))
    (hauto : s.config.qualify = .auto) (hplain : ∀ m ∈ c.members, m.node.qualify = none) :
    ∃ cs : Clauses (Traced (u.context c.references)),
      cs.map Traced.part = compiled.clauses ∧ cs.map Traced.fragment = c.statementDraft ∧
        cs.statement.map Traced.part = compiled.statementParts ∧
        let fragments := cs.statement.map Traced.fragment
        let blocks := Fragment.blocks [] [] fragments
        blocks.flatten.Perm (fragments.filter fun f => !f.isBracket) ∧
          ∀ block ∈ blocks, ∀ use, .column use ∈ block → use.target.isRaw = false →
            use.qualifier? (u.context c.references) = none →
              ∃ m ∈ c.members, block.filterMap source? = [m.id] ∧
                (use.owner = m.id ∨
                  ∃ p ∈ m.predicates, ∃ q, p.Groups q ∧ q.head.owner = some use.owner) := by
  obtain ⟨cs, hparts, hfragments, hstatement⟩ := exists_traced h
  have hperm := flatten_blocks_perm [] [] (cs.statement.map Traced.fragment)
  refine ⟨cs, hparts, hfragments, hstatement, hperm, fun block hblock use huse hraw hqualifier => ?_⟩
  have hread : Fragment.column use ∈ cs.statement.map Traced.fragment := by
    have hflat := hperm.mem_iff.mp (List.mem_flatten.mpr ⟨block, hblock, huse⟩)
    exact (List.mem_filter.mp hflat).1
  have hconfig : u.config = s.config := by rw [← s.config_compile c, h]
  have hunqualified := qualifies_of_qualifier? hraw (failure?_of_compile h hfragments hread) hqualifier
  have hauto : qualifies .auto c.references use.owner = false := by
    rwa [← hauto, ← hconfig]
  have hdraft := framed_draft.1 c (correlates_of_unqualified hplain hauto) false
  have hshows : Fragment.Shows (Traced.fragment : Traced (u.context c.references) → Fragment) :=
    ⟨fun _ => rfl, fun _ _ => .inl rfl⟩
  rw [← Criteria.statementDraft, ← hfragments] at hdraft
  have hframed := framed_statement hshows hdraft
  rcases blocks_of_framed hframed hblock with ⟨m, hm, hfills⟩ | ⟨htable, howned⟩
  · exact ⟨m, hm, hfills.table, hfills.owned _ huse _ rfl⟩
  · exact ⟨c, c.self_mem_members, htable, howned _ huse _ rfl⟩

end Compile

def shelfTree : Criteria :=
  .mk (member 0 "shelves")
    [.existence {} false (.mk (member 1 "books")
      [.test { owner := some ⟨0⟩, matched := .standard,
               target := some (.resolved { name := "id", property := "id" }) }
        (.compare .eq (.int 5))] [])] []

def shelfScope : Scope :=
  { Scope.fresh {} {} with
    slots := ["shelves", "books"].map fun table => { entity := { name := table, table }, parent := none } }

theorem shelf_in_own_block :
    ∃ compiled u, shelfScope.compile shelfTree = (.ok compiled, u) ∧
      ∃ cs : Clauses (Traced (u.context shelfTree.references)), cs.map Traced.part = compiled.clauses ∧
        ∀ block ∈ blocks [] [] (cs.statement.map Traced.fragment), ∀ use, .column use ∈ block →
          use.target.isRaw = false → use.qualifier? (u.context shelfTree.references) = none →
            ∃ m ∈ shelfTree.members, block.filterMap source? = [m.id] := by
  refine ⟨_, _, rfl, ?_⟩
  obtain ⟨cs, hparts, -, -, -, hblocks⟩ :=
    unqualified_in_own_block (s := shelfScope) (c := shelfTree) rfl rfl (by decide)
  refine ⟨cs, hparts, fun block hblock use huse hraw hqualifier => ?_⟩
  obtain ⟨m, hm, htable, -⟩ := hblocks block hblock use huse hraw hqualifier
  exact ⟨m, hm, htable⟩

theorem shelf_column_in_other_block :
    shelfScope.config.qualify = .auto ∧ (∀ m ∈ shelfTree.members, m.node.qualify = none) ∧
      ∃ compiled u, shelfScope.compile shelfTree = (.ok compiled, u) ∧
        compiled.statement =
          "SELECT * FROM shelves t1 WHERE EXISTS (SELECT 1 FROM books t2 WHERE id = :p1)" ∧
        ¬ ∀ block ∈ blocks [] [] shelfTree.statementDraft.statement, ∀ use, .column use ∈ block →
          use.owner ∈ shelfTree.members.map Criteria.id → use.target.isRaw = false →
            use.tableAlias = none → use.qualifier? (u.context shelfTree.references) = none →
              block.filterMap source? = [use.owner] := by
  refine ⟨rfl, by decide, _, _, rfl, rfl, fun h => ?_⟩
  let use : ColumnUse := { owner := ⟨0⟩, target := .resolved { name := "id", property := "id" } }
  let block : List Fragment :=
    [.sql "SELECT ", .sql "1", .sql " FROM ", .source ⟨1⟩ "books", .sql " WHERE ", .lead none, .column use,
      .sql " = ", .bind (.int 5)]
  have hblock : block ∈ blocks [] [] shelfTree.statementDraft.statement := List.mem_cons_self
  have htable := h block hblock use (by simp [block]) (by decide) rfl rfl rfl
  cases htable

end QueryCriteria
