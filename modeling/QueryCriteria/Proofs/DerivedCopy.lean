import QueryCriteria.Proofs.ColumnOwners
import QueryCriteria.Proofs.FreshAliases
import QueryCriteria.Proofs.Modelled
import QueryCriteria.Proofs.Placeholders
import QueryCriteria.Proofs.Rebinding
import QueryCriteria.Proofs.Sources
import QueryCriteria.Proofs.WellFormed

namespace QueryCriteria

open Fragment

def Renamed (r : CriteriaId → CriteriaId) (c d : Criteria) : Prop :=
  ∃ g, d.relabel ⟨fun id => id, g⟩ = c.relabel ⟨r, g⟩

namespace Renamed

variable {r : CriteriaId → CriteriaId} {c d : Criteria}

theorem draft (h : Renamed r c d) : d.statementDraft = c.statementDraft.map (Fragment.rename r) := by
  obtain ⟨g, h⟩ := h
  have hsame : Fragment.rename (fun id => id) = fun f => f := by
    funext f
    cases f <;> rfl
  have hdraft := congrArg Criteria.statementDraft h
  rw [statementDraft_relabel, statementDraft_relabel] at hdraft
  rw [← hdraft]
  simp [Clauses.map, hsame]

theorem pieces (h : Renamed r c d) (ctx : Context) :
    d.statementDraft.map (piece ctx) = c.statementDraft.map (piece (ctx.comap r)) := by
  have hrename : piece ctx ∘ Fragment.rename r = piece (ctx.comap r) := funext (piece_rename r ctx)
  rw [h.draft]
  simp only [Clauses.map, List.map_map, hrename]

theorem references (h : Renamed r c d) : d.references = c.references.map (Reference.rename r) := by
  obtain ⟨g, h⟩ := h
  have hsame : Reference.rename (fun id => id) = fun reference => reference := by
    funext reference
    cases reference <;> rfl
  have hreferences := congrArg Criteria.references h
  rw [(references_relabel _).1, (references_relabel _).1] at hreferences
  rw [← hreferences, hsame, List.map_id']

theorem node (h : Renamed r c d) :
    d.scope = c.scope ∧ d.node.flags = c.node.flags ∧ d.node.shape = c.node.shape := by
  obtain ⟨g, h⟩ := h
  have hnode := congrArg Criteria.node h
  rw [node_relabel, node_relabel] at hnode
  have hscope : (d.node.relabel ⟨fun id => id, g⟩).scope = (c.node.relabel ⟨r, g⟩).scope := by rw [hnode]
  have hflags : (d.node.relabel ⟨fun id => id, g⟩).flags = (c.node.relabel ⟨r, g⟩).flags := by rw [hnode]
  have hshape : (d.node.relabel ⟨fun id => id, g⟩).shape = (c.node.relabel ⟨r, g⟩).shape := by rw [hnode]
  exact ⟨hscope, hflags, hshape⟩

theorem compiled (h : Renamed r c d) : d.compiled = c.compiled := by
  obtain ⟨-, hflags, hshape⟩ := h.node
  funext style clauses
  rw [Criteria.compiled, Criteria.compiled, hflags, hshape]

end Renamed

namespace Criteria.Registered

variable {c : Criteria} {size : Nat} {id other : CriteriaId}

theorem copyOf_lt (h : c.Registered size) (hid : id.index < size) :
    (c.copyOf size id).index < size + c.members.length := by
  by_cases hmem : id ∈ c.members.map Criteria.id
  · obtain ⟨m, hm, rfl⟩ := List.mem_map.mp hmem
    exact (h.fresh hm).2
  · rw [copyOf_of_notMem hmem]
    omega

theorem copyOf_inj (h : c.Registered size) (hid : id.index < size) (hother : other.index < size)
    (heq : c.copyOf size id = c.copyOf size other) : id = other := by
  by_cases hmem : id ∈ c.members.map Criteria.id <;> by_cases hmem' : other ∈ c.members.map Criteria.id
  · have hnodup : ((c.members.map Criteria.id).map (c.copyOf size)).Nodup := by
      rw [List.map_map]
      exact h.nodup
    exact List.inj_on_of_nodup_map hnodup hmem hmem' heq
  · obtain ⟨m, hm, rfl⟩ := List.mem_map.mp hmem
    have hfresh := (h.fresh hm).1
    rw [heq, copyOf_of_notMem hmem'] at hfresh
    omega
  · obtain ⟨m, hm, rfl⟩ := List.mem_map.mp hmem'
    have hfresh := (h.fresh hm).1
    rw [← heq, copyOf_of_notMem hmem] at hfresh
    omega
  · rwa [copyOf_of_notMem hmem, copyOf_of_notMem hmem'] at heq

end Criteria.Registered

theorem Fragment.refusals_of_accepted {fs : List Fragment} (h : Accepted fs) (ctx : Context) :
    fs.filterMap (refusal? ctx) = [] := by
  refine List.filterMap_eq_nil_iff.mpr fun f hf => ?_
  have hf := h f hf
  cases f with
  | reject e => cases hf
  | rejectEmpty use => cases hf
  | _ => rfl

def Criteria.placed (c : Criteria) (style : PlaceholderStyle) (ctx : Context) (names : NumberedNames) :
    Compiled :=
  c.compiled style ((c.statementDraft.map (Fragment.piece ctx)).number names)

theorem values_placed (c : Criteria) (style : PlaceholderStyle) (ctx : Context) (names : NumberedNames) :
    (c.placed style ctx names).bindings.values = c.statementDraft.bindingOrder.filterMap bound? := by
  simp only [Compiled.bindings, Bindings.values, Compiled.parameters, Criteria.placed,
    Criteria.compiled, Clauses.bindingOrder_number, Piece.holes_numberFrom, Clauses.bindingOrder_map,
    holes_map_piece, List.map_map]
  exact List.zipIdx_map_fst 1 _

theorem Bindings.placeholders_dollar (b : Bindings) :
    b.placeholders .dollar = (List.range' 1 b.values.length).map fun i => "$" ++ toString i := by
  have hlength : b.names.length = b.values.length := by simp [names, values]
  have hsnd : (b.names.zipIdx 1).map Prod.snd = List.range' 1 b.names.length :=
    List.zipIdx_map_snd 1 b.names
  rw [← hlength, ← hsnd, List.map_map]
  rfl

section Compile

variable {s u : Scope} {c d : Criteria} {compiled : Compiled}

theorem placed_of_compile (h : s.compile c = (.ok compiled, u)) :
    compiled = c.placed s.config.placeholder (u.context c.references) s.parameters := by
  rw [context_of_compile h]
  exact (Scope.compile_eq_ok h).2.2.2.1

theorem Scope.compile_of_accepted {t : Scope} {d : Criteria} (hfree : t.frozen = false)
    (hnone : t.referenceFaults d = []) (hd : Accepted d.statementDraft.bindingOrder) :
    ∃ v, t.compile d = (.ok (d.placed t.config.placeholder (t.settledContext d) t.parameters), v) ∧
      v.alias? = (t.settled d).alias? := by
  have howned : OwnedBy d.named d.statementDraft.bindingOrder := ownedBy_draft d false
  have hfailure : firstFailure? (t.settledContext d) d.statementDraft.bindingOrder = none := by
    rw [firstFailure?_of_known howned (isSome_alias?_of_named hnone), refusals_of_accepted hd]
    rfl
  refine ⟨_, (compile_of_settled hfree hnone).trans (Prod.ext ?_ rfl), rfl⟩
  simp only [placeDraft, hfailure, Except.map]
  rfl

theorem registered_of_compile (h : s.compile c = (.ok compiled, u)) : c.Registered u.size := by
  obtain ⟨-, hfaults, -⟩ := Scope.compile_eq_ok h
  have hresolved := (s.referenceFaults_eq_nil_iff c).mp hfaults
  have hsize : u.size = s.size := by rw [← s.size_compile c, h]
  refine ⟨hresolved.scope, hresolved.ids, fun m hm => ?_⟩
  have hknown := hresolved.registered m hm
  rw [Scope.isSome_slot?] at hknown
  rw [hsize]
  exact of_decide_eq_true hknown

theorem index_lt_of_compile (h : s.compile c = (.ok compiled, u)) {id : CriteriaId} (hid : id ∈ c.named) :
    id.index < u.size := by
  obtain ⟨-, hfaults, -⟩ := Scope.compile_eq_ok h
  have hresolved := (s.referenceFaults_eq_nil_iff c).mp hfaults
  have hsize : u.size = s.size := by rw [← s.size_compile c, h]
  obtain ⟨reference, hreference, rfl⟩ := List.mem_map.mp hid
  rcases mem_references.mp hreference with ⟨m, hm, rfl⟩ | ⟨p, hp, hown⟩
  · exact (registered_of_compile h).known m hm
  · have hhandle := hresolved.handles p hp reference.id
      (map_id_ownReferences p ▸ List.mem_map_of_mem hown)
    rw [Scope.isSome_slot?] at hhandle
    rw [hsize]
    exact of_decide_eq_true hhandle

theorem free_of_compile (h : s.compile c = (.ok compiled, u)) : u.frozen = false := by
  obtain ⟨hfree, -⟩ := Scope.compile_eq_ok h
  rcases s.state_compile c with ⟨hfrozen, -⟩ | ⟨-, t, -, hstate⟩
  · rw [hfree] at hfrozen
    cases hfrozen
  · rw [h] at hstate
    exact congrArg Scope.frozen hstate

end Compile

structure CopiedIn (u t : Scope) (c d : Criteria) : Prop where
  registered : c.Registered u.size
  known : ∀ id ∈ c.named, id.index < u.size
  renamed : Renamed (c.copyOf u.size) c d
  slots : ∃ slots : List Scope.Slot, slots.length = c.members.length ∧
    (∀ slot ∈ slots, slot.aliasName = none) ∧ t = { u with slots := u.slots ++ slots }
  spacious : t.Spacious
  free : t.frozen = false

namespace CopiedIn

variable {u t : Scope} {c d : Criteria}

theorem size (h : CopiedIn u t c d) : t.size = u.size + c.members.length := by
  obtain ⟨slots, hlength, -, rfl⟩ := h.slots
  simp [Scope.size, hlength]

theorem alias? (h : CopiedIn u t c d) (id : CriteriaId) : t.alias? id = u.alias? id := by
  obtain ⟨slots, -, hbare, rfl⟩ := h.slots
  exact Scope.alias?_append hbare id

theorem alias?_copy (h : CopiedIn u t c d) {m : Criteria} (hm : m ∈ c.members) :
    t.alias? (c.copyOf u.size m.id) = none := by
  have hfresh := (h.registered.fresh hm).1
  rw [h.alias?, Scope.alias?, Scope.slot?, List.getElem?_eq_none hfresh]
  rfl

theorem slot_named (h : CopiedIn u t c d) {id : CriteriaId} (hid : id ∈ c.named) :
    (t.slot? (c.copyOf u.size id)).isSome := by
  have hlt := h.registered.copyOf_lt (h.known id hid)
  rw [Scope.isSome_slot?, h.size]
  exact decide_eq_true hlt

theorem named (h : CopiedIn u t c d) : d.named = c.named.map (c.copyOf u.size) := by
  have hid : Reference.id ∘ Reference.rename (c.copyOf u.size) = c.copyOf u.size ∘ Reference.id := by
    funext reference
    cases reference <;> rfl
  rw [Criteria.named, h.renamed.references, Criteria.named, List.map_map, List.map_map, hid]

theorem slot (h : CopiedIn u t c d) {id : CriteriaId} (hid : id ∈ d.named) : (t.slot? id).isSome := by
  rw [h.named] at hid
  obtain ⟨original, horiginal, rfl⟩ := List.mem_map.mp hid
  exact h.slot_named horiginal

theorem known_settled (h : CopiedIn u t c d) {id : CriteriaId} (hid : id ∈ d.named) :
    ((t.settled d).alias? id).isSome := by
  have hslot := h.slot hid
  obtain ⟨reference, hreference, rfl⟩ := List.mem_map.mp hid
  exact Scope.isSome_alias?_settle hreference hslot

theorem tables_copy (h : CopiedIn u t c d) :
    tables d.references = c.members.map fun m => c.copyOf u.size m.id := by
  have htable : Reference.table? ∘ Reference.rename (c.copyOf u.size) =
      fun reference => reference.table?.map (c.copyOf u.size) := by
    funext reference
    cases reference <;> rfl
  rw [h.renamed.references, tables, List.filterMap_map, htable, ← List.map_filterMap, ← tables,
    tables_references, List.map_map]
  rfl

theorem nodup_aliases (h : CopiedIn u t c d) :
    ((tables d.references).map (t.settled d).alias?).Nodup := by
  have hheld : t.held.Spacious := ⟨h.spacious.size, h.spacious.reserved⟩
  have hbare : ∀ id ∈ tables d.references, t.held.alias? id = none ∧
      ((t.settled d).alias? id).isSome := by
    intro id hid
    have hnamed : id ∈ d.named := members_subset_named d (tables_references d ▸ hid)
    rw [h.tables_copy] at hid
    obtain ⟨m, hm, rfl⟩ := List.mem_map.mp hid
    exact ⟨h.alias?_copy hm, h.known_settled hnamed⟩
  -- Only the copies are compared: each of them had no alias before, and so was drawn a new one.
  have hids : (tables d.references).Nodup := h.tables_copy ▸ h.registered.nodup
  refine hids.map_on fun id hid other hother heq => ?_
  exact Scope.alias?_settle_inj hheld (hbare id hid).1 (hbare other hother).1 (hbare id hid).2 heq

theorem referenceFaults (h : CopiedIn u t c d) : t.referenceFaults d = [] := by
  obtain ⟨hscope, -, -⟩ := h.renamed.node
  have horder : InOrder d.scope (t.settled d) [] d.references := by
    refine ⟨fun r hr scope hr' => ?_, fun r hr _ => ?_, fun r hr id hid => ?_, ?_, ?_⟩
    · rw [h.renamed.references] at hr
      obtain ⟨original, horiginal, rfl⟩ := List.mem_map.mp hr
      rcases mem_references.mp horiginal with ⟨m, hm, rfl⟩ | ⟨p, hp, hown⟩
      · obtain rfl : m.scope = scope := Option.some.inj hr'
        rw [h.registered.scope m hm, hscope]
      · have htable := handle_of_mem_ownReferences hown
        cases original with
        | source => cases htable
        | owner id => cases hr'
        | correlated id => cases hr'
    · rw [t.isSome_slot?_settled]
      exact h.slot (List.mem_map_of_mem hr)
    · have hself : id = r.id := by
        cases r with
        | source scope id' qualify joined => exact (Option.some.inj hid).symm
        | owner id' => cases hid
        | correlated id' => cases hid
      exact h.known_settled (hself ▸ List.mem_map_of_mem hr)
    · exact h.tables_copy ▸ h.registered.nodup
    · exact h.nodup_aliases
  exact (referenceViolations_eq_nil_iff d.references).mpr horder |>.1

theorem qualifies (h : CopiedIn u t c d) (mode : QualifyMode) {id : CriteriaId} (hid : id ∈ c.named) :
    QueryCriteria.qualifies mode d.references (c.copyOf u.size id) =
      QueryCriteria.qualifies mode c.references id := by
  rw [h.renamed.references]
  refine qualifies_rename mode fun table htable heq => ?_
  rw [tables_references] at htable
  have htable := h.known table (members_subset_named c htable)
  exact h.registered.copyOf_inj htable (h.known id hid) heq

theorem pieces (h : CopiedIn u t c d) :
    d.statementDraft.map (piece (t.settledContext d)) =
      c.statementDraft.map (piece ⟨fun id => (t.settled d).alias? (c.copyOf u.size id),
        QueryCriteria.qualifies t.config.qualify c.references⟩) := by
  rw [h.renamed.pieces]
  refine pieces_congr (c := c) (fun id _ => ?_) (fun id hid => ?_) false
  · rfl
  have hqualifies : ((t.settledContext d).comap (c.copyOf u.size)).qualifies id =
      QueryCriteria.qualifies (t.settled d).config.qualify d.references (c.copyOf u.size id) := rfl
  rw [hqualifies, t.config_settled, h.qualifies _ (columnOwners_subset_named c hid)]

theorem accepted (h : CopiedIn u t c d) (hc : Accepted c.statementDraft.bindingOrder) :
    Accepted d.statementDraft.bindingOrder := by
  intro f hf
  rw [h.renamed.draft, Clauses.bindingOrder_map] at hf
  obtain ⟨original, horiginal, rfl⟩ := List.mem_map.mp hf
  have hkept := hc original horiginal
  cases original <;> first | rfl | exact hkept

theorem compile (h : CopiedIn u t c d) (hc : Accepted c.statementDraft.bindingOrder) :
    ∃ v, t.compile d = (.ok (c.placed t.config.placeholder
        ⟨fun id => (t.settled d).alias? (c.copyOf u.size id),
          QueryCriteria.qualifies t.config.qualify c.references⟩ t.parameters), v) ∧
      v.alias? = (t.settled d).alias? := by
  obtain ⟨v, hcompile, hv⟩ := Scope.compile_of_accepted h.free h.referenceFaults (h.accepted hc)
  rw [Criteria.placed, h.pieces, h.renamed.compiled] at hcompile
  exact ⟨v, hcompile, hv⟩

end CopiedIn

namespace Workspace

variable {w w₁ w₂ : Workspace} {c d : Criteria} {compiled : Compiled}

theorem compile_eq_ok (h : w.compile c = (.ok compiled, w₁)) :
    (w.scope c.scope).compile c = (.ok compiled, w₁.scope c.scope) ∧
      c.scope.index < w₁.scopes.length := by
  unfold Workspace.compile at h
  rcases hrun : (w.scope c.scope).compile c with ⟨result, s⟩
  rw [hrun] at h
  cases result with
  | error e => cases h
  | ok compiled =>
      cases h
      have hopen : c.scope.index < w.scopes.length := by
        have hfaults := (Scope.compile_eq_ok hrun).2.1
        have hresolved := ((w.scope c.scope).referenceFaults_eq_nil_iff c).mp hfaults
        exact Knows.opened (hresolved.registered c c.self_mem_members)
      have hset := scope_setScope hopen s c.scope
      rw [if_pos rfl] at hset
      refine ⟨Prod.ext rfl hset.symm, ?_⟩
      simpa [setScope, record] using hopen

theorem compile_of_scope {id : ScopeId} (hid : c.scope = id) (hopen : id.index < w.scopes.length)
    {s : Scope} (h : (w.scope id).compile c = (.ok compiled, s)) :
    ∃ v, w.compile c = (.ok compiled, v) ∧ v.scope id = s := by
  subst hid
  have hset := scope_setScope hopen s c.scope
  rw [if_pos rfl] at hset
  refine ⟨(w.setScope c.scope s).record (.compileFinished c.node.entity.name c.predicateCount
    compiled.bindings.size c.subqueryCount), ?_, hset⟩
  simp only [Workspace.compile, h]

theorem modelled_of_compile (h : w.compile c = (.ok compiled, w₁)) (hmodels : c.Each w.Models) :
    c.Each w₁.Models := by
  have hsame := sameModels_of_acts (w.acts_compile c)
  rw [h] at hsame
  exact hmodels.modelled hsame

theorem copiedIn (hspacious : (w.scope c.scope).Spacious) (hmodels : c.Each w.Models)
    (hcompile : w.compile c = (.ok compiled, w₁)) (hderive : w₁.derive c = (.ok d, w₂))
    (hback : Visit.Settled .handle c.trail) :
    CopiedIn (w₁.scope c.scope) (w₂.scope c.scope) c d := by
  obtain ⟨hscope, hopen⟩ := compile_eq_ok hcompile
  have hregistered := registered_of_compile hscope
  obtain ⟨hgrown, hmatches⟩ :=
    derive_eq_ok hopen hregistered.scope (modelled_of_compile hcompile hmodels) hderive
  obtain ⟨slots, hlength, hbare, hslots⟩ := hgrown.slots
  have hfirst : (w₁.scope c.scope).Spacious := by
    have hstep := Scope.spacious_step hspacious (.compile c)
    rwa [Scope.step, hscope] at hstep
  have hroom : (w₁.scope c.scope).size + slots.length ≤ Scope.capacity := by
    have hsize := hgrown.size
    rcases hgrown.room with hnone | hroom
    · have hself := List.length_pos_of_mem c.self_mem_members
      omega
    · omega
  refine ⟨hregistered, fun id hid => index_lt_of_compile hscope hid, ⟨fun _ => ⟨0⟩, ?_⟩,
    ⟨slots, hlength, hbare, hslots⟩, hslots ▸ hfirst.append hbare hroom, ?_⟩
  · exact (hmatches.relabel _ _).mpr
      (hregistered.ahead.replay_of_settled hback (fun _ => ⟨0⟩) fun _ _ => rfl)
  · have hfree := free_of_compile hscope
    rwa [hslots]

end Workspace

structure PlacedTwice (config : Config) (c : Criteria) (r : CriteriaId → CriteriaId) (s t : Scope)
    (names : NumberedNames) (compiled copy : Compiled) : Prop where
  first : compiled = c.placed config.placeholder
    ⟨s.alias?, qualifies config.qualify c.references⟩ names
  second : copy = c.placed config.placeholder
    ⟨fun id => t.alias? (r id), qualifies config.qualify c.references⟩ s.parameters
  names : s.parameters = names.advance compiled.bindings.size
  known : ∀ m ∈ c.members, (s.alias? m.id).isSome ∧ (t.alias? (r m.id)).isSome
  others : ∀ id, id ∉ c.members.map Criteria.id → ∀ a, s.alias? id = some a → t.alias? (r id) = some a
  values : copy.bindings.values = compiled.bindings.values
  shape : copy.shape = compiled.shape
  window : copy.window? = compiled.window?
  ordinals : config.placeholder = .dollar →
    copy.placeholders copy.statementParts = compiled.placeholders compiled.statementParts ∧
      copy.placeholders copy.countParts = compiled.placeholders compiled.countParts

theorem names_after_compile {s u : Scope} {c : Criteria} {compiled : Compiled}
    (h : s.compile c = (.ok compiled, u)) :
    u.parameters = s.parameters.advance compiled.bindings.size := by
  have hparameters := s.parameters_compile c
  have hlength := congrArg List.length (names_of_compile h)
  rw [Scope.issuedBy, NumberedNames.length_drawMany] at hlength
  have hsize : compiled.bindings.size = s.parametersDrawn c := by
    rw [← hlength]
    exact (List.length_map _).symm
  rw [h] at hparameters
  rw [hsize]
  exact hparameters

theorem placedTwice {s u t v : Scope} {c d : Criteria} {compiled copy : Compiled}
    (hfirst : s.compile c = (.ok compiled, u)) (h : CopiedIn u t c d)
    (hsecond : t.compile d = (.ok copy, v)) :
    PlacedTwice s.config c (c.copyOf u.size) u v s.parameters compiled copy := by
  obtain ⟨-, -, hfailure, -, halias⟩ := Scope.compile_eq_ok hfirst
  have hconfig : u.config = s.config := by rw [← s.config_compile c, hfirst]
  obtain ⟨slots, -, -, ht⟩ := h.slots
  have htconfig : t.config = s.config := by rw [ht, hconfig]
  have htparameters : t.parameters = u.parameters := by rw [ht]
  obtain ⟨v', hcompile, hv⟩ := h.compile (accepted_of_firstFailure? hfailure)
  rw [hsecond, htconfig, htparameters] at hcompile
  obtain ⟨hcopy, rfl⟩ := Prod.mk.inj hcompile
  have hcopy := Except.ok.inj hcopy
  have hplaced := placed_of_compile hfirst
  have hvalues : copy.bindings.values = compiled.bindings.values := by
    rw [hcopy, hplaced, values_placed, values_placed]
  refine ⟨?_, by rw [hcopy, hv], names_after_compile hfirst, fun m hm => ?_, fun id hid a ha => ?_,
    hvalues, by rw [hcopy, hplaced]; rfl, by rw [hcopy, hplaced]; rfl, fun hdollar => ?_⟩
  · rw [hplaced, ← hconfig]
    rfl
  · have hmember := List.mem_map_of_mem (f := Criteria.id) hm
    have hnamed : c.copyOf u.size m.id ∈ d.named := by
      rw [h.named]
      exact List.mem_map_of_mem (members_subset_named c hmember)
    have hslot : (s.slot? m.id).isSome := by
      have hfaults := (Scope.compile_eq_ok hfirst).2.1
      exact ((s.referenceFaults_eq_nil_iff c).mp hfaults).registered m hm
    rw [halias, hv]
    exact ⟨(Scope.isSome_alias?_settled hm).mpr hslot, h.known_settled hnamed⟩
  · rw [Criteria.copyOf_of_notMem hid, hv]
    refine (t.aliased_settled d).alias? ?_
    rw [← ha, ← h.alias?]
    rfl
  · obtain ⟨hstatement, hcount⟩ := placeholders_of_compile hfirst
    obtain ⟨hstatement', hcount'⟩ := placeholders_of_compile hsecond
    rw [hstatement, hstatement', hcount, hcount', htconfig, hdollar]
    simp only [Bindings.placeholders_dollar, hvalues, and_self]

theorem Scope.invariant_spacious : Invariant Spacious where
  fresh := spacious_fresh
  step _ a hs _ := spacious_step hs a

-- In the order of copying, no owner and no right side of a predicate comes before the criteria of the tree
-- that it names: this is `hback`.
theorem derived_copy_compiles {S : Session} (hS : S.Reachable) {c : Criteria} (hc : c ∈ S.criteria)
    {compiled : Compiled} {w₁ : Workspace} (hcompile : S.workspace.compile c = (.ok compiled, w₁))
    (hback : Visit.Settled .handle c.trail) :
    ((w₁.scope c.scope).size + c.members.length ≤ Scope.capacity → ∃ d w₂, w₁.derive c = (.ok d, w₂)) ∧
      ∀ d w₂, w₁.derive c = (.ok d, w₂) →
        ∃ r : CriteriaId → CriteriaId,
          (c.members.map fun m => r m.id).Nodup ∧ (∀ m ∈ c.members, ¬ w₁.Knows c.scope (r m.id)) ∧
          (∀ id, id ∉ c.members.map Criteria.id → r id = id) ∧
          (∀ ctx, d.statementDraft.map (piece ctx) = c.statementDraft.map (piece (ctx.comap r))) ∧
          ∃ copy w₃, w₂.compile d = (.ok copy, w₃) ∧
            PlacedTwice (S.workspace.scope c.scope).config c r (w₁.scope c.scope) (w₃.scope c.scope)
              (S.workspace.scope c.scope).parameters compiled copy := by
  obtain ⟨hscope, hopen⟩ := Workspace.compile_eq_ok hcompile
  have hregistered := registered_of_compile hscope
  have hspacious := Session.scope_of_reachable Scope.invariant_spacious hS c.scope
  have hmodels := Session.models_of_reachable hS hc
  have hkept := Workspace.modelled_of_compile hcompile hmodels
  refine ⟨fun hroom =>
      Workspace.exists_derive hopen hregistered.scope hkept (free_of_compile hscope) hroom,
    fun d w₂ hderive => ?_⟩
  have hcopied := Workspace.copiedIn hspacious hmodels hcompile hderive hback
  refine ⟨c.copyOf (w₁.scope c.scope).size, hregistered.nodup, fun m hm => ?_, fun id hid =>
    Criteria.copyOf_of_notMem hid, hcopied.renamed.pieces, ?_⟩
  · have hfresh := (hregistered.fresh hm).1
    simpa [Workspace.Knows, Scope.isSome_slot?] using hfresh
  · obtain ⟨hgrown, -⟩ := Workspace.derive_eq_ok hopen hregistered.scope hkept hderive
    obtain ⟨hsame, -, -⟩ := hcopied.renamed.node
    have hfailure := (Scope.compile_eq_ok hscope).2.2.1
    obtain ⟨v, hcompiled, -⟩ := hcopied.compile (accepted_of_firstFailure? hfailure)
    obtain ⟨w₃, hw₃, hv⟩ := Workspace.compile_of_scope hsame (hgrown.opened ▸ hopen) hcompiled
    have htwice := placedTwice hscope hcopied hcompiled
    rw [← hv] at htwice
    exact ⟨_, w₃, hw₃, htwice⟩

namespace Teams

open Model

def staff : Entity :=
  { name := "Staff", table := "staff", columns := [{ name := "team_id", property := "team" }] }

def teams : Entity :=
  { name := "Team", table := "teams", columns := [{ name := "id", property := "id" }] }

def tasks : Entity :=
  { name := "Task", table := "tasks", columns := [{ name := "staff_team", property := "team" }] }

def enlist (S : Session) (entity : String) : Session :=
  S.taking (S.workspace.create ⟨0⟩ entity none)

def opened : Session :=
  { workspace := (Workspace.openScope {} {} { entities := [staff, teams, tasks] }).2 }

def office : Session :=
  enlist (enlist (enlist opened "Staff") "Team") "Task"

def member : Criteria :=
  .fresh ⟨0⟩ ⟨0⟩ staff none

def ofMember (index : Nat) (entity : Entity) (column : Column) : Criteria :=
  (Criteria.fresh ⟨0⟩ ⟨index⟩ entity none).push
    (.test { owner := some ⟨index⟩, matched := .standard, target := some (.resolved column) }
      (.columnEqual ⟨⟨0⟩, none, .resolved { name := "team_id", property := "team" }⟩))

def team : Criteria :=
  ofMember 1 teams { name := "id", property := "id" }

def task : Criteria :=
  ofMember 2 tasks { name := "staff_team", property := "team" }

-- Members with their teams, for whom there is a task.
def roster : Criteria :=
  (member.join team).push (.existence { owner := some ⟨0⟩ } false task)

def session : Session :=
  (((office.holding team).holding task).holding (member.join team)).holding roster

theorem reachable_session : session.Reachable := by
  have henlist : ∀ (S : Session) (entity : String), S.Reachable → 0 < S.workspace.scopes.length →
      (enlist S entity).Reachable :=
    fun S entity hS hscopes => hS.tail (.create entity none hscopes)
  have hopened : opened.Reachable := .single (.openScope {} { entities := [staff, teams, tasks] })
  have hoffice : office.Reachable :=
    henlist _ _ (henlist _ _ (henlist opened _ hopened (by decide)) (by decide)) (by decide)
  have hcriteria : office.criteria =
      [.fresh ⟨0⟩ ⟨2⟩ tasks none, .fresh ⟨0⟩ ⟨1⟩ teams none, member] := rfl
  have hteam : office.workspace.add (.fresh ⟨0⟩ ⟨1⟩ teams none)
      (.condition (.equalsProperty .and "id" member "team")) = (some team, office.workspace) := rfl
  have hone : (office.holding team).Reachable :=
    hoffice.tail (.add (by simp [hcriteria]) (List.nil_subset _) (List.nil_subset _) hteam)
  have htask : office.workspace.add (.fresh ⟨0⟩ ⟨2⟩ tasks none)
      (.condition (.equalsProperty .and "team" member "team")) = (some task, office.workspace) := rfl
  have htwo : ((office.holding team).holding task).Reachable :=
    hone.tail (.add (by simp [Session.holding, hcriteria]) (List.nil_subset _) (List.nil_subset _) htask)
  have hjoined : (((office.holding team).holding task).holding (member.join team)).Reachable :=
    htwo.tail (.join (by simp [Session.holding, hcriteria]) (by simp [Session.holding]))
  have hroster : office.workspace.add (member.join team)
      (.condition (.plain .and (.existence false (some task)))) = (some roster, office.workspace) := rfl
  have hqueries : [task] ⊆ (((office.holding team).holding task).holding (member.join team)).criteria := by
    simp [Session.holding]
  exact hjoined.tail (.add (a := .condition (.plain .and (.existence false (some task))))
    List.mem_cons_self hqueries (List.nil_subset _) hroster)

end Teams

theorem team_copied :
    ∃ compiled w₁ d w₂ copy w₃, Teams.session.workspace.compile Teams.roster = (.ok compiled, w₁) ∧
      w₁.derive Teams.roster = (.ok d, w₂) ∧ w₂.compile d = (.ok copy, w₃) ∧
      copy.bindings.values = compiled.bindings.values := by
  have hback : Visit.Settled .handle Teams.roster.trail := by
    have htrail : Teams.roster.trail =
        [.node ⟨0⟩, .node ⟨1⟩, .handle ⟨0⟩, .handle ⟨1⟩, .node ⟨2⟩, .handle ⟨0⟩, .handle ⟨2⟩,
          .handle ⟨0⟩] := rfl
    rw [htrail]
    simp [Visit.settled_cons, Visit.settled_nil, Visit.nodes, Visit.node?]
  obtain ⟨hderive, hcopies⟩ := derived_copy_compiles Teams.reachable_session (c := Teams.roster)
    List.mem_cons_self rfl hback
  obtain ⟨d, w₂, hd⟩ := hderive (by decide)
  obtain ⟨_, -, -, -, -, copy, w₃, hcopy, htwice⟩ := hcopies d w₂ hd
  exact ⟨_, _, d, w₂, copy, w₃, rfl, hd, hcopy, htwice.values⟩

end QueryCriteria
