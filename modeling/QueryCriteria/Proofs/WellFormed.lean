import Mathlib.Data.List.Duplicate
import QueryCriteria.Proofs.Faults
import QueryCriteria.Proofs.Refusals

namespace QueryCriteria

namespace Template

def Missing (args : TemplateArgs) (column : Option Target) : Token → Prop
  | .positional index => args.positional[index]? = none
  | .named name => args.named.get? name = none
  | .column => column = none

def Emptied (args : TemplateArgs) : Token → Prop
  | .positional index => args.positional[index]? = some (.list [])
  | .named name => args.named.get? name = some (.list [])
  | .column => False

def Fulfilled (template : String) (args : TemplateArgs) (column : Option Target) : Prop :=
  ∃ segments, parse template = .ok segments ∧
    ∀ token, .token token ∈ segments → ¬ Missing args column token ∧ ¬ Emptied args token

end Template

open Template

def Test.Filled : Test → Prop
  | .range _ values => values ≠ []
  | _ => True

namespace Predicate

def Formed : Predicate → Prop
  | .test head t => head.target.isSome ∧ t.Filled
  | .subquery head _ _ => head.target.isSome
  | _ => True

def template? : Predicate → Option (String × TemplateArgs × Option Target)
  | .test head (.template args column) => head.target.map fun target => (target.sqlName, args, column)
  | _ => none

def templateFaults (p : Predicate) : List CompileError :=
  match p.template? with
  | some (template, args, column) => Test.templateFaults template args column
  | none => []

theorem faults_of_formed {p : Predicate} (h : p.Formed) (ctx : Context) (enclosing : CriteriaId) :
    p.faults ctx enclosing = p.templateFaults := by
  cases p with
  | test head t =>
      obtain ⟨htarget, hfilled⟩ := h
      obtain ⟨target, htarget⟩ := Option.isSome_iff_exists.mp htarget
      cases t with
      | range op values =>
          cases values with
          | nil => exact absurd rfl hfilled
          | cons v vs => simp [faults, htarget, Test.faults, templateFaults, template?]
      | template args column =>
          simp [faults, htarget, Test.faults, templateFaults, template?, Head.columnUse]
      | _ => simp [faults, htarget, Test.faults, templateFaults, template?]
  | subquery head op query =>
      obtain ⟨target, htarget⟩ := Option.isSome_iff_exists.mp h
      simp [faults, htarget, templateFaults, template?]
  | _ => rfl

end Predicate

def Criteria.shapeFaults (c : Criteria) : List CompileError :=
  c.reading (fun _ => []) joinFaults fun _ => Predicate.templateFaults

theorem renderFaults_of_formed {c : Criteria} (h : ∀ p ∈ c.conditions, p.Formed) (ctx : Context) :
    c.renderFaults ctx = c.shapeFaults :=
  ((reading_congr _ _ _).1 c fun p hp => Predicate.faults_of_formed (h p hp) ctx).1

inductive Criteria.Misshapen (c : Criteria) : CompileError → Prop
  | unjoined {m : Criteria} : m ∈ c.participants → m.predicates = [] →
      Misshapen c (.joinWithoutCondition m.node.entity.name)
  | malformed {p : Predicate} {template : String} {args : TemplateArgs} {column : Option Target}
      {fault : Fault} : p ∈ c.conditions → p.template? = some (template, args, column) →
      parse template = .error fault → Misshapen c (.malformedTemplate template fault.message)
  | missing {p : Predicate} {template : String} {args : TemplateArgs} {column : Option Target}
      {segments : List Segment} {token : Token} : p ∈ c.conditions →
      p.template? = some (template, args, column) → parse template = .ok segments →
      .token token ∈ segments → Missing args column token →
      Misshapen c (.unresolvedPlaceholder token.text)
  | emptied {p : Predicate} {template : String} {args : TemplateArgs} {column : Option Target}
      {segments : List Segment} {token : Token} : p ∈ c.conditions →
      p.template? = some (template, args, column) → parse template = .ok segments →
      .token token ∈ segments → Emptied args token → Misshapen c (.emptyInList template)

section Shape

variable {template : String} {args : TemplateArgs} {column : Option Target} {e : CompileError}

theorem mem_argumentFaults {token : Token} {argument : Option Value} :
    e ∈ Test.argumentFaults template token argument ↔
      argument = none ∧ e = .unresolvedPlaceholder token.text ∨
        argument = some (.list []) ∧ e = .emptyInList template := by
  cases argument with
  | none => simp [Test.argumentFaults]
  | some value =>
      cases value with
      | list items => cases items <;> simp [Test.argumentFaults]
      | _ => simp [Test.argumentFaults]

theorem mem_segmentFaults {segment : Segment} :
    e ∈ Test.segmentFaults template args column segment ↔
      ∃ token, segment = .token token ∧
        (Missing args column token ∧ e = .unresolvedPlaceholder token.text ∨
          Emptied args token ∧ e = .emptyInList template) := by
  cases segment with
  | text s => simp [Test.segmentFaults]
  | token token =>
      cases token with
      | positional index => simp [Test.segmentFaults, mem_argumentFaults, Missing, Emptied]
      | named name => simp [Test.segmentFaults, mem_argumentFaults, Missing, Emptied]
      | column => cases column <;> simp [Test.segmentFaults, Missing, Emptied]

theorem mem_templateFaults :
    e ∈ Test.templateFaults template args column ↔
      (∃ fault, parse template = .error fault ∧ e = .malformedTemplate template fault.message) ∨
        ∃ segments, parse template = .ok segments ∧ ∃ token, .token token ∈ segments ∧
          (Missing args column token ∧ e = .unresolvedPlaceholder token.text ∨
            Emptied args token ∧ e = .emptyInList template) := by
  unfold Test.templateFaults
  cases parse template with
  | error fault => simp
  | ok segments =>
      simp only [List.mem_flatMap, mem_segmentFaults]
      grind

theorem templateFaults_eq_nil_iff :
    Test.templateFaults template args column = [] ↔ Fulfilled template args column := by
  rw [List.eq_nil_iff_forall_not_mem]
  simp only [mem_templateFaults, Fulfilled]
  cases parse template with
  | error fault => simp
  | ok segments => grind

theorem mem_templateFaults_predicate {p : Predicate} :
    e ∈ p.templateFaults ↔ ∃ template args column, p.template? = some (template, args, column) ∧
      e ∈ Test.templateFaults template args column := by
  unfold Predicate.templateFaults
  rcases p.template? with - | ⟨template, args, column⟩
  · simp
  · simp

theorem mem_joinFaults {m : Criteria} :
    e ∈ m.joinFaults ↔ m.predicates = [] ∧ e = .joinWithoutCondition m.node.entity.name := by
  cases hps : m.predicates <;> simp [Criteria.joinFaults, hps]

theorem mem_shapeFaults {c : Criteria} : e ∈ c.shapeFaults ↔ c.Misshapen e := by
  rw [Criteria.shapeFaults, (mem_reading _).1 c |>.1]
  simp only [mem_joinFaults, mem_templateFaults_predicate, mem_templateFaults]
  constructor
  · rintro (⟨m, hm, hempty, rfl⟩ | ⟨p, hp, template, args, column, htemplate, h⟩)
    · exact .unjoined hm hempty
    · rcases h with ⟨fault, hparse, rfl⟩ | ⟨segments, hparse, token, htoken, h⟩
      · exact .malformed hp htemplate hparse
      · rcases h with ⟨hmissing, rfl⟩ | ⟨hemptied, rfl⟩
        · exact .missing hp htemplate hparse htoken hmissing
        · exact .emptied hp htemplate hparse htoken hemptied
  · intro h
    cases h with
    | unjoined hm hempty => exact .inl ⟨_, hm, hempty, rfl⟩
    | malformed hp htemplate hparse =>
        exact .inr ⟨_, hp, _, _, _, htemplate, .inl ⟨_, hparse, rfl⟩⟩
    | missing hp htemplate hparse htoken hmissing =>
        exact .inr ⟨_, hp, _, _, _, htemplate, .inr ⟨_, hparse, _, htoken, .inl ⟨hmissing, rfl⟩⟩⟩
    | emptied hp htemplate hparse htoken hemptied =>
        exact .inr ⟨_, hp, _, _, _, htemplate, .inr ⟨_, hparse, _, htoken, .inr ⟨hemptied, rfl⟩⟩⟩

theorem shapeFaults_eq_nil_iff {c : Criteria} :
    c.shapeFaults = [] ↔ (∀ m ∈ c.participants, m.predicates ≠ []) ∧
      ∀ p ∈ c.conditions, ∀ template args column, p.template? = some (template, args, column) →
        Fulfilled template args column := by
  simp only [List.eq_nil_iff_forall_not_mem, ← templateFaults_eq_nil_iff]
  simp only [Criteria.shapeFaults, (mem_reading _).1 c, mem_joinFaults, mem_templateFaults_predicate]
  grind

end Shape

inductive Scope.Misreferenced (s : Scope) (c : Criteria) : CompileError → Prop
  | foreign {m : Criteria} : m ∈ c.members → m.scope ≠ c.scope → Misreferenced s c (.foreignScope m.id)
  | duplicate {id : CriteriaId} : List.Duplicate id (c.members.map Criteria.id) →
      Misreferenced s c (.duplicateCriteria id)
  | collision {a : String} : List.Duplicate (some a) (c.members.map fun m => (s.settled c).alias? m.id) →
      Misreferenced s c (.aliasCollision a)
  | unknown {p : Predicate} {id : CriteriaId} : p ∈ c.conditions → id ∈ p.handles → s.slot? id = none →
      Misreferenced s c (.scope (.unknownCriteria id))

theorem exists_of_mem_referenceViolations {root : ScopeId} {t : Scope} {before refs : List Reference}
    {e : CompileError} (h : e ∈ referenceViolations root t before refs) :
    ∃ first r rest, refs = first ++ r :: rest ∧ r.violation? root t (before ++ first) = some e := by
  induction refs generalizing before with
  | nil => cases h
  | cons r rest ih =>
      rcases List.mem_append.mp h with h | h
      · exact ⟨[], r, rest, rfl, by simpa using h⟩
      · obtain ⟨first, r', rest', rfl, hviolation⟩ := ih h
        exact ⟨r :: first, r', rest', rfl, by simpa using hviolation⟩

theorem duplicate_of_mem {α : Type} {x : α} {xs ys : List α} (h : x ∈ xs) :
    List.Duplicate x (xs ++ x :: ys) := by
  rw [List.duplicate_iff_sublist]
  exact (List.singleton_sublist.mpr h).append (List.singleton_sublist.mpr List.mem_cons_self)

namespace Scope

variable {s : Scope} {c : Criteria}

theorem misreferenced_of_table {e : CompileError} {m : Criteria} {first rest : List Reference}
    (hm : m ∈ c.members) (hknown : m.scope = c.scope → (s.slot? m.id).isSome)
    (hrefs : c.references = first ++ m.ownReference :: rest)
    (h : m.ownReference.violation? c.scope (s.settled c) first = some e) : s.Misreferenced c e := by
  have htables : c.members.map Criteria.id = tables first ++ m.id :: tables rest := by
    rw [← tables_references, hrefs]
    simp [Criteria.ownReference, Reference.table?]
  simp only [Criteria.ownReference, Reference.violation?] at h
  split at h
  · next hscope =>
    cases h
    exact .foreign hm hscope
  split at h
  · next hdup =>
    cases h
    exact .duplicate (htables ▸ duplicate_of_mem hdup)
  split at h
  · next hscope _ _ halias =>
    have hsome := (isSome_alias?_settled hm).mpr (hknown (not_not.mp hscope))
    simp [halias] at hsome
  · next a halias =>
    have haliases : (c.members.map fun m => (s.settled c).alias? m.id) =
        (tables first).map (s.settled c).alias? ++ some a :: (tables rest).map (s.settled c).alias? := by
      have hmap := congrArg (List.map (s.settled c).alias?) htables
      simpa [halias, Function.comp_def] using hmap
    split at h
    · next hcollision =>
      cases h
      exact .collision (haliases ▸ duplicate_of_mem hcollision)
    · cases h

theorem misreferenced_of_handle {e : CompileError} {p : Predicate} {r : Reference}
    {before : List Reference} (hp : p ∈ c.conditions) (hr : r ∈ p.ownReferences)
    (h : r.violation? c.scope (s.settled c) before = some e) : s.Misreferenced c e := by
  rw [violation?_handle (handle_of_mem_ownReferences hr)] at h
  split at h
  · next hnone =>
    cases h
    refine .unknown hp (map_id_ownReferences p ▸ List.mem_map_of_mem hr) ?_
    rw [← Option.not_isSome, isSome_slot?_settled, Option.not_isSome] at hnone
    exact Option.isNone_iff_eq_none.mp hnone
  · cases h

theorem misreferenced_of_mem {e : CompileError}
    (hknown : ∀ m ∈ c.members, m.scope = c.scope → (s.slot? m.id).isSome)
    (h : e ∈ s.referenceFaults c) : s.Misreferenced c e := by
  obtain ⟨first, r, rest, hrefs, hviolation⟩ := exists_of_mem_referenceViolations h
  have hr : r ∈ c.references := hrefs ▸ List.mem_append_right _ List.mem_cons_self
  rcases mem_references.mp hr with ⟨m, hm, rfl⟩ | ⟨p, hp, hown⟩
  · exact misreferenced_of_table hm (hknown m hm) hrefs hviolation
  · exact misreferenced_of_handle hp hown hviolation

theorem isSome_alias?_of_named (hs : s.referenceFaults c = []) :
    ∀ id ∈ c.named, ((s.settledContext c).alias? id).isSome := by
  have hresolved := (s.referenceFaults_eq_nil_iff c).mp hs
  intro id hid
  obtain ⟨r, hr, rfl⟩ := List.mem_map.mp hid
  have hslot : (s.held.slot? r.id).isSome := by
    rcases mem_references.mp hr with ⟨m, hm, rfl⟩ | ⟨p, hp, hr⟩
    · exact hresolved.registered m hm
    · exact hresolved.handles p hp _ (map_id_ownReferences p ▸ List.mem_map_of_mem hr)
  exact isSome_alias?_settle hr hslot

theorem compile_verdict (hs : s.frozen = false) (c : Criteria) :
    (s.compile c).1.map (fun _ => ()) =
      verdict (s.referenceFaults c ++ c.renderFaults (s.settledContext c)) := by
  cases hfaults : s.referenceFaults c with
  | cons e es =>
      obtain ⟨t, -, hcompile⟩ := compile_of_fault hs hfaults
      rw [hcompile]
      rfl
  | nil =>
      have hfailure := firstFailure?_statementDraft (isSome_alias?_of_named hfaults)
      rw [compile_of_settled hs hfaults, placeDraft, Criteria.statementDraft, hfailure]
      cases c.renderFaults (s.settledContext c) <;> rfl

end Scope

structure WellFormed (s : Scope) (c : Criteria) : Prop where
  scope : ∀ m ∈ c.members, m.scope = c.scope
  ids : (c.members.map Criteria.id).Nodup
  aliases : (c.members.map fun m => (s.settled c).alias? m.id).Nodup
  handles : ∀ p ∈ c.conditions, ∀ id ∈ p.handles, (s.slot? id).isSome
  joined : ∀ m ∈ c.participants, m.predicates ≠ []
  templates : ∀ p ∈ c.conditions, ∀ template args column,
    p.template? = some (template, args, column) → Fulfilled template args column

theorem faults_eq_nil_iff_wellFormed {s : Scope} {c : Criteria}
    (hknown : ∀ m ∈ c.members, m.scope = c.scope → (s.slot? m.id).isSome) :
    s.referenceFaults c ++ c.shapeFaults = [] ↔ WellFormed s c := by
  rw [List.append_eq_nil_iff, s.referenceFaults_eq_nil_iff, shapeFaults_eq_nil_iff]
  constructor
  · rintro ⟨hresolved, hjoined, htemplates⟩
    exact ⟨hresolved.scope, hresolved.ids, hresolved.aliases, hresolved.handles, hjoined, htemplates⟩
  · intro h
    exact ⟨⟨h.scope, fun m hm => hknown m hm (h.scope m hm), h.ids, h.aliases, h.handles⟩,
      h.joined, h.templates⟩

end QueryCriteria
