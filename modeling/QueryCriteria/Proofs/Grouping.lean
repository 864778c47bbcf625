import Mathlib.Logic.Relation
import QueryCriteria.Proofs.Compilation
import QueryCriteria.Proofs.Draft
import QueryCriteria.Proofs.Pieces
import QueryCriteria.Proofs.Skeletons

namespace QueryCriteria

open Fragment

namespace Piece

structure Alike (ps qs : List (Piece Value)) : Prop where
  places : (holes ps).length = (holes qs).length
  text : ∀ names placed fill, write fill (numberFrom names placed ps) = write fill (numberFrom names placed qs)

namespace Alike

variable {ps qs ps' qs' : List (Piece Value)}

theorem refl (ps : List (Piece Value)) : Alike ps ps where
  places := rfl
  text _ _ _ := rfl

theorem append (h : Alike ps qs) (k : Alike ps' qs') : Alike (ps ++ ps') (qs ++ qs') where
  places := by rw [holes_append, holes_append, List.length_append, List.length_append, h.places, k.places]
  text names placed fill := by
    rw [numberFrom_append, numberFrom_append, write_append, write_append, h.text, h.places, k.text]

end Alike

end Piece

def Mark.pieces (ctx : Context) : Mark (List Fragment) → List (Piece Value)
  | .atom fs => fs.map (piece ctx)
  | .tie slot => [.text (" " ++ slot.text ++ " ")]
  | .negation => [.text "NOT "]
  | .opening => [.text "("]
  | .closing => [.text ")"]

mutual
def Predicate.skeleton (enclosing : CriteriaId) : Predicate → Skeleton (List Fragment)
  | .test head t => .atom head.connective (predicateFragment enclosing (.test head t))
  | .existence head negated query =>
      .atom head.connective (predicateFragment enclosing (.existence head negated query))
  | .subquery head op query => .atom head.connective (predicateFragment enclosing (.subquery head op query))
  | .nested head negated children => .group head.connective negated (skeletons enclosing children)

def skeletons (enclosing : CriteriaId) : List Predicate → List (Skeleton (List Fragment))
  | [] => []
  | p :: ps => p.skeleton enclosing :: skeletons enclosing ps
end

theorem slot_skeleton (enclosing : CriteriaId) (p : Predicate) :
    (p.skeleton enclosing).slot = p.head.connective := by
  cases p <;> simp [Predicate.skeleton, Skeleton.slot, Predicate.head]

section Marks

open Piece Skeleton

variable {enclosing : CriteriaId} {ctx : Context}

theorem alike_predicateFragments {ps : List Predicate}
    (h : ∀ p ∈ ps, Alike ((predicateFragment enclosing p).map (piece ctx))
      ((p.skeleton enclosing).marks.flatMap (Mark.pieces ctx))) (first : Bool) :
    Alike ((predicateFragments enclosing first ps).map (piece ctx))
      ((listMarks first (skeletons enclosing ps)).flatMap (Mark.pieces ctx)) := by
  induction ps generalizing first with
  | nil => simpa [predicateFragments, skeletons, listMarks] using Alike.refl []
  | cons p ps ih =>
      obtain ⟨hp, hps⟩ := List.forall_mem_cons.mp h
      have hlead : Alike [Fragment.piece ctx (.lead (if first then none else some p.head.connective))]
          ((if first then [] else [Mark.tie p.head.connective]).flatMap (Mark.pieces ctx)) := by
        cases first with
        | true => exact ⟨rfl, fun _ _ _ => rfl⟩
        | false => exact .refl _
      have hall := (hlead.append hp).append (ih hps false)
      simpa [predicateFragments, skeletons, listMarks, slot_skeleton] using hall

theorem alike_skeleton (p : Predicate) : Alike ((predicateFragment enclosing p).map (piece ctx))
    ((p.skeleton enclosing).marks.flatMap (Mark.pieces ctx)) := by
  have htree : (∀ _ : Criteria, True) ∧ ∀ p : Predicate, Alike ((predicateFragment enclosing p).map (piece ctx))
      ((p.skeleton enclosing).marks.flatMap (Mark.pieces ctx)) := by
    apply tree_induction
    case criteria => intros; trivial
    case test =>
      intro head t
      simpa [Predicate.skeleton, marks, Mark.pieces] using Alike.refl _
    case existence =>
      intro head negated query _
      simpa [Predicate.skeleton, marks, Mark.pieces] using Alike.refl _
    case subquery =>
      intro head op query _
      simpa [Predicate.skeleton, marks, Mark.pieces] using Alike.refl _
    case nested =>
      intro head negated children ih
      have hopening : Alike [Fragment.piece ctx (.openGroup negated)]
          ((if negated then [Mark.negation, .opening] else [.opening]).flatMap (Mark.pieces ctx)) := by
        cases negated with
        | true => exact ⟨rfl, fun _ _ _ => rfl⟩
        | false => exact .refl _
      have hall := (hopening.append (alike_predicateFragments ih true)).append (.refl [.text ")"])
      cases negated <;>
        simpa [predicateFragment, Predicate.skeleton, marks, Mark.pieces, Fragment.piece] using hall
  exact htree.2 p

end Marks

structure Placing where
  context : Context
  names : NumberedNames
  fill : Parameter → String

namespace Placing

open Skeleton

variable (σ : Placing)

def fragments (placed : Nat) (fs : List Fragment) : String :=
  Piece.write σ.fill (numberFrom σ.names placed (fs.map (piece σ.context)))

def marks (placed : Nat) (ms : List (Mark (List Fragment))) : String :=
  Piece.write σ.fill (numberFrom σ.names placed (ms.flatMap (Mark.pieces σ.context)))

theorem fragments_append (placed : Nat) (fs gs : List Fragment) :
    σ.fragments placed (fs ++ gs) =
      σ.fragments placed fs ++ σ.fragments (placed + fs.countP isBind) gs := by
  rw [fragments, List.map_append, numberFrom_append, Piece.write_append, length_holes_piece]
  rfl

theorem fragments_sql_cons (placed : Nat) (s : String) (fs : List Fragment) :
    σ.fragments placed (.sql s :: fs) = s ++ σ.fragments placed fs := by
  rw [fragments, List.map_cons]
  exact Piece.write_append σ.fill [.text s] _

theorem fragments_within (placed : Nat) {fs gs : List Fragment} (h : fs <:+: gs) :
    ∃ placed' before after, σ.fragments placed gs = before ++ σ.fragments placed' fs ++ after := by
  obtain ⟨before, after, rfl⟩ := h
  exact ⟨_, _, _, by rw [σ.fragments_append, σ.fragments_append]⟩

theorem fragments_predicateFragments (enclosing : CriteriaId) (placed : Nat) (ps : List Predicate) :
    σ.fragments placed (predicateFragments enclosing true ps) =
      σ.marks placed (listMarks true (skeletons enclosing ps)) :=
  (alike_predicateFragments (fun p _ => alike_skeleton p) true).text σ.names placed σ.fill

end Placing

section Joined

def Criteria.Joins (c m : Criteria) : Prop :=
  Relation.TransGen (fun d n => n ∈ d.joins) c m

theorem condition_within {c m : Criteria} (h : c.Joins m) (ha : Accepted (joinFragments c.joins)) :
    (.sql " ON " :: predicateFragments m.id true m.predicates) <:+: joinFragments c.joins := by
  have hstands : ∀ {d : Criteria}, Accepted (participantFragments d) →
      (.sql " ON " :: predicateFragments d.id true d.predicates) <:+: participantFragments d ∧
        joinFragments d.joins <:+: participantFragments d ∧ Accepted (joinFragments d.joins) := by
    intro d hd
    obtain ⟨node, ps, js⟩ := d
    have hne := ne_nil_of_accepted hd
    obtain ⟨hjoins, -⟩ := within_of_participant hne hd
    rw [participantFragments_mk hne]
    refine ⟨⟨[.sql (" " ++ node.join.kind.text ++ " "), .source node.id node.entity.table],
      joinFragments js, ?_⟩, (List.suffix_append _ _).isInfix, hjoins⟩
    simp [Criteria.id, Criteria.node, Criteria.predicates]
  have hmember : ∀ {js : List Criteria} {d : Criteria}, d ∈ js →
      participantFragments d <:+: joinFragments js := by
    intro js d hd
    rw [joinFragments_eq_flatMap, List.flatMap]
    exact List.infix_of_mem_flatten (List.mem_map_of_mem hd)
  -- From the last participant back: those before it keep what is joined below them in their own fragments.
  induction h using Relation.TransGen.head_induction_on with
  | single hm => exact (hstands (within_of_joinFragments ha _ hm)).1.trans (hmember hm)
  | head hd _ ih =>
      obtain ⟨-, hjoins, haccepted⟩ := hstands (within_of_joinFragments ha _ hd)
      exact ((ih haccepted).trans hjoins).trans (hmember hd)

end Joined

def Scope.placing (s : Scope) (c : Criteria) : Placing where
  context := s.settledContext c
  names := s.parameters
  fill p := s.config.placeholder.write p.name p.ordinal

open Skeleton in
theorem skeletons_read_back {s u : Scope} {c : Criteria} {compiled : Compiled}
    (h : s.compile c = (.ok compiled, u)) :
    (∃ placed, compiled.filterText =
      (s.placing c).marks placed (listMarks true (skeletons c.id c.predicates))) ∧
    (∀ m, c.Joins m → ∃ placed before after, compiled.sourceText =
      before ++ " ON " ++ (s.placing c).marks placed (listMarks true (skeletons m.id m.predicates)) ++ after) ∧
    (∀ enclosing ps placed, (s.placing c).fragments placed (predicateFragments enclosing true ps) =
      (s.placing c).marks placed (listMarks true (skeletons enclosing ps))) ∧
    ∀ es : List (Skeleton (List Fragment)),
      read (listMarks true es) = some (listSettled true es) ∧
      (∀ ms, read ms = some es ↔ listMarks true es = ms ∧ listSettled true es = es) ∧
      (∀ fs, listMarks true es = listMarks true fs ↔ listSettled true es = listSettled true fs) ∧
      ties 0 (listMarks true es) = es.tail.map slot ∧
      ∀ l ∈ listInner es, bracketed l <:+: listMarks true es := by
  obtain ⟨-, -, hfailure, rfl, -⟩ := Scope.compile_eq_ok h
  obtain ⟨node, ps, js⟩ := c
  obtain ⟨hjoins, -⟩ := within_of_draft (Fragment.accepted_of_firstFailure? hfailure)
  set σ := s.placing (.mk node ps js)
  refine ⟨⟨_, σ.fragments_predicateFragments node.id _ ps⟩, fun m hm => ?_,
    fun enclosing ps placed => σ.fragments_predicateFragments enclosing placed ps, fun es => ?_⟩
  · have hon : _ <:+: (draft false (.mk node ps js)).source :=
      (condition_within hm hjoins).trans (List.suffix_cons _ _).isInfix
    obtain ⟨placed, before, after, htext⟩ := σ.fragments_within 0 hon
    rw [σ.fragments_sql_cons, σ.fragments_predicateFragments, ← String.append_assoc] at htext
    exact ⟨placed, before, after, htext⟩
  · exact ⟨read_listMarks es, fun _ => read_eq_some_iff, fun _ => listMarks_eq_iff, ties_listMarks es,
      fun l hl => bracketed_infix_listMarks (fun e _ => e.bracketed_infix_marks) hl true⟩

def absent (column : String) (connective : Connective) : Predicate :=
  .test { connective, matched := .immediate, target := some (.raw column) } (.nullable .isNull)

def shiftTree : Criteria :=
  .mk { scope := ⟨0⟩, id := ⟨0⟩, entity := { name := "staff", table := "staff" }, parent := none }
    [.nested { connective := .or } true
        [absent "left" .or, .nested { connective := .or } false [absent "ill" .or, absent "away" .and]],
      absent "deputy" .or]
    [.mk { scope := ⟨0⟩, id := ⟨1⟩, entity := { name := "shifts", table := "shifts" }, parent := none }
      [absent "ended" .and, absent "paused" .or] []]

def shiftScope : Scope :=
  { Scope.fresh {} {} with
    slots := ["staff", "shifts"].map fun table => { entity := { name := table, table }, parent := none } }

theorem shift_read_back :
    ∃ compiled u, shiftScope.compile shiftTree = (.ok compiled, u) ∧
      compiled.filterText = "NOT (left IS NULL OR (ill IS NULL AND away IS NULL)) OR deputy IS NULL" ∧
      (∃ placed, compiled.filterText =
        (shiftScope.placing shiftTree).marks placed
          (Skeleton.listMarks true (skeletons ⟨0⟩ shiftTree.predicates))) ∧
      Skeleton.ties 0 (Skeleton.listMarks true (skeletons ⟨0⟩ shiftTree.predicates)) = [.or] := by
  obtain ⟨hfilter, -, -, hread⟩ := skeletons_read_back (s := shiftScope) (c := shiftTree) rfl
  refine ⟨_, _, rfl, ?_, hfilter, (hread _).2.2.2.1⟩
  decide

end QueryCriteria
