import QueryCriteria.Criteria.Operator

namespace QueryCriteria

inductive Skeleton (α : Type) where
  | atom (slot : Connective) (a : α)
  | group (slot : Connective) (negated : Bool) (children : List (Skeleton α))

inductive Mark (α : Type) where
  | atom (a : α)
  | tie (slot : Connective)
  | negation
  | opening
  | closing

namespace Skeleton

variable {α : Type}

theorem induction {P : Skeleton α → Prop} (atom : ∀ slot a, P (.atom slot a))
    (group : ∀ slot negated children, (∀ e ∈ children, P e) → P (.group slot negated children)) :
    ∀ e, P e :=
  @Skeleton.rec α P (fun es => ∀ e ∈ es, P e) atom group (by simp)
    fun _ _ he hes => List.forall_mem_cons.mpr ⟨he, hes⟩

def slot : Skeleton α → Connective
  | .atom slot _ => slot
  | .group slot _ _ => slot

def withSlot (slot : Connective) : Skeleton α → Skeleton α
  | .atom _ a => .atom slot a
  | .group _ negated children => .group slot negated children

mutual
def marks : Skeleton α → List (Mark α)
  | .atom _ a => [.atom a]
  | .group _ negated children =>
      (if negated then [.negation] else []) ++ .opening :: listMarks true children ++ [.closing]

def listMarks (first : Bool) : List (Skeleton α) → List (Mark α)
  | [] => []
  | e :: es => (if first then [] else [.tie e.slot]) ++ e.marks ++ listMarks false es
end

mutual
def settled : Skeleton α → Skeleton α
  | .atom slot a => .atom slot a
  | .group slot negated children => .group slot negated (listSettled true children)

def listSettled (first : Bool) : List (Skeleton α) → List (Skeleton α)
  | [] => []
  | e :: es => (if first then e.settled.withSlot .and else e.settled) :: listSettled false es
end

@[simp]
theorem withSlot_slot (e : Skeleton α) : e.withSlot e.slot = e := by
  cases e <;> rfl

@[simp]
theorem slot_settled (e : Skeleton α) : e.settled.slot = e.slot := by
  cases e <;> simp [settled, slot]

@[simp]
theorem marks_withSlot (slot : Connective) (e : Skeleton α) : (e.withSlot slot).marks = e.marks := by
  cases e <;> simp [withSlot, marks]

theorem listMarks_settled {es : List (Skeleton α)} (h : ∀ e ∈ es, e.settled.marks = e.marks) (first : Bool) :
    listMarks first (listSettled first es) = listMarks first es := by
  induction es generalizing first with
  | nil => simp [listSettled]
  | cons e es ih =>
      obtain ⟨he, hes⟩ := List.forall_mem_cons.mp h
      cases first <;> simp [listSettled, listMarks, he, ih hes]

theorem marks_settled (e : Skeleton α) : e.settled.marks = e.marks := by
  induction e using induction with
  | atom slot a => simp [settled]
  | group slot negated children ih => simp [settled, marks, listMarks_settled ih]

@[simp]
theorem listMarks_append (first : Bool) (es fs : List (Skeleton α)) :
    listMarks first (es ++ fs) = listMarks first es ++ listMarks (first && es.isEmpty) fs := by
  induction es generalizing first with
  | nil => simp [listMarks]
  | cons e es ih => cases es <;> simp_all [listMarks]

section Reading

structure Unclosed (α : Type) where
  before : List (Skeleton α)
  slot : Connective
  negated : Bool

def readFrom : List (Unclosed α) → List (Skeleton α) → Option Connective → List (Mark α) →
    Option (List (Skeleton α))
  | [], done, next, [] => if next.isNone || done.isEmpty then some done else none
  | outer, done, some slot, .atom a :: ms => readFrom outer (done ++ [.atom slot a]) none ms
  | outer, done, none, .tie slot :: ms => readFrom outer done (some slot) ms
  | outer, done, some slot, .negation :: .opening :: ms =>
      readFrom (⟨done, slot, true⟩ :: outer) [] (some .and) ms
  | outer, done, some slot, .opening :: ms => readFrom (⟨done, slot, false⟩ :: outer) [] (some .and) ms
  | ⟨before, slot, negated⟩ :: outer, done, next, .closing :: ms =>
      if next.isNone || done.isEmpty then readFrom outer (before ++ [.group slot negated done]) none ms
      else none
  | _, _, _, _ => none

def read (ms : List (Mark α)) : Option (List (Skeleton α)) :=
  readFrom [] [] (some .and) ms

def follow : List (Skeleton α) → Option Connective
  | [] => some .and
  | _ => none

def Reads (e : Skeleton α) : Prop :=
  ∀ outer done slot ms, readFrom outer done (some slot) (e.marks ++ ms) =
    readFrom outer (done ++ [e.settled.withSlot slot]) none ms

theorem readFrom_listMarks_false {es : List (Skeleton α)} (h : ∀ e ∈ es, e.Reads) (outer : List (Unclosed α))
    (done : List (Skeleton α)) (ms : List (Mark α)) :
    readFrom outer done none (listMarks false es ++ ms) = readFrom outer (done ++ listSettled false es) none ms := by
  induction es generalizing done with
  | nil => simp [listMarks, listSettled]
  | cons e es ih =>
      obtain ⟨he, hes⟩ := List.forall_mem_cons.mp h
      have hslot : e.settled.withSlot e.slot = e.settled := by rw [← slot_settled, withSlot_slot]
      simp [listMarks, listSettled, readFrom, he _ _ _ _, ih hes, hslot]

theorem readFrom_listMarks_true {es : List (Skeleton α)} (h : ∀ e ∈ es, e.Reads) (outer : List (Unclosed α))
    (ms : List (Mark α)) :
    readFrom outer [] (some .and) (listMarks true es ++ ms) =
      readFrom outer (listSettled true es) (follow es) ms := by
  cases es with
  | nil => rfl
  | cons e es =>
      obtain ⟨he, hes⟩ := List.forall_mem_cons.mp h
      simp [listMarks, listSettled, follow, he _ _ _ _, readFrom_listMarks_false hes]

theorem closes_follow (es : List (Skeleton α)) :
    ((follow es).isNone || (listSettled true es).isEmpty) = true := by
  cases es <;> rfl

theorem reads (e : Skeleton α) : e.Reads := by
  induction e using induction with
  | atom slot a =>
      intro outer done next ms
      simp [marks, readFrom, settled, withSlot]
  | group slot negated children ih =>
      intro outer done next ms
      cases negated <;>
        simp [marks, readFrom, readFrom_listMarks_true ih, closes_follow, settled, withSlot]

theorem read_listMarks (es : List (Skeleton α)) : read (listMarks true es) = some (listSettled true es) := by
  have hread := readFrom_listMarks_true (fun e (_ : e ∈ es) => e.reads) [] []
  rw [List.append_nil] at hread
  rw [read, hread, readFrom, if_pos (closes_follow es)]

def written (done : List (Skeleton α)) : Option Connective → List (Mark α)
  | none => listMarks true done
  | some slot => listMarks true done ++ if done.isEmpty then [] else [.tie slot]

def Unclosed.marks (g : Unclosed α) : List (Mark α) :=
  written g.before (some g.slot) ++ if g.negated then [.negation, .opening] else [.opening]

theorem marks_of_readFrom {outer : List (Unclosed α)} {done : List (Skeleton α)} {next : Option Connective}
    {ms : List (Mark α)} {es : List (Skeleton α)} (h : readFrom outer done next ms = some es)
    (hnext : next = none → done ≠ []) :
    listMarks true es = outer.reverse.flatMap Unclosed.marks ++ written done next ++ ms := by
  have hclosed : ∀ {done : List (Skeleton α)} {next : Option Connective},
      (next.isNone || done.isEmpty) = true → written done next = listMarks true done := by
    intro done next hends
    cases next <;> simp_all [written]
  -- What is open and what was read, written again, stand before what is still to be read.
  fun_induction readFrom outer done next ms with
  | case1 done next hends =>
      obtain rfl := Option.some.inj h
      simp [hclosed hends]
  | case2 => cases h
  | case3 outer done c a ms ih =>
      rw [ih h (by simp)]
      cases done <;> simp [written, listMarks, marks, slot]
  | case4 outer done c ms ih =>
      have hdone : done.isEmpty = false := by simpa using hnext
      rw [ih h (by simp)]
      simp [written, hdone]
  | case5 outer done c ms ih =>
      rw [ih h (by simp)]
      simp [Unclosed.marks, written, listMarks]
  | case6 outer done c ms ih =>
      rw [ih h (by simp)]
      simp [Unclosed.marks, written, listMarks]
  | case7 before c negated outer done next ms hends ih =>
      rw [ih h (by simp), hclosed hends]
      cases before <;> cases negated <;> simp [Unclosed.marks, written, listMarks, marks, slot]
  | case8 => cases h
  | case9 => cases h

theorem read_eq_some_iff {ms : List (Mark α)} {es : List (Skeleton α)} :
    read ms = some es ↔ listMarks true es = ms ∧ listSettled true es = es := by
  constructor
  · intro h
    have hmarks : listMarks true es = ms := by
      simpa [written, listMarks] using marks_of_readFrom h (by simp)
    rw [← hmarks, read_listMarks] at h
    exact ⟨hmarks, Option.some.inj h⟩
  · rintro ⟨rfl, hsettled⟩
    rw [read_listMarks, hsettled]

theorem listMarks_eq_iff {es fs : List (Skeleton α)} :
    listMarks true es = listMarks true fs ↔ listSettled true es = listSettled true fs := by
  constructor
  · intro h
    have hread := congrArg read h
    rw [read_listMarks, read_listMarks] at hread
    exact Option.some.inj hread
  · intro h
    rw [← listMarks_settled (fun e _ => e.marks_settled), h, listMarks_settled fun e _ => e.marks_settled]

end Reading

section Ties

def ties : Nat → List (Mark α) → List Connective
  | _, [] => []
  | 0, .tie slot :: ms => slot :: ties 0 ms
  | depth + 1, .tie _ :: ms => ties (depth + 1) ms
  | depth, .opening :: ms => ties (depth + 1) ms
  | depth, .closing :: ms => ties (depth - 1) ms
  | depth, .atom _ :: ms => ties depth ms
  | depth, .negation :: ms => ties depth ms

theorem ties_listMarks_within {es : List (Skeleton α)}
    (h : ∀ e ∈ es, ∀ depth ms, ties depth (e.marks ++ ms) = ties depth ms) (first : Bool) (depth : Nat)
    (ms : List (Mark α)) : ties (depth + 1) (listMarks first es ++ ms) = ties (depth + 1) ms := by
  induction es generalizing first with
  | nil => rfl
  | cons e es ih =>
      obtain ⟨he, hes⟩ := List.forall_mem_cons.mp h
      cases first <;> simp [listMarks, ties, he, ih hes]

theorem ties_marks (e : Skeleton α) (depth : Nat) (ms : List (Mark α)) :
    ties depth (e.marks ++ ms) = ties depth ms := by
  induction e using induction generalizing depth ms with
  | atom slot a => cases depth <;> simp [marks, ties]
  | group slot negated children ih =>
      have hchildren := ties_listMarks_within ih true depth
      cases depth <;> cases negated <;> simp_all [marks, ties]

theorem ties_listMarks (es : List (Skeleton α)) : ties 0 (listMarks true es) = es.tail.map slot := by
  have hrest : ∀ es : List (Skeleton α), ties 0 (listMarks false es) = es.map slot := by
    intro es
    induction es with
    | nil => rfl
    | cons e es ih => simp [listMarks, ties, ties_marks, ih]
  cases es with
  | nil => rfl
  | cons e es => simp [listMarks, ties_marks, hrest]

end Ties

section Levels

mutual
def inner : Skeleton α → List (List (Skeleton α))
  | .atom _ _ => []
  | .group _ _ children => children :: listInner children

def listInner : List (Skeleton α) → List (List (Skeleton α))
  | [] => []
  | e :: es => e.inner ++ listInner es
end

def bracketed (es : List (Skeleton α)) : List (Mark α) :=
  .opening :: listMarks true es ++ [.closing]

theorem bracketed_infix_listMarks {es : List (Skeleton α)}
    (h : ∀ e ∈ es, ∀ l ∈ e.inner, bracketed l <:+: e.marks) {l : List (Skeleton α)} (hl : l ∈ listInner es)
    (first : Bool) : bracketed l <:+: listMarks first es := by
  induction es generalizing first with
  | nil => cases hl
  | cons e es ih =>
      obtain ⟨he, hes⟩ := List.forall_mem_cons.mp h
      rw [listMarks]
      rcases List.mem_append.mp hl with hl | hl
      · exact ((he l hl).trans (List.suffix_append _ _).isInfix).trans (List.prefix_append _ _).isInfix
      · exact (ih hes hl false).trans (List.suffix_append _ _).isInfix

theorem bracketed_infix_marks (e : Skeleton α) : ∀ l ∈ e.inner, bracketed l <:+: e.marks := by
  induction e using induction with
  | atom slot a => simp [inner]
  | group slot negated children ih =>
      have hchildren : bracketed children <:+: (group slot negated children).marks :=
        ⟨if negated then [.negation] else [], [], by simp [marks, bracketed]⟩
      intro l hl
      rcases List.mem_cons.mp hl with rfl | hl
      · exact hchildren
      · have hwithin : listMarks true children <:+: bracketed children := ⟨[.opening], [.closing], rfl⟩
        exact ((bracketed_infix_listMarks ih hl true).trans hwithin).trans hchildren

end Levels

end Skeleton

end QueryCriteria
