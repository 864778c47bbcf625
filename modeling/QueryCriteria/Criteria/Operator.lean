namespace QueryCriteria

inductive Connective where
  | and
  | or
deriving DecidableEq, Repr

inductive CompareOp where
  | eq
  | ne
  | gt
  | ge
  | lt
  | le
deriving DecidableEq, Repr

inductive RangeOp where
  | isIn
  | notIn
deriving DecidableEq, Repr

inductive BetweenOp where
  | between
  | notBetween
deriving DecidableEq, Repr

inductive FuzzyOp where
  | like
  | notLike
deriving DecidableEq, Repr

inductive NullOp where
  | isNull
  | isNotNull
deriving DecidableEq, Repr

inductive SubqueryOp where
  | compare (op : CompareOp)
  | range (op : RangeOp)
deriving DecidableEq, Repr

inductive Wildcard where
  | before
  | after
  | both
deriving DecidableEq, Repr

inductive Aggregate where
  | count
  | sum
  | avg
  | min
  | max
deriving DecidableEq, Repr

inductive JoinKind where
  | inner
  | left
  | right
deriving DecidableEq, Repr

inductive Direction where
  | asc
  | desc
deriving DecidableEq, Repr

def Connective.text : Connective → String
  | .and => "AND"
  | .or => "OR"

def CompareOp.text : CompareOp → String
  | .eq => "="
  | .ne => "<>"
  | .gt => ">"
  | .ge => ">="
  | .lt => "<"
  | .le => "<="

def RangeOp.text : RangeOp → String
  | .isIn => "IN"
  | .notIn => "NOT IN"

def BetweenOp.text : BetweenOp → String
  | .between => "BETWEEN"
  | .notBetween => "NOT BETWEEN"

def FuzzyOp.text : FuzzyOp → String
  | .like => "LIKE"
  | .notLike => "NOT LIKE"

def NullOp.text : NullOp → String
  | .isNull => "IS NULL"
  | .isNotNull => "IS NOT NULL"

def SubqueryOp.text : SubqueryOp → String
  | .compare op => op.text
  | .range op => op.text

def Wildcard.text : Wildcard → String
  | .before => "PREFIX"
  | .after => "SUFFIX"
  | .both => "BOTH"

def Aggregate.text : Aggregate → String
  | .count => "COUNT"
  | .sum => "SUM"
  | .avg => "AVG"
  | .min => "MIN"
  | .max => "MAX"

def JoinKind.text : JoinKind → String
  | .inner => "INNER JOIN"
  | .left => "LEFT JOIN"
  | .right => "RIGHT JOIN"

def Direction.text : Direction → String
  | .asc => "ASC"
  | .desc => "DESC"

def Wildcard.apply (w : Wildcard) (s : String) : String :=
  match w with
  | .before => "%" ++ s
  | .after => s ++ "%"
  | .both => "%" ++ s ++ "%"

def ofText? {α : Type} (text : α → String) (words : List α) (s : String) : Option α :=
  words.find? (text · == s)

def Connective.ofText? : String → Option Connective :=
  QueryCriteria.ofText? text [.and, .or]

def CompareOp.all : List CompareOp :=
  [.eq, .ne, .gt, .ge, .lt, .le]

def RangeOp.all : List RangeOp :=
  [.isIn, .notIn]

def CompareOp.ofText? : String → Option CompareOp :=
  QueryCriteria.ofText? text all

def RangeOp.ofText? : String → Option RangeOp :=
  QueryCriteria.ofText? text all

def BetweenOp.ofText? : String → Option BetweenOp :=
  QueryCriteria.ofText? text [.between, .notBetween]

def FuzzyOp.ofText? : String → Option FuzzyOp :=
  QueryCriteria.ofText? text [.like, .notLike]

def NullOp.ofText? : String → Option NullOp :=
  QueryCriteria.ofText? text [.isNull, .isNotNull]

def SubqueryOp.ofText? : String → Option SubqueryOp :=
  QueryCriteria.ofText? text (CompareOp.all.map .compare ++ RangeOp.all.map .range)

def Wildcard.ofText? : String → Option Wildcard :=
  QueryCriteria.ofText? text [.before, .after, .both]

def Aggregate.ofText? : String → Option Aggregate :=
  QueryCriteria.ofText? text [.count, .sum, .avg, .min, .max]

def JoinKind.ofText? : String → Option JoinKind :=
  QueryCriteria.ofText? text [.inner, .left, .right]

end QueryCriteria
