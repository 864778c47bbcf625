import QueryCriteria.Saturating

namespace QueryCriteria

structure RowSpan where
  start : UInt64
  stop : UInt64
deriving DecidableEq, Repr

structure PageSpan where
  first : UInt64
  last : UInt64
  size : UInt64
deriving DecidableEq, Repr

structure Window where
  offset : UInt64
  limit : UInt64
deriving DecidableEq, Repr

structure Pagination where
  rows : Option RowSpan := none
  pages : Option PageSpan := none
deriving DecidableEq, Repr

def RowSpan.window (r : RowSpan) : Window where
  offset := r.start
  limit := Saturating.sub r.stop r.start

def PageSpan.window (p : PageSpan) : Window :=
  let first := max p.first 1
  let count := Saturating.sub (Saturating.add p.last 1) first
  ⟨Saturating.mul (first - 1) p.size, Saturating.mul count p.size⟩

namespace Pagination

def window? (p : Pagination) : Option Window :=
  match p.rows with
  | some rows => some rows.window
  | none => p.pages.map PageSpan.window

def isSet (p : Pagination) : Bool :=
  p.rows.isSome || p.pages.isSome

end Pagination

def Window.text (w : Window) : String :=
  " LIMIT " ++ toString w.limit.toNat ++ " OFFSET " ++ toString w.offset.toNat

end QueryCriteria
