/-! The small vocabularies that queries and SQL share: statement keywords, kinds of join, directions
of sorting, and the place of nulls in an order. -/

namespace QueryNotation

/-- The statements, by their keyword. -/
inductive Keyword where
  | select
  | insert
  | update
  | delete
  | upsert
deriving DecidableEq, Repr

namespace Keyword

/-- The keyword as it is written. -/
def text : Keyword → String
  | .select => "SELECT"
  | .insert => "INSERT"
  | .update => "UPDATE"
  | .delete => "DELETE"
  | .upsert => "UPSERT"

/-- All keywords, in the order in which a query is searched for its statement. -/
def all : List Keyword := [.select, .insert, .update, .delete, .upsert]

/-- The keyword that `s` writes. -/
def ofText? (s : String) : Option Keyword := all.find? (·.text = s)

end Keyword

/-- How two sources are joined. -/
inductive JoinKind where
  | inner
  | left
  | right
  | full
  | cross
deriving DecidableEq, Repr

namespace JoinKind

/-- The kind as a query names it. -/
def name : JoinKind → String
  | .inner => "inner"
  | .left => "left"
  | .right => "right"
  | .full => "full"
  | .cross => "cross"

/-- The kind as SQL writes it. -/
def keyword : JoinKind → String
  | .inner => "INNER"
  | .left => "LEFT"
  | .right => "RIGHT"
  | .full => "FULL"
  | .cross => "CROSS"

/-- All kinds of join. -/
def all : List JoinKind := [.inner, .left, .right, .full, .cross]

/-- The kind that a query names `s`. -/
def ofName? (s : String) : Option JoinKind := all.find? (·.name = s)

end JoinKind

/-- A direction of sorting. -/
inductive Direction where
  | asc
  | desc
deriving DecidableEq, Repr

namespace Direction

/-- The direction as a query names it. -/
def name : Direction → String
  | .asc => "asc"
  | .desc => "desc"

/-- The direction as SQL writes it, which a query may do too. -/
def keyword : Direction → String
  | .asc => "ASC"
  | .desc => "DESC"

/-- The direction that a query names `s`, in lower or upper case. -/
def ofName? (s : String) : Option Direction :=
  [asc, desc].find? fun d => d.name = s ∨ d.keyword = s

end Direction

/-- The place of nulls in an order. -/
inductive NullsOrder where
  | first
  | last
deriving DecidableEq, Repr

namespace NullsOrder

/-- The place as a query names it. -/
def name : NullsOrder → String
  | .first => "first"
  | .last => "last"

/-- The place as SQL writes it, which a query may do too. -/
def keyword : NullsOrder → String
  | .first => "FIRST"
  | .last => "LAST"

/-- The place that a query names `s`, in lower or upper case. -/
def ofName? (s : String) : Option NullsOrder :=
  [first, last].find? fun n => n.name = s ∨ n.keyword = s

end NullsOrder

end QueryNotation
