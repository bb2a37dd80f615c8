import TableAccess.Condition.Basic

/-!
# Fetch parameters

What a caller may ask of a selection. A parameter that is absent is not the same as one that is
there and empty.
-/
namespace TableAccess

inductive ParamKey where
  | distinct
  | columns
  | rowFilter
  | groupFilter
  | grouping
  | ordering
  | limit
  | offset
  deriving DecidableEq

namespace ParamKey

def all : List ParamKey :=
  [distinct, columns, rowFilter, groupFilter, grouping, ordering, limit, offset]

def name : ParamKey → String
  | .distinct => "distinct"
  | .columns => "cols"
  | .rowFilter => "where"
  | .groupFilter => "having"
  | .grouping => "group"
  | .ordering => "order"
  | .limit => "limit_size"
  | .offset => "limit_offset"

def ofName? (s : String) : Option ParamKey := all.find? (·.name == s)

end ParamKey

/-- What is asked of a selection. -/
structure FetchParams where
  distinct : Option Bool := none
  columns : Option (List String) := none
  rowFilter : Option Filter := none
  groupFilter : Option Filter := none
  grouping : Option (List String) := none
  ordering : Option (List String) := none
  limit : Option Nat := none
  offset : Option Nat := none

namespace FetchParams

def has (p : FetchParams) : ParamKey → Bool
  | .distinct => p.distinct.isSome
  | .columns => p.columns.isSome
  | .rowFilter => p.rowFilter.isSome
  | .groupFilter => p.groupFilter.isSome
  | .grouping => p.grouping.isSome
  | .ordering => p.ordering.isSome
  | .limit => p.limit.isSome
  | .offset => p.offset.isSome

def isEmpty (p : FetchParams) : Bool := !ParamKey.all.any p.has

end FetchParams

end TableAccess
