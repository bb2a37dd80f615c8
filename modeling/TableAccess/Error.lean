/-!
# Errors

Every failure has a kind. What the library itself refuses also says why; a failure of the
gateway or of a catalog is passed on with its own text; a row that lacks what is asked of it
names the column; and a configuration that is no document of the right form is refused as a
whole.
-/
namespace TableAccess

inductive ErrorKind where
  | badColsParam
  | badWhereParam
  | badHavingParam
  | badGroupByParam
  | badOrderByParam
  | badLimitParam
  | badFetchParams
  | primaryKeyNotRetrievableAfterInsert
  | primaryColumnNotConfigured
  | tableNameNotConfigured
  | invalidConfig
  | emptyPayload
  | gateway
  | decode
  deriving DecidableEq

namespace ErrorKind

def name : ErrorKind → String
  | .badColsParam => "BadColsParam"
  | .badWhereParam => "BadWhereParam"
  | .badHavingParam => "BadHavingParam"
  | .badGroupByParam => "BadGroupByParam"
  | .badOrderByParam => "BadOrderByParam"
  | .badLimitParam => "BadLimitParam"
  | .badFetchParams => "BadFetchParams"
  | .primaryKeyNotRetrievableAfterInsert => "PrimaryKeyNotRetrievableAfterInsert"
  | .primaryColumnNotConfigured => "PrimaryColumnNotConfigured"
  | .tableNameNotConfigured => "TableNameNotConfigured"
  | .invalidConfig => "InvalidConfig"
  | .emptyPayload => "EmptyPayload"
  | .gateway => "Gateway"
  | .decode => "Decode"

def all : List ErrorKind :=
  [badColsParam, badWhereParam, badHavingParam, badGroupByParam, badOrderByParam, badLimitParam,
    badFetchParams, primaryKeyNotRetrievableAfterInsert, primaryColumnNotConfigured,
    tableNameNotConfigured, invalidConfig, emptyPayload, gateway, decode]

def isBadParam : ErrorKind → Bool
  | .badColsParam | .badWhereParam | .badHavingParam | .badGroupByParam | .badOrderByParam
  | .badLimitParam | .badFetchParams => true
  | _ => false

def isConfiguration : ErrorKind → Bool
  | .primaryColumnNotConfigured | .tableNameNotConfigured | .invalidConfig => true
  | _ => false

end ErrorKind

/-- A failure. -/
inductive Error where
  | invalid (kind : ErrorKind) (detail : String)
  | gateway (cause : String)
  | decode (column message : String)
  | config (cause : String)
  deriving DecidableEq

namespace Error

def kind : Error → ErrorKind
  | .invalid kind _ => kind
  | .gateway _ => .gateway
  | .decode _ _ => .decode
  | .config _ => .invalidConfig

def message : Error → String
  | .invalid kind detail => kind.name ++ ": " ++ detail
  | .gateway cause => "Gateway error: " ++ cause
  | .decode column message => "Decode error on column '" ++ column ++ "': " ++ message
  | .config cause => "Configuration error: " ++ cause

def cause? : Error → Option String
  | .gateway cause => some cause
  | .config cause => some cause
  | _ => none

/-- Whether the failure was raised behind the gateway. -/
def isGateway : Error → Bool
  | .gateway _ => true
  | _ => false

end Error

end TableAccess
