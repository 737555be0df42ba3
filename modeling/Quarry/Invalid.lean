import Quarry.Value.Literal

/-!
# Refused input

Input that is understood but not accepted. Each way of being refused has its explanation, which
names what was given.
-/

set_option autoImplicit false

namespace Quarry

/-- Input that is refused with an explanation. -/
inductive Invalid where
  | operator (given : Value)
  | likePattern (given : Value)
  | relationKind (given : Value)
  | joinKind (given : Value)
  | direction (given : Value)
  | count (what : String) (given : Value)
  | unknownRelation (name table : Value)
  | aggregateFunction (given : Value)
  | aggregateColumn (function : String) (label : Value)
  | noAggregates
  | duplicateKeys (keys : List Value)
  | columnKind (given : Value) (name : String)
  | noTable
  | noKeys (table : Value)
  | unknownRepository (name : Value)
  | nothingToInsert (table : Value)
  | unfilteredUpdate (table condition : Value)
  | unfilteredDelete (table condition : Value)
  | number (name given : String)
  | address (given : String)
  | databaseKind (given : String)
  | openBracket
  | bracketedHost (given : String)
  | futureHost
  | bracketedV4
  | foldedSeparator (authority : String)
  | portText (given : String)
  | portRange
  | portDigits (digits : Nat)
  | longInteger
  | level (given : Value)
  | signalingNan
  | nanInteger (binary : Bool)
  | closedConnection
  | rowWidth (longer : Bool)
  | pairLength (index length : Nat)
  deriving Inhabited

namespace Invalid

/-- The explanation. -/
def message : Invalid → String
  | .operator v => "Operator '" ++ v.display ++ "' not supported"
  | .likePattern v => "LIKE pattern '" ++ v.display ++ "' not supported"
  | .relationKind v => "Relation type '" ++ v.display ++ "' not supported"
  | .joinKind v => "Join type '" ++ v.display ++ "' not supported"
  | .direction v => "Order direction '" ++ v.display ++ "' not supported"
  | .count what v => what ++ " must be a non-negative integer, got " ++ v.literal
  | .unknownRelation name table =>
    "Relation '" ++ name.display ++ "' not registered for table '" ++ table.display ++ "'"
  | .aggregateFunction v => "Unsupported calculate function: " ++ v.display
  | .aggregateColumn function label =>
    function ++ " aggregate '" ++ label.display ++ "' requires a column"
  | .noAggregates => "calculate() requires at least one aggregate"
  | .duplicateKeys keys => "Duplicate keys in " ++ (Value.tuple keys).literal
  | .columnKind v name => "Unknown column kind '" ++ v.display ++ "' for '" ++ name ++ "'"
  | .noTable => "Repository table name is required"
  | .noKeys table => "Repository '" ++ table.display ++ "' declares no keys"
  | .unknownRepository name =>
    "Repository '" ++ name.display ++ "' not registered. Use add_repository() first."
  | .nothingToInsert table =>
    "Nothing to insert into '" ++ table.display ++ "': every column is auto-set"
  | .unfilteredUpdate table condition =>
    "Refusing to update '" ++ table.display ++ "' without a condition: " ++ condition.literal
  | .unfilteredDelete table condition =>
    "Refusing to delete from '" ++ table.display ++ "' without a condition: " ++ condition.literal
  | .number name given => "Invalid number value for " ++ name ++ ": " ++ given
  | .address given =>
    "Invalid connection string: '" ++ given ++
      "'. Expected 'type:connection_info' or path (absolute or relative)."
  | .databaseKind given =>
    "Unknown database type: '" ++ given ++ "'. Supported: mysql, mariadb, sqlite"
  | .openBracket => "Invalid IPv6 URL"
  | .bracketedHost given =>
    (Value.text given).literal ++ " does not appear to be an IPv4 or IPv6 address"
  | .futureHost => "IPvFuture address is invalid"
  | .bracketedV4 => "An IPv4 address cannot be in brackets"
  | .foldedSeparator authority =>
    "netloc '" ++ authority ++ "' contains invalid characters under NFKC normalization"
  | .portText given => "Port could not be cast to integer value as " ++ (Value.text given).literal
  | .portRange => "Port out of range 0-65535"
  | .portDigits n =>
    "Exceeds the limit (4300 digits) for integer string conversion: value has " ++ toString n ++
      " digits; use sys.set_int_max_str_digits() to increase the limit"
  | .longInteger => "Exceeds the limit (4300 digits) for integer string conversion; " ++
      "use sys.set_int_max_str_digits() to increase the limit"
  | .level v => "Unknown level: " ++ v.literal
  | .signalingNan => "cannot convert signaling NaN to float"
  | .nanInteger binary => "cannot convert " ++ (if binary then "float " else "") ++ "NaN to integer"
  | .closedConnection => "no active connection"
  | .rowWidth longer => "zip() argument 2 is " ++ (if longer then "longer" else "shorter") ++
      " than argument 1"
  | .pairLength index length => "dictionary update sequence element #" ++ toString index ++
      " has length " ++ toString length ++ "; 2 is required"

end Invalid

end Quarry
