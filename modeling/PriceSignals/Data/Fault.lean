/-
Module: PriceSignals.Data.Fault
Purpose: What can be wrong with data that is to become a value of a given type.
Main exports:
  Found, Found.text, Fault, Fault.message
-/
import PriceSignals.Decimal.Digit
import PriceSignals.Text.Quoted
import PriceSignals.Time.Reader

namespace PriceSignals.Data

/-- What was found where something else was expected. -/
inductive Found where
  | null
  | boolean (b : Bool)
  | integer (n : Int)
  /-- A number with a fraction or an exponent, as its format writes it. -/
  | decimal (written : List Char)
  | text (chars : List Char)
  | sequence
  | map
deriving Repr, DecidableEq

/-- The wording of what was found. -/
def Found.message : Found → String
  | .null => "null"
  | .boolean b => "boolean `" ++ toString b ++ "`"
  | .integer n => "integer `" ++ String.ofList (decimalText n) ++ "`"
  | .decimal written => "floating point `" ++ String.ofList written ++ "`"
  | .text chars => "string " ++ String.ofList (Text.quoted chars)
  | .sequence => "sequence"
  | .map => "map"

/-- Why data is not a value of a type. -/
inductive Fault where
  | missingField (name : String)
  | duplicateField (name : String)
  | invalidType (found : Found) (expected : String)
  | invalidValue (found : Found) (expected : String)
  | invalidLength (length : Nat) (expected : String)
  | unknownVariant (given : String) (known : List String)
  /-- The value has none of the forms that the type allows. -/
  | noVariant (type : String)
  | time (fault : Time.Fault)
deriving Repr, DecidableEq

/-- The alternatives that a message offers. -/
def alternatives : List String → String
  | [] => "there are no variants"
  | [a] => "expected `" ++ a ++ "`"
  | [a, b] => "expected `" ++ a ++ "` or `" ++ b ++ "`"
  | many => "expected one of " ++ String.intercalate ", " (many.map fun a => "`" ++ a ++ "`")

/-- The wording of a fault. -/
def Fault.message : Fault → String
  | .missingField name => "missing field `" ++ name ++ "`"
  | .duplicateField name => "duplicate field `" ++ name ++ "`"
  | .invalidType found expected => "invalid type: " ++ found.message ++ ", expected " ++ expected
  | .invalidValue found expected => "invalid value: " ++ found.message ++ ", expected " ++ expected
  | .invalidLength length expected =>
    "invalid length " ++ toString length ++ ", expected " ++ expected
  | .unknownVariant given known => "unknown variant `" ++ given ++ "`, " ++ alternatives known
  | .noVariant type => "data did not match any variant of untagged enum " ++ type
  | .time fault => fault.message

end PriceSignals.Data
