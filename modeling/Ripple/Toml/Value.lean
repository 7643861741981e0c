/-!
Values of TOML, the language of settings files, and what can be wrong with a text in it.
-/

namespace Ripple

/-- How a table came about, which decides whether something may be added to it later. -/
inductive Toml.TableOrigin where
  /-- Written between braces. -/
  | inline
  /-- Opened by a header of its own. -/
  | header
  /-- On the way to the table of a header. -/
  | implied
  /-- On the way to a value with a dotted key. -/
  | dotted
  deriving DecidableEq, Repr

/-- A value. -/
inductive Toml where
  | text (value : String)
  | integer (value : Int)
  | float
  | boolean (value : Bool)
  /-- A date, a time, or both. -/
  | moment
  | array (items : List Toml)
  | table (origin : Toml.TableOrigin) (entries : List (String × Toml))
  /-- An array whose tables were opened by headers. -/
  | tables (items : List Toml)

/-- The reason for which a text is refused. -/
inductive Toml.Error where
  | keyExpected
  | separatorExpected
  | valueExpected
  | lineEndExpected
  | bracketExpected
  | textUnfinished
  | characterInvalid
  | escapeInvalid
  | literalInvalid (spelling : String)
  | keyDuplicate (key : String)
  | notATable (key : String)
  | nestingTooDeep
  | missing (field : String)
  | wrongType (expected : String)
  | unknownVariant (name : String)
  deriving DecidableEq, Repr

def Toml.Error.message : Toml.Error → String
  | keyExpected => "a key is expected"
  | separatorExpected => "a key is not followed by an equals sign"
  | valueExpected => "a value is expected"
  | lineEndExpected => "something follows where a line should end"
  | bracketExpected => "a bracket or a brace is not closed"
  | textUnfinished => "a string is not closed"
  | characterInvalid => "a control character stands in a string or a comment"
  | escapeInvalid => "an escape in a string is not known"
  | literalInvalid spelling => "not a value: " ++ spelling
  | keyDuplicate key => "duplicate key: " ++ key
  | notATable key => "not a table: " ++ key
  | nestingTooDeep => "values are nested too deeply"
  | missing field => "missing field: " ++ field
  | wrongType expected => "wrong type, expected " ++ expected
  | unknownVariant name => "unknown variant: " ++ name

end Ripple
