/-
Reading the names of types. Of a type only its text is kept, and whether it is one of the types the
grammar knows: only those may stand before a string to type it.
-/
import SqlInsight.Grammar.Parser.ColumnOption
import SqlInsight.Grammar.Shown

namespace SqlInsight.Grammar

open Reader

/-- The name of a type: that of intervals, a known one, or any other. -/
inductive TypeName where
  | interval
  | known (text : String)
  | custom (text : String)
deriving Repr, DecidableEq

namespace TypeName

def render : TypeName → String
  | .interval => "INTERVAL"
  | .known text => text
  | .custom text => text

def isCustom : TypeName → Bool
  | .custom _ => true
  | _ => false

end TypeName

/-- What may follow the word that names a type. -/
inductive TypeArgument where
  | nothing
  | precision
  | integer
  | length
  | scale

/-- The type words that take no other words with them. -/
def plainTypes : List (TypeArgument × List String) :=
  [(.nothing,
      ["BOOLEAN", "BOOL", "REAL", "FLOAT4", "FLOAT32", "FLOAT64", "FLOAT8", "TINYBLOB",
        "MEDIUMBLOB", "LONGBLOB", "UUID", "DATE", "DATE32", "JSON", "JSONB", "REGCLASS", "TEXT",
        "TINYTEXT", "MEDIUMTEXT", "LONGTEXT", "BYTEA", "INT16", "INT32", "INT64", "INT128",
        "INT256", "UINT8", "UINT16", "UINT32", "UINT64", "UINT128", "UINT256", "TRIGGER"]),
    (.precision,
      ["FLOAT", "CLOB", "BINARY", "VARBINARY", "BLOB", "BYTES", "DATETIME", "STRING", "TIMESTAMPTZ",
        "TIMETZ"]),
    (.integer,
      ["TINYINT", "SMALLINT", "MEDIUMINT", "INT", "INT2", "INT4", "INT8", "INTEGER", "BIGINT"]),
    (.length, ["VARCHAR", "NVARCHAR"]),
    (.scale, ["NUMERIC", "DECIMAL", "DEC", "BIGNUMERIC", "BIGDECIMAL"])]

/-- The words of types that have a form of their own in every dialect. -/
def shapedTypes : List String :=
  ["INTERVAL", "DOUBLE", "CHARACTER", "CHAR", "BIT", "TIMESTAMP", "TIME", "DATETIME64",
    "FIXEDSTRING", "ENUM", "ENUM8", "ENUM16", "SET", "ARRAY"]

/-- The words of types that only the generic dialect knows. -/
def genericTypes : List String :=
  ["STRUCT", "UNION", "NULLABLE", "LOWCARDINALITY", "MAP", "NESTED", "TUPLE"]

def isTypeWord (d : Dialect) (word : String) : Bool :=
  plainTypes.any (fun entry => entry.2.contains word) || shapedTypes.contains word
    || (d == .generic && genericTypes.contains word)

/-- The word of a type as it is shown; those of columnar stores are written in mixed case. -/
def typeWordShown (word : String) : String :=
  match word with
  | "FLOAT32" => "Float32"
  | "DATE32" => "Date32"
  | "INT16" => "Int16"
  | "INT32" => "Int32"
  | "INT128" => "Int128"
  | "INT256" => "Int256"
  | "UINT8" => "UInt8"
  | "UINT16" => "UInt16"
  | "UINT32" => "UInt32"
  | "UINT64" => "UInt64"
  | "UINT128" => "UInt128"
  | "UINT256" => "UInt256"
  | word => word

/-- Read the length of a character type, if a parenthesis is next. -/
def optionalLength : Reader String := do
  if ← atSymbol "(" then
    inParens do
      if ← keyword "MAX" then return "(MAX)"
      else
        let n ← wholeNumber
        match ← oneOf ["CHARACTERS", "OCTETS"] with
        | some unit => return s!"({n} " ++ unit ++ ")"
        | none => return s!"({n})"
  else return ""

/-- Read what follows the word of a known type. -/
def typeArgument : TypeArgument → Reader String
  | .nothing => return ""
  | .precision => optionalPrecision
  | .integer => do
      let precision ← optionalPrecision
      if ← keyword "UNSIGNED" then return precision ++ " UNSIGNED" else return precision
  | .length => optionalLength
  | .scale => optionalScale

def timeZone : Reader String := do
  if ← keyword "WITH" then
    expectKeywords ["TIME", "ZONE"]
    return " WITH TIME ZONE"
  else if ← keyword "WITHOUT" then
    expectKeywords ["TIME", "ZONE"]
    return " WITHOUT TIME ZONE"
  else return ""

/-- Read the modifiers of a type that is not known, after their parenthesis. -/
def typeModifiers : (fuel : Nat) → Reader (List String)
  | 0 => return []
  | fuel + 1 => do
      match ← peek with
      | .word value quote word =>
          skip
          return (Token.word value quote word).render :: (← typeModifiers fuel)
      | .number digits =>
          skip
          return String.ofList (plainDigits digits) :: (← typeModifiers fuel)
      | .literal .single value => skip; return value :: (← typeModifiers fuel)
      | .symbol "," => skip; typeModifiers fuel
      | .symbol ")" => skip; return []
      | _ => wrongNext "type modifiers"

def customType : Reader TypeName := do
  let name ← objectName
  let modifiers ← if ← symbol "(" then typeModifiers ((← get).length + 1) else pure []
  if modifiers.isEmpty then return .custom (ObjectName.render name)
  else return .custom (shownList (ObjectName.render name) modifiers)

def characterType (word : String) : Reader TypeName := do
  if ← keyword "VARYING" then return .known (word ++ " VARYING" ++ (← optionalLength))
  else if ← keywordsIn ["LARGE", "OBJECT"] then
    return .known (word ++ " LARGE OBJECT" ++ (← optionalPrecision))
  else return .known (word ++ (← optionalLength))

/-- Read an enumeration after its word: its members, each perhaps with a number. -/
def enumType (d : Dialect) (word : String) : Reader TypeName := do
  let members ← listInParens do
    let name ← inQuotes '\'' <$> stringText d
    if ← symbol "=" then return name ++ " = " ++ (← signedNumber d) else return name
  return .known (shownList word members)

def setMembers : (fuel : Nat) → Reader (List String)
  | 0 => return []
  | fuel + 1 => do
      let first ← singleString "a string"
      match ← peek with
      | .symbol "," => skip; return first :: (← setMembers fuel)
      | .symbol ")" => skip; return [first]
      | _ => wrongNext ", or \x7d"

def setType : Reader TypeName := do
  expectSymbol "("
  let members ← setMembers ((← get).length + 1)
  return .known (shownList "SET" (members.map (inQuotes '\'')))

/-- Read a type of times to a fraction of a second after its word. -/
def fractionTimeType (d : Dialect) : Reader TypeName :=
  inParens do
    let precision ← wholeNumber
    let zone ← if ← symbol "," then (fun z => ", '" ++ z ++ "'") <$> stringText d else pure ""
    return .known (s!"DateTime64({precision}" ++ zone ++ ")")

/-- A type, and whether a `>>` has closed two angle brackets at once. -/
abbrev OpenType := TypeName × Bool

/-- Take the bracket that closes the arguments of a type, if a `>>` has not closed them already;
whether it closes another type too. -/
def closeAngle (closed : Bool) : Reader Bool := do
  if closed then return false
  else if ← symbol ">" then return false
  else if ← symbol ">>" then return true
  else expected ">"

/-- Read a type that leaves no bracket over; `inner` reads types. -/
def wholeType (inner : Reader OpenType) : Reader TypeName := do
  let (type, closed) ← inner
  if closed then
    fail ("unmatched > after parsing data type " ++ type.render ++ (← peek).render)
  else return type

/-- Read a field of a structure, whose name may be missing. -/
def structField (inner : Reader OpenType) : Reader (String × Bool) := do
  let isNamed := match ← peek, ← peekAt 1 with
    | .word _ _ _, .word _ _ _ => true
    | _, _ => false
  let name ← if isNamed then (fun n => Ident.render n ++ " ") <$> identifier else pure ""
  let (type, closed) ← inner
  return (name ++ type.render, closed)

def namedType (inner : Reader OpenType) : Reader String := do
  let name ← identifier
  return name.render ++ " " ++ (← wholeType inner).render

/-- Read a structure after its word. What is wrong with a field comes up only behind the
parenthesis that closes them. -/
def structType (inner : Reader OpenType) : Reader TypeName := do
  expectSymbol "("
  let fields ← outcome (commaList (namedType inner))
  expectSymbol ")"
  match fields with
  | .ok list => return .known (shownList "STRUCT" list)
  | .error failure => refuse failure

/-- Read a column of nested rows; what is said of it after its type is not shown. -/
def nestedColumn (g : Level) (inner : Reader OpenType) : Reader String := do
  let column ← namedType inner
  columnOptions g
  return column

/-- Read a type that only the generic dialect knows after its word. -/
def genericType (g : Level) (word : String) (inner : Reader OpenType) : Reader TypeName :=
  match word with
  | "STRUCT" => structType inner
  | "UNION" => (fun fields => .known (shownList "UNION" fields)) <$> listInParens (namedType inner)
  | "NULLABLE" => (fun t => .known (shownList "Nullable" [t.render])) <$> inParens (wholeType inner)
  | "LOWCARDINALITY" =>
      (fun t => .known (shownList "LowCardinality" [t.render])) <$> inParens (wholeType inner)
  | "MAP" => inParens do
      let key ← wholeType inner
      expectSymbol ","
      return .known (shownList "Map" [key.render, (← wholeType inner).render])
  | "NESTED" =>
      (fun columns => .known (shownList "Nested" columns))
        <$> listInParens (nestedColumn g inner)
  | _ =>
      (fun fields => .known (shownList "Tuple" (fields.map Prod.fst)))
        <$> listInParens (structField inner)

/-- Read a type that has a form of its own after its word; `inner` reads types. -/
def shapedType (g : Level) (word : String) (inner : Reader OpenType) : Reader OpenType := do
  let whole (type : Reader TypeName) : Reader OpenType := return (← type, false)
  match word with
  | "INTERVAL" => return (.interval, false)
  | "DOUBLE" =>
      let precision := if ← keyword "PRECISION" then " PRECISION" else ""
      return (.known ("DOUBLE" ++ precision), false)
  | "CHARACTER" | "CHAR" => whole (characterType word)
  | "BIT" =>
      let varying := if ← keyword "VARYING" then " VARYING" else ""
      return (.known ("BIT" ++ varying ++ (← optionalPrecision)), false)
  | "TIMESTAMP" | "TIME" =>
      let precision ← optionalPrecision
      return (.known (word ++ precision ++ (← timeZone)), false)
  | "DATETIME64" => whole (fractionTimeType g.dialect)
  | "FIXEDSTRING" =>
      let length ← inParens wholeNumber
      return (.known s!"FixedString({length})", false)
  | "ENUM" | "ENUM8" | "ENUM16" => whole (enumType g.dialect word)
  | "SET" => whole setType
  | "ARRAY" =>
      expectSymbol "<"
      let (type, closed) ← inner
      return (.known ("ARRAY<" ++ type.render ++ ">"), ← closeAngle closed)
  | _ => whole (genericType g word inner)

/-- Read the sizes in brackets that make a type an array. -/
def arraySuffix (d : Dialect) (type : TypeName) : (fuel : Nat) → Reader TypeName
  | 0 => return type
  | fuel + 1 => do
      if ← symbol "[" then
        let size ←
          if d == .generic || d == .postgres then attempt wholeNumber else pure none
        expectSymbol "]"
        let inside := match size with
          | some n => toString n
          | none => ""
        arraySuffix d (.known (type.render ++ "[" ++ inside ++ "]")) fuel
      else return type

/-- Read a type; the number bounds how deep types nest. -/
def typeNested (g : Level) : (fuel : Nat) → Reader OpenType
  | 0 => refuse .tooDeep
  | fuel + 1 => do
      match ← peek with
      | .word _ _ word =>
          let (type, closed) ←
            match plainTypes.find? fun entry => entry.2.contains word with
            | some (argument, _) => do
                skip
                pure (TypeName.known (typeWordShown word ++ (← typeArgument argument)), false)
            | none => do
                if isTypeWord g.dialect word then
                  skip
                  shapedType g word (typeNested g fuel)
                else pure (← customType, false)
          return (← arraySuffix g.dialect type ((← get).length + 1), closed)
      | _ => wrongNext "a data type name"

/-- Read a type that may leave a bracket over. -/
def openType (g : Level) : Reader OpenType := do
  typeNested g ((← get).length + 1)

def typeName (g : Level) : Reader TypeName :=
  wholeType (openType g)

end SqlInsight.Grammar
