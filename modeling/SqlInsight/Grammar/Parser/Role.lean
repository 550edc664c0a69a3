/-
Reading statements about who may do what: roles, policies on tables, and privileges.
-/
import SqlInsight.Grammar.Parser.Constraint

namespace SqlInsight.Grammar

open Reader

variable (g : Level)

def owner : Reader Unit := do
  if (← oneOf ["CURRENT_USER", "CURRENT_ROLE", "SESSION_USER"]).isNone then
    let start ← place
    let found ← peek
    if (← tolerate identifier).isNone then
      failAt
        ("Expected: CURRENT_USER, CURRENT_ROLE, SESSION_USER or identifier after OWNER TO. "
          ++ "sql parser error: Expected: identifier, found: " ++ found.render)
        start

def policyConditions : Reader Unit := do
  ignoring (after "TO" (commaList owner))
  ignoring (after "USING" (exprInParens g))
  ignoring (afterAll ["WITH", "CHECK"] (exprInParens g))

/-- Read the definition of a policy after its word. -/
def createPolicy : Reader Unit := do
  ignoring identifier
  expectKeyword "ON"
  ignoring objectName
  ignoring (after "AS" (expectOneOf ["PERMISSIVE", "RESTRICTIVE"]))
  ignoring (after "FOR" (expectOneOf ["ALL", "SELECT", "INSERT", "UPDATE", "DELETE"]))
  policyConditions g

/-- Read a change of a policy after its word. -/
def alterPolicy : Reader Unit := do
  ignoring identifier
  expectKeyword "ON"
  ignoring objectName
  if ← keyword "RENAME" then
    expectKeyword "TO"
    ignoring identifier
  else policyConditions g

/-- The abilities of roles; each has a word to give and one to deny it. -/
def roleAbilities : List (String × String) :=
  [("LOGIN", "NOLOGIN"), ("INHERIT", "NOINHERIT"), ("BYPASSRLS", "NOBYPASSRLS"),
    ("CREATEDB", "NOCREATEDB"), ("CREATEROLE", "NOCREATEROLE"), ("SUPERUSER", "NOSUPERUSER"),
    ("REPLICATION", "NOREPLICATION")]

/-- The ability that a word gives or denies, as a message names it. -/
def roleAbility? (word : String) : Option String :=
  (roleAbilities.find? fun (give, deny) => word == give || word == deny).map fun (give, deny) =>
    give ++ " or " ++ deny

def password : Reader Unit := do
  if !(← keyword "NULL") then ignoring (value g.dialect)

/-- Read the word that begins an option of a new role, and the words that must follow it: the option
as a message names it, and the reader of its value. -/
def roleOption? : Reader (Option (String × Reader Unit)) := do
  let d := g.dialect
  let word := (← peek).keyword
  if d == .mssql then
    if ← keyword "AUTHORIZATION" then return some ("AUTHORIZATION", ignoring objectName)
    else return none
  else if d == .postgres then
    match roleAbility? word, word with
    | some ability, _ => skip; return some (ability, return ())
    | none, "PASSWORD" => skip; return some (word, password g)
    | none, "CONNECTION" =>
        skip
        expectKeyword "LIMIT"
        return some ("CONNECTION LIMIT", ignoring (numberValue d))
    | none, "VALID" =>
        skip
        expectKeyword "UNTIL"
        return some ("VALID UNTIL", ignoring (value d))
    | none, "IN" =>
        skip
        match ← oneOf ["ROLE", "GROUP"] with
        | some kind => return some ("IN " ++ kind, ignoring identifiers)
        | none => expected "ROLE or GROUP after IN"
    | none, "ROLE" | none, "ADMIN" | none, "USER" =>
        skip
        return some (word, ignoring identifiers)
    | none, _ => return none
  else return none

/-- Read the options of a new role, each at most once. -/
def roleOptions (seen : List String) : (fuel : Nat) → Reader Unit
  | 0 => return ()
  | fuel + 1 => do
      let start ← place
      match ← roleOption? g with
      | none => return ()
      | some (option, rest) =>
          if seen.contains option then failAt ("Found multiple " ++ option) start
          rest
          roleOptions (option :: seen) fuel

/-- Read the definition of roles after its word. -/
def createRole : Reader Unit := do
  ignoring ifNotExists
  ignoring (commaList objectName)
  ignoring (keyword "WITH")
  roleOptions g [] ((← get).length + 1)

def alteredOption : Reader Unit := do
  let word := (← peek).keyword
  if (roleAbility? word).isSome then skip
  else
    match word with
    | "PASSWORD" => skip; password g
    | "CONNECTION" => skip; expectKeyword "LIMIT"; ignoring (numberValue g.dialect)
    | "VALID" => skip; expectKeyword "UNTIL"; ignoring (value g.dialect)
    | _ => expected "option"

/-- Read the setting of a variable of a role after `SET`. -/
def roleSetting : Reader Unit := do
  ignoring objectName
  if ← keywordsIn ["FROM", "CURRENT"] then return ()
  else if ← (symbol "=" <||> keyword "TO") then
    if !(← keyword "DEFAULT") then
      if (← tolerate (expr g)).isNone then expected "config value"
  else expected "'TO' or '=' or 'FROM CURRENT'"

/-- Read a change of a role with its settings and options, after its word. -/
def alterConfiguredRole : Reader Unit := do
  ignoring identifier
  ignoring (afterAll ["IN", "DATABASE"] (tolerate objectName))
  if ← keyword "RENAME" then
    if ← keyword "TO" then ignoring identifier else expected "TO after RENAME"
  else if ← keyword "SET" then roleSetting g
  else if ← keyword "RESET" then
    if !(← keyword "ALL") then ignoring objectName
  else
    ignoring (keyword "WITH")
    let options ← manyOf (attempt (alteredOption g))
    if options.isEmpty then expected "option"

/-- Read a change of the members or the name of a role after its word. -/
def alterMembers : Reader Unit := do
  ignoring identifier
  if ← anyOf [["ADD", "MEMBER"], ["DROP", "MEMBER"]] then ignoring identifier
  else if ← keywordsIn ["WITH", "NAME"] then
    if ← symbol "=" then ignoring identifier else expected "= after WITH NAME "
  else expected "'ADD' or 'DROP' or 'WITH NAME'"

/-- Read a change of a role after its word. -/
def alterRole : Reader Unit :=
  match g.dialect with
  | .postgres => alterConfiguredRole g
  | .mssql => alterMembers
  | _ => fail "ALTER ROLE is only support for PostgreSqlDialect, MsSqlDialect"

/-- Read a privilege, perhaps on some columns only. -/
def privilege : Reader Unit := do
  match ← oneOf ["INSERT", "REFERENCES", "SELECT", "UPDATE"] with
  | some _ => ignoring (columnList true false)
  | none =>
      let plain :=
        ["CONNECT", "CREATE", "DELETE", "EXECUTE", "TEMPORARY", "TRIGGER", "TRUNCATE", "USAGE"]
      if (← oneOf plain).isNone then expected "a privilege keyword"

def privileges : Reader Unit := do
  if ← keyword "ALL" then ignoring (keyword "PRIVILEGES")
  else ignoring (commaList privilege)
  expectKeyword "ON"
  if !(← anyOf [["ALL", "TABLES", "IN", "SCHEMA"], ["ALL", "SEQUENCES", "IN", "SCHEMA"]]) then
    ignoring (oneOf ["SEQUENCE", "SCHEMA", "TABLE"])
  ignoring (commaList objectName)

/-- Read a granting of privileges after its word. -/
def grantStatement : Reader Unit := do
  privileges
  expectKeyword "TO"
  ignoring identifiers
  ignoring (keywordsIn ["WITH", "GRANT", "OPTION"])
  ignoring (afterAll ["GRANTED", "BY"] identifier)

/-- Read a revocation of privileges after its word. -/
def revokeStatement : Reader Unit := do
  privileges
  expectKeyword "FROM"
  ignoring identifiers
  ignoring (afterAll ["GRANTED", "BY"] identifier)
  let start ← place
  let cascade ← keyword "CASCADE"
  let restrict ← keyword "RESTRICT"
  if cascade && restrict then failAt "Cannot specify both CASCADE and RESTRICT in REVOKE" start

end SqlInsight.Grammar
