/-
What the names in a text refer to: the aliases in use, the common table expressions, and the tables
themselves. They are taken from the outline of the text if it can be read, or else from the words
that stand after those that introduce tables.
-/
import SqlInsight.Keyed
import SqlInsight.Name.Quoting
import SqlInsight.Outline.Visit
import SqlInsight.Reading
import SqlInsight.Schema
import SqlInsight.Text.CaseFold

namespace SqlInsight

open Outline (TableName)

/-- What an alias stands for: a table in the default schema or another one, a common table
expression, or a subquery. -/
inductive BindingKind where
  | default
  | cte
  | subquery
  | named
deriving Repr, DecidableEq, Inhabited

/-- The word for what an alias stands for. -/
def BindingKind.name : BindingKind → String
  | default => "default"
  | cte => "cte"
  | subquery => "subquery"
  | named => "named"

/-- What an alias stands for: the schema, or a word in its place, the name, the columns if they are
known, and the table behind a common table expression that takes over all its columns. -/
structure Binding where
  kind : BindingKind
  schema : Text
  table : Text
  columns : List Text
  source : Option TableName
deriving Repr, DecidableEq, Inhabited

namespace Binding

def ofTable (name : TableName) : Binding :=
  let schema := name.schema.getD defaultSchema
  ⟨if schema.sameAscii defaultSchema then .default else .named, schema, name.name, [], none⟩

def ofCte (name : Text) (columns : List Text) (source : Option TableName) : Binding :=
  ⟨.cte, "cte".toList, name, columns, source⟩

def ofSubquery (name : Text) (columns : List Text) : Binding :=
  ⟨.subquery, "subquery".toList, name, columns, none⟩

/-- Whether the alias stands for a table. -/
def isPhysical (b : Binding) : Bool :=
  b.kind == .default || b.kind == .named

end Binding

/-- What the names in a text refer to. Aliases and common table expressions go by their names in
lower case; the tables stand in the order they were found, each with its schema. -/
structure References where
  aliases : List (Text × Binding) := []
  tables : List (Text × Text) := []
  ctes : List (Text × Binding) := []
deriving Repr, DecidableEq, Inhabited

namespace References

def bindCte (r : References) (name : Text) (columns : List Text) (source : Option TableName) :
    References :=
  let binding := Binding.ofCte name columns source
  { r with
    ctes := Keyed.put name.lower binding r.ctes
    aliases := Keyed.put name.lower binding r.aliases }

/-- Bind a table by its alias or its name. A name without a schema may be that of a common table
expression. -/
def bindTable (r : References) (name : TableName) (alias? : Option Text) : References :=
  if isPlaceholder name.name then r
  else
    let key := (alias?.getD name.name).lower
    let cte := if name.schema.isNone then r.ctes.lookup name.name.lower else none
    match cte with
    | some binding => { r with aliases := Keyed.put key binding r.aliases }
    | none =>
        let binding := Binding.ofTable name
        { r with
          tables := r.tables ++ [(binding.schema, binding.table)]
          aliases := Keyed.put key binding r.aliases }

/-- The table of a query that is nothing but a star over one table. -/
def starSource? (q : Outline.Query) : Option TableName :=
  match q.selects with
  | [.mk items [.mk (.table name _) []] _ _ _] =>
      if (items.any fun | .star => true | _ => false) && !isPlaceholder name.name then some name
      else none
  | _ => none

/-- Take account of something that a walk through a statement meets. -/
def visit (r : References) : Outline.Visit → References
  | .cte c =>
      let columns := if c.columns.isEmpty then c.query.outputColumns else c.columns
      r.bindCte c.name columns (starSource? c.query)
  | .relation (.table name alias?) => r.bindTable name alias?
  | .relation (.derived query (some name)) =>
      { r with
        aliases := Keyed.put name.lower (Binding.ofSubquery name query.outputColumns) r.aliases }
  | _ => r

def ofStatements (statements : List Outline.Statement) : References :=
  (statements.flatMap fun s => s.visits fun _ => true).foldl visit {}

/-- The words that may follow the name of a table and are no alias. -/
def stopWords : List String :=
  ["AND", "APPLY", "AS", "BY", "CROSS", "ELSE", "END", "EXCEPT", "FETCH", "FOR", "FROM", "FULL",
    "GO", "GROUP", "HAVING", "INNER", "INTERSECT", "INTO", "JOIN", "LEFT", "LIMIT", "NATURAL",
    "NOT", "OFFSET", "ON", "OPTION", "OR", "ORDER", "OUTER", "OUTPUT", "PIVOT", "RETURNING",
    "RIGHT", "SELECT", "SET", "TABLESAMPLE", "THEN", "UNION", "UNPIVOT", "USING", "VALUES",
    "WHEN", "WHERE", "WINDOW", "WITH"]

/-- Whether a word is no name in the place of an alias. -/
def isStopWord (word : Text) : Bool :=
  stopWords.any fun stop => word.sameAscii stop.toList

/-- The unquoted parts of a dotted name; `closing` ends a delimited part, and `part` is what has
been read of the part, in reverse. Blanks outside delimiters do not count. -/
def splitFrom (closing : Option Char) (part : Text) : Text → List Text
  | [] => [Name.unquote part.reverse]
  | c :: rest =>
      match closing with
      | some close => splitFrom (if c = close then none else closing) (c :: part) rest
      | none =>
          if c = '[' then splitFrom (some ']') (c :: part) rest
          else if c = '"' then splitFrom (some '"') (c :: part) rest
          else if c = '.' then Name.unquote part.reverse :: splitFrom none [] rest
          else if CharClass.isBlank c then splitFrom none part rest
          else splitFrom none (c :: part) rest

/-- The unquoted parts of a dotted name. -/
def splitQualified (name : Text) : List Text :=
  splitFrom none [] name

/-- A common table expression in a text: its name, the text of its columns, and what follows the
parenthesis that opens its body. -/
structure CteHead where
  name : Text
  columns : Option Text
  rest : Text

/-- What follows the parenthesis that opens a body, after any blanks. -/
def bodyAfter? (t : Text) : Option Text :=
  match Text.afterWord? "as".toList t.trimStart with
  | some rest =>
      match Text.trimStart rest with
      | '(' :: body => some body
      | _ => none
  | none => none

/-- The columns and the body that follow the name of a common table expression. -/
def cteAfterName? (name t : Text) : Option CteHead :=
  let withColumns :=
    match t.trimStart with
    | '(' :: inside =>
        (Text.afterFirst? ')' inside).bind fun rest =>
          (bodyAfter? rest).map fun body =>
            (⟨name, some (inside.takeWhile (· != ')')), body⟩ : CteHead)
    | _ => none
  withColumns.or ((bodyAfter? t).map fun body => ⟨name, none, body⟩)

/-- The common table expression that begins a text after `before`: after the word that introduces
one, or after a comma. -/
def cteAt? (before : Option Char) (t : Text) : Option (CteHead × Nat) :=
  let start :=
    match t with
    | ',' :: rest => some rest
    | _ => Text.afterWordStart? "with".toList before t
  start.bind fun rest =>
    ((Text.identifiers (Text.trimStart rest)).findSome? fun (name, after) =>
      cteAfterName? name after).map fun head => (head, t.length - head.rest.length)

/-- The common table expressions that a text introduces. -/
def cteHeads (t : Text) : List CteHead :=
  Text.allMatches cteAt? t

def commaNames (t : Text) : List Text :=
  ((t.splitOn ',').map Name.unquote).filter fun name => !name.isEmpty

/-- Bind a common table expression found in a text. -/
def bindHead (r : References) (head : CteHead) : References :=
  r.bindCte (Name.unquote head.name) ((head.columns.map commaNames).getD []) none

/-- The alias that may follow the name of a table, and what follows it. -/
def aliasAfter? (t : Text) : Option (Text × Text) := do
  let rest ← Text.afterBlanks? t
  let explicit :=
    (Text.afterWord? "as".toList rest).bind fun more =>
      (Text.afterBlanks? more).bind Text.identifier?
  explicit.or (Text.identifier? rest)

/-- Bind the tables of a list with commas between them. -/
def scanTables (r : References) (t : Text) : (fuel : Nat) → References
  | 0 => r
  | fuel + 1 =>
      match Text.dottedName? 3 t.trimStart with
      | none => r
      | some (name, afterName) =>
          match TableName.ofParts? (splitQualified name) with
          | none => r
          | some table =>
              if isStopWord table.name then r
              else
                let alias? := (aliasAfter? afterName).filter fun a => !isStopWord a.1
                let r := r.bindTable table (alias?.map fun a => Name.unquote a.1)
                let rest := (alias?.map Prod.snd).getD afterName
                match Text.trimStart rest with
                | ',' :: more => scanTables r more fuel
                | _ => r

/-- The text after a word that introduces tables and begins after `before`. -/
def tableListAt? (before : Option Char) (t : Text) : Option (Text × Nat) :=
  ((Text.afterWordStart? "from".toList before t).or
    (Text.afterWordStart? "join".toList before t)).bind fun rest =>
      if Text.endsWord rest then some (rest, 4) else none

/-- What the names in a text that cannot be read refer to. -/
def ofText (t : Text) : References :=
  let masked := t.mask .literals
  let bound := (cteHeads masked).foldl bindHead {}
  (Text.allMatches tableListAt? masked).foldl (fun r list => r.scanTables list list.length) bound

def extract (l : Ladder) (t : Text) : References :=
  match l.read? t with
  | some reading => ofStatements reading.statements
  | none => ofText t

/-- What an alias stands for, in any case. -/
def resolve? (r : References) (name : Text) : Option Binding :=
  r.aliases.lookup name.lower

/-- Entries in increasing order of their keys. -/
def sortEntries (list : List (Text × Binding)) : List (Text × Binding) :=
  list.mergeSort fun a b => !decide (b.1 < a.1)

/-- The aliases in use, in order. -/
def used (r : References) : List Text :=
  (sortEntries r.aliases).map Prod.fst

end References

end SqlInsight
