/-
The lexical regions of a SQL text: code, string literals, delimited identifiers and comments. One
scan gives every character its region; masking a text, asking where it ends and asking whether it
holds any code are views of that scan.
-/
import SqlInsight.Text.CharClass

namespace SqlInsight

/-- The kinds of stretches a SQL text consists of. Block comments nest. -/
inductive Region where
  | code
  | singleQuoted
  | doubleQuoted
  | bracketed
  | lineComment
  | blockComment (depth : Nat)
deriving Repr, DecidableEq, Inhabited

/-- Which regions a mask blanks: comments always, then string literals, then delimited
identifiers. -/
inductive Mask where
  | comments
  | literals
  | identifiers
deriving Repr, DecidableEq

namespace Region

def isMasked (m : Mask) : Region → Bool
  | .code => false
  | .lineComment | .blockComment _ => true
  | .singleQuoted => m != .comments
  | .doubleQuoted | .bracketed => m == .identifiers

/-- The character that ends a delimited region. -/
def closer? : Region → Option Char
  | .singleQuoted => some '\''
  | .doubleQuoted => some '"'
  | .bracketed => some ']'
  | _ => none

end Region

/-- Where the scan stands: in a region, or before the second character of a two-character token,
after which it stands in the region `next`. -/
inductive ScanState where
  | inside (region : Region)
  | midway (region next : Region)
deriving Repr, DecidableEq

namespace ScanState

def start : ScanState :=
  .inside .code

/-- Read one character in code, knowing the one after it. -/
def stepCode (c : Char) (next : Option Char) : Region × ScanState :=
  if c = '\'' then (.singleQuoted, .inside .singleQuoted)
  else if c = '"' then (.doubleQuoted, .inside .doubleQuoted)
  else if c = '[' then (.bracketed, .inside .bracketed)
  else if c = '-' ∧ next = some '-' then (.lineComment, .midway .lineComment .lineComment)
  else if c = '/' ∧ next = some '*' then
    (.blockComment 1, .midway (.blockComment 1) (.blockComment 1))
  else (.code, .inside .code)

/-- Read one character of a delimited region that `close` ends; a doubled `close` stands for
itself. -/
def stepDelimited (region : Region) (close c : Char) (next : Option Char) : Region × ScanState :=
  if c = close then
    if next = some close then (region, .midway region region) else (region, .inside .code)
  else (region, .inside region)

/-- Read one character of a block comment. -/
def stepBlock (depth : Nat) (c : Char) (next : Option Char) : Region × ScanState :=
  if c = '*' ∧ next = some '/' then
    (.blockComment depth,
      .midway (.blockComment depth) (if depth ≤ 1 then .code else .blockComment (depth - 1)))
  else if c = '/' ∧ next = some '*' then
    (.blockComment depth, .midway (.blockComment depth) (.blockComment (depth + 1)))
  else (.blockComment depth, .inside (.blockComment depth))

/-- Read one character, knowing the one after it: its region, and where the scan stands then. -/
def step (s : ScanState) (c : Char) (next : Option Char) : Region × ScanState :=
  match s with
  | .midway region after => (region, .inside after)
  | .inside .code => stepCode c next
  | .inside .singleQuoted => stepDelimited .singleQuoted '\'' c next
  | .inside .doubleQuoted => stepDelimited .doubleQuoted '"' c next
  | .inside .bracketed => stepDelimited .bracketed ']' c next
  | .inside .lineComment =>
      if c = '\n' then (.code, .inside .code) else (.lineComment, .inside .lineComment)
  | .inside (.blockComment depth) => stepBlock depth c next

def region : ScanState → Region
  | .inside r => r
  | .midway _ next => next

end ScanState

namespace Text

/-- Every character with its region, when the scan starts in `s`. -/
def regionsFrom (s : ScanState) : Text → List (Char × Region)
  | [] => []
  | c :: rest =>
      let (r, next) := s.step c rest.head?
      (c, r) :: regionsFrom next rest

def regions (t : Text) : List (Char × Region) :=
  regionsFrom .start t

def scanFrom (s : ScanState) : Text → ScanState
  | [] => s
  | c :: rest => scanFrom (s.step c rest.head?).2 rest

def endRegion (t : Text) : Region :=
  (scanFrom .start t).region

/-- What stands in a mask for a character: a line feed stays, anything else becomes one space for
every byte. -/
def blanks (c : Char) : Text :=
  if c = '\n' then ['\n'] else List.replicate c.utf8Size ' '

/-- The text with the regions of the mask blanked, byte for byte. -/
def mask (m : Mask) (t : Text) : Text :=
  t.regions.flatMap fun (c, r) => if r.isMasked m then blanks c else [c]

/-- Whether the end of the text lies inside a string literal or a comment. -/
def endsInLiteralOrComment (t : Text) : Bool :=
  match t.endRegion with
  | .singleQuoted | .lineComment | .blockComment _ => true
  | _ => false

/-- Whether the text holds nothing but blanks and comments. -/
def isBlankSql (t : Text) : Bool :=
  (t.mask .comments).isBlank

end Text

end SqlInsight
