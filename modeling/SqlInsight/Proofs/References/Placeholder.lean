/-
Where the table put at the end of an incomplete text shows in the references. As a table it is
passed over wherever it is read. As an alias, as the name of a common table expression or as a
column it is not, so it stays hidden exactly as long as the grammar takes it for none of these.
-/
import SqlInsight.Proofs.References.Written
import SqlInsight.Proofs.Text.CaseFold
import SqlInsight.Reading.Standard

namespace SqlInsight

open Outline

/-- Whether a name is another one than that of the table put at the end. -/
def IsShown (name : Text) : Prop :=
  isPlaceholder name = false

theorem isPlaceholder_lower (name : Text) : isPlaceholder name.lower = isPlaceholder name := by
  have hplain : placeholderTable.asciiLower.all CaseFold.isPlain = true := by decide +kernel
  exact Text.sameAscii_lower (List.all_eq_true.mp hplain) name

theorem toLower_mem_of_isPlaceholder {name : Text} (h : isPlaceholder name = true) {c : Char}
    (hc : c ∈ name) : c.toLower ∈ placeholderTable.asciiLower := by
  have hlower : name.asciiLower = placeholderTable.asciiLower := beq_iff_eq.mp h
  rw [← hlower]
  exact List.mem_map_of_mem hc

theorem isBlank_of_isPlaceholder {name : Text} (h : isPlaceholder name = true) :
    ∀ c ∈ name, CharClass.isBlank c = false := by
  intro c hc
  have hblanks : ∀ n ∈ References.blankCodes,
      (Char.ofNat n).toLower ∉ placeholderTable.asciiLower := by
    decide +kernel
  by_contra hblank
  have hcode := hblanks _ (References.mem_blankCodes (c := c) (by simpa using hblank))
  rw [Char.ofNat_toNat] at hcode
  exact hcode (toLower_mem_of_isPlaceholder h hc)

namespace Text

/-- Whether the table put at the end is written nowhere in a text, in any ASCII case. -/
def IsFree (t : Text) : Prop :=
  ∀ w, w <:+: t → isPlaceholder w = false

theorem IsFree.of_isInfix {t s : Text} (h : t.IsFree) (hs : s <:+: t) : s.IsFree :=
  fun w hw => h w (hw.trans hs)

theorem isFree_of_length_lt {t : Text} (h : t.length < placeholderTable.length) : t.IsFree := by
  intro w hw
  by_contra hplaceholder
  have hnamed : isPlaceholder w = true := by simpa using hplaceholder
  have hlower : asciiLower w = asciiLower placeholderTable := beq_iff_eq.mp hnamed
  have hsame := congrArg List.length hlower
  simp only [asciiLower, List.length_map] at hsame
  have hle := hw.length_le
  omega

theorem IsFree.mask {t : Text} (h : t.IsFree) (m : Mask) : (t.mask m).IsFree := by
  intro w hw
  by_contra hplaceholder
  have hnamed : isPlaceholder w = true := by simpa using hplaceholder
  rw [h w (isInfix_of_isInfix_mask (isBlank_of_isPlaceholder hnamed) hw)] at hnamed
  contradiction

/-- Where no doubled character is left none was doubled. -/
theorem undouble_eq_self {c : Char} {t : Text} (h : c ∉ undouble c t) : undouble c t = t := by
  induction t using undouble.induct c with
  | case1 => rfl
  | case2 a => rfl
  | case3 a b rest hab ih =>
      rw [undouble, if_pos hab] at h
      exact absurd List.mem_cons_self h
  | case4 a b rest hab ih =>
      rw [undouble, if_neg hab] at h ⊢
      rw [ih fun hmem => h (List.mem_cons_of_mem a hmem)]

end Text

theorem Name.inside?_isInfix {opening closing : Char} {t inner : Text}
    (h : inside? opening closing t = some inner) : inner <:+: t := by
  unfold inside? at h
  split at h
  · contradiction
  · rename_i first rest
    split at h
    · obtain rfl := Option.some.inj h
      exact (List.dropLast_prefix rest).isInfix.trans (List.suffix_cons first rest).isInfix
    · contradiction

theorem Text.IsFree.unquote {t : Text} (h : t.IsFree) : IsShown (Name.unquote t) := by
  obtain ⟨lead, tail, ht, -, -, -⟩ := Text.exists_trim t
  have htrim : t.trim <:+: t := ⟨lead, tail, ht.symm⟩
  unfold Name.unquote
  simp only
  cases hfound : Name.delimiters.findSome? fun x =>
      (Name.inside? x.1 x.2 t.trim).map (Text.undouble x.2) with
  | none => exact h _ htrim
  | some name =>
      obtain ⟨⟨opening, closing⟩, hmem, hinside⟩ := List.exists_of_findSome?_eq_some hfound
      obtain ⟨inner, hinner, rfl⟩ := Option.map_eq_some_iff.mp hinside
      have hfree := h.of_isInfix ((Name.inside?_isInfix hinner).trans htrim)
      change isPlaceholder (Text.undouble closing inner) = false
      by_contra hplaceholder
      have hnamed : isPlaceholder (Text.undouble closing inner) = true := by
        simpa using hplaceholder
      have hclosing : closing ∉ Text.undouble closing inner := by
        intro hc
        have hdelimiters : ∀ x ∈ Name.delimiters, x.2.toLower ∉ placeholderTable.asciiLower := by
          decide
        exact hdelimiters _ hmem (toLower_mem_of_isPlaceholder hnamed hc)
      rw [Text.undouble_eq_self hclosing, hfree inner (List.infix_refl inner)] at hnamed
      contradiction

namespace Outline

/-- Whether an alias or the name of a common table expression is that of the table put at the
end. -/
def Visit.bindsPlaceholder : Visit → Bool
  | .cte c => isPlaceholder c.name
  | .relation (.table name alias?) => !isPlaceholder name.name && alias?.any isPlaceholder
  | .relation (.derived _ (some name)) => isPlaceholder name
  | _ => false

/-- The columns that a common table expression or a derived table gives. -/
def Visit.columns : Visit → List Text
  | .cte c => (Binding.ofDeclared c).columns
  | .relation (.derived q (some _)) => q.outputColumns
  | _ => []

/-- Whether an alias, the name of a common table expression or a column is that of the table put at
the end. -/
def Visit.givesPlaceholder (v : Visit) : Bool :=
  v.bindsPlaceholder || v.columns.any isPlaceholder

theorem Visit.any_key? (v : Visit) : v.key?.any isPlaceholder = v.bindsPlaceholder := by
  cases v with
  | cte c => exact isPlaceholder_lower c.name
  | relation relation =>
      cases relation with
      | table name alias? =>
          rw [key?, bindsPlaceholder]
          cases hname : isPlaceholder name.name
          · cases alias? <;> simp [isPlaceholder_lower, hname]
          · rfl
      | derived q alias? =>
          cases alias? with
          | none => rfl
          | some name => exact isPlaceholder_lower name
      | nested s => rfl
      | other alias? => rfl
  | column c => rfl
  | query q => rfl

end Outline

namespace References

theorem isShown_of_starSource? {q : Query} {name : TableName} (h : starSource? q = some name) :
    IsShown name.name := by
  unfold starSource? at h
  split at h
  · split at h
    · rename_i hstar
      obtain rfl := Option.some.inj h
      rw [Bool.and_eq_true] at hstar
      simpa [IsShown] using hstar.2
    · contradiction
  · contradiction

/-- The table put at the end is never met as a table, nor as the source of a star. -/
theorem names_visit (v : Visit) : v.Names (fun _ => True) IsShown := by
  cases v with
  | cte c =>
      refine ⟨trivial, Binding.names_ofCte trivial (fun _ _ => trivial) fun name hname => ?_⟩
      exact isShown_of_starSource? hname
  | relation relation =>
      cases relation with
      | table name alias? => exact fun hname => ⟨hname, fun _ _ => trivial⟩
      | derived q alias? =>
          cases alias? with
          | none => trivial
          | some name => exact ⟨trivial, fun _ _ => trivial⟩
      | nested s => trivial
      | other alias? => trivial
  | column c => trivial
  | query q => trivial

theorem names_visit_of_givesPlaceholder {v : Visit} (h : v.givesPlaceholder = false) :
    v.Names IsShown IsShown := by
  rw [Visit.givesPlaceholder, Bool.or_eq_false_iff] at h
  obtain ⟨hbinds, hcolumns⟩ := h
  rw [List.any_eq_false] at hcolumns
  cases v with
  | cte c =>
      refine ⟨hbinds, Binding.names_ofCte hbinds (fun column hmem => ?_) fun name hname => ?_⟩
      · exact Bool.eq_false_iff.mpr (hcolumns column hmem)
      · exact isShown_of_starSource? hname
  | relation relation =>
      cases relation with
      | table name alias? =>
          intro hname
          refine ⟨hname, fun a ha => ?_⟩
          subst ha
          simpa [Visit.bindsPlaceholder, hname, IsShown] using hbinds
      | derived q alias? =>
          cases alias? with
          | none => trivial
          | some name =>
              exact ⟨hbinds, fun column hmem => Bool.eq_false_iff.mpr (hcolumns column hmem)⟩
      | nested s => trivial
      | other alias? => trivial
  | column c => trivial
  | query q => trivial

/-- References in which the table put at the end shows nowhere. -/
structure IsClean (r : References) : Prop where
  names : r.Names IsShown IsShown
  aliases : ∀ entry ∈ r.aliases, IsShown entry.1
  ctes : ∀ entry ∈ r.ctes, IsShown entry.1

theorem Names.isClean {r : References} (h : r.Names IsShown IsShown) : r.IsClean := by
  refine ⟨h, fun entry hentry => ?_, fun entry hentry => ?_⟩
  · obtain ⟨⟨name, hname, hkey⟩, -⟩ := h.aliases entry hentry
    rw [IsShown, hkey, isPlaceholder_lower]
    exact hname
  · obtain ⟨⟨name, hname, hkey⟩, -⟩ := h.ctes entry hentry
    rw [IsShown, hkey, isPlaceholder_lower]
    exact hname

theorem isSome_lookup_foldl (visits : List Visit) (r : References) (key : Text) :
    ((visits.foldl visit r).aliases.lookup key).isSome = true ↔
      (∃ v ∈ visits, v.key? = some key) ∨ (r.aliases.lookup key).isSome = true := by
  induction visits generalizing r with
  | nil => simp
  | cons v rest ih =>
      rw [List.foldl_cons, ih, lookup_aliases_visit]
      by_cases hkey : v.key? = some key
      · have hbinding : (r.binding? v).isSome = true := by
          rw [isSome_binding?, hkey]
          rfl
        simp [hkey, hbinding]
      · simp [hkey]

/-- A name that is bound is that of the table put at the end exactly if the walk meets it as an
alias or as the name of a common table expression. -/
theorem alias_isPlaceholder_iff (ss : List Statement) :
    (∃ entry ∈ (ofStatements ss).aliases, isPlaceholder entry.1 = true) ↔
      ∃ v ∈ walk ss, v.bindsPlaceholder = true := by
  have hkey (key : Text) : (∃ entry ∈ (ofStatements ss).aliases, entry.1 = key) ↔
      ∃ v ∈ walk ss, v.key? = some key := by
    have hlookup := isSome_lookup_foldl (walk ss) {} key
    rw [← ofStatements_eq] at hlookup
    simpa using hlookup
  constructor
  · rintro ⟨entry, hentry, hplaceholder⟩
    obtain ⟨v, hv, hbinds⟩ := (hkey entry.1).mp ⟨entry, hentry, rfl⟩
    refine ⟨v, hv, ?_⟩
    rw [← v.any_key?, hbinds]
    exact hplaceholder
  · rintro ⟨v, hv, hbinds⟩
    rw [← v.any_key?, Option.any_eq_true] at hbinds
    obtain ⟨key, hsome, hplaceholder⟩ := hbinds
    obtain ⟨entry, hentry, rfl⟩ := (hkey key).mpr ⟨v, hv, hsome⟩
    exact ⟨entry, hentry, hplaceholder⟩

/-- No table that is listed, no source of a star and no table that an alias stands for is the one
put at the end. -/
theorem names_extract (l : Ladder) (t : Text) : (extract l t).Names (fun _ => True) IsShown := by
  unfold extract
  split
  · exact names_ofStatements (fun _ _ => trivial) fun v _ => names_visit v
  · exact names_ofText (fun _ _ => trivial) (fun _ _ => trivial) fun _ _ hname => hname

/-- A text that cannot be read shows the table put at the end only if it is written there. -/
theorem isClean_ofText {t : Text} (h : t.IsFree) : (ofText t).IsClean := by
  have hwritten : ∀ name, Written (t.mask .literals) name → IsShown name := by
    rintro name ⟨w, hw, rfl⟩
    exact ((h.mask .literals).of_isInfix hw).unquote
  have hnames := names_ofText (fun _ hname => hname) hwritten fun name hname _ =>
    hwritten name hname
  exact hnames.isClean

/-- The table put at the end of a text never shows as a table or as the source of a star. Of a text
that is read it shows as a name exactly if the grammar takes it for an alias or for the name of a
common table expression, and nowhere if it is no column either; of a text that cannot be read it
does not show at all. -/
theorem placeholder_hidden_unless_named (l : Ladder) (t : Text) :
    (extract l t).Names (fun _ => True) IsShown ∧
      (∀ reading, l.read? t = some reading →
        ((∃ entry ∈ (extract l t).aliases, isPlaceholder entry.1 = true) ↔
            ∃ v ∈ walk reading.statements, v.bindsPlaceholder = true) ∧
          ((∀ v ∈ walk reading.statements, v.givesPlaceholder = false) →
            (extract l t).IsClean)) ∧
      (l.read? t = none → t.IsFree → (extract l t).IsClean) := by
  refine ⟨names_extract l t, fun reading hread => ?_, fun hread hfree => ?_⟩
  · have hextract : extract l t = ofStatements reading.statements := by rw [extract, hread]
    rw [hextract]
    refine ⟨alias_isPlaceholder_iff reading.statements, fun hgives => ?_⟩
    exact (names_ofStatements (fun _ hname => hname) fun v hv =>
      names_visit_of_givesPlaceholder (hgives v hv)).isClean
  · have hextract : extract l t = ofText t := by rw [extract, hread]
    rw [hextract]
    exact isClean_ofText hfree

/-- The grammar with its usual dialects. -/
def standardLadder : Ladder :=
  ⟨standardParser, .mssql, .mysql⟩

/-- A text that ends in a comma, behind which the grammar takes the word put there for a table. -/
def behindComma : Text :=
  "WITH c AS (SELECT 1 AS a) SELECT * FROM c,".toList

/-- A text that is not read, since its last clause is open. -/
def openList : Text :=
  "SELECT a.x FROM a,".toList

theorem placeholder_hidden_behind_comma :
    (∃ reading, standardLadder.read? behindComma = some reading ∧
        reading.hasPlaceholder = true ∧ (extract standardLadder behindComma).IsClean) ∧
      standardLadder.read? openList = none ∧ (extract standardLadder openList).IsClean := by
  constructor
  · have hread : (standardLadder.read? behindComma).any (fun reading =>
        reading.hasPlaceholder && (walk reading.statements).all (!·.givesPlaceholder)) = true := by
      decide +kernel
    obtain ⟨reading, hreading, hholds⟩ := (Option.any_eq_true _ _).mp hread
    rw [Bool.and_eq_true, List.all_eq_true] at hholds
    obtain ⟨hplaced, hgives⟩ := hholds
    refine ⟨reading, hreading, hplaced, ?_⟩
    have hhidden := (placeholder_hidden_unless_named standardLadder behindComma).2.1
    exact (hhidden reading hreading).2 fun v hv => by simpa using hgives v hv
  · have hnone : standardLadder.read? openList = none :=
      Option.isNone_iff_eq_none.mp (by decide +kernel)
    refine ⟨hnone, ?_⟩
    exact (placeholder_hidden_unless_named standardLadder openList).2.2 hnone
      (Text.isFree_of_length_lt (by decide))

/-- A text that ends in `AS`, behind which the grammar takes the word put there for an alias. -/
def behindAs : Text :=
  "WITH c AS (SELECT 1 AS a) SELECT * FROM c AS".toList

/-- The table put at the end shows as an alias. -/
theorem placeholder_shows_behind_as :
    behindAs.contains placeholderTable = false ∧
      (extract standardLadder behindAs).aliases.map Prod.fst =
        ["c".toList, placeholderTable] := by
  decide +kernel

end References

end SqlInsight
