/-
The extents of the statements partition the code of a buffer. The extents of a batch tile its text:
they lie in order, apart from each other, each around a text without blanks at its ends, and around
every character of the code. Pieces tile a batch, and so does a batch taken as one statement; the
batches, which lie in order and on lines of their own, put the tilings together.
-/
import SqlInsight.Proofs.Batch.Stretches
import SqlInsight.Span

namespace SqlInsight

/-- Of things that lie in order and apart at most one holds a place. -/
theorem eq_of_pairwise_lt {α : Type} {first last : α → Nat} {xs : List α}
    (h : xs.Pairwise fun x y => last x < first y) {x y : α} (hx : x ∈ xs) (hy : y ∈ xs) {m : Nat}
    (hxm : first x ≤ m ∧ m ≤ last x) (hym : first y ≤ m ∧ m ≤ last y) : x = y := by
  induction xs with
  | nil => simp at hx
  | cons z rest ih =>
      obtain ⟨hz, hrest⟩ := List.pairwise_cons.mp h
      rcases List.mem_cons.mp hx with rfl | hxrest
      · rcases List.mem_cons.mp hy with rfl | hyrest
        · rfl
        · have hapart := hz y hyrest
          omega
      · rcases List.mem_cons.mp hy with rfl | hyrest
        · have hapart := hz x hxrest
          omega
        · exact ih hrest hxrest hyrest

namespace Extent

open Text

/-- An extent stands in a text that starts at that offset: around a stretch of it, not empty and
without blanks around it. -/
structure StandsIn (t : Text) (offset : Nat) (x : Extent) : Prop where
  exists_append : ∃ before part after, t = before ++ part ++ after ∧
    x.first = offset + size before ∧ x.last = x.first + size part ∧ part ≠ [] ∧ part.trim = part

/-- Some extents tile a text that starts at that offset. -/
structure Tile (t : Text) (offset : Nat) (xs : List Extent) : Prop where
  standsIn : ∀ x ∈ xs, x.StandsIn t offset
  pairwise : xs.Pairwise fun x y => x.last < y.first
  covers : ∀ i, t.IsCode i → ∃ x ∈ xs, x.first ≤ offset + size (t.take i) ∧
    offset + size (t.take (i + 1)) ≤ x.last

theorem StandsIn.bounds {t : Text} {offset : Nat} {x : Extent} (h : x.StandsIn t offset) :
    offset ≤ x.first ∧ x.first < x.last ∧ x.last ≤ offset + size t := by
  obtain ⟨before, part, after, rfl, hfirst, hlast, hne, -⟩ := h.exists_append
  have hpos := size_pos hne
  rw [size_append, size_append]
  omega

/-- An extent in a batch of a buffer stands in the buffer. -/
theorem StandsIn.of_batch {t : Text} {b : Batch} (hb : b.StandsIn t) {x : Extent}
    (h : x.StandsIn b.text b.offset) : x.StandsIn t 0 := by
  obtain ⟨earlier, later, rfl, hoffset, -⟩ := hb.exists_append
  obtain ⟨before, part, after, htext, hfirst, hlast, hne, htrim⟩ := h.exists_append
  refine ⟨terminated earlier ++ before, part, after ++ later, by rw [htext]; simp, ?_, hlast, hne,
    htrim⟩
  rw [hfirst, hoffset, size_append, Nat.zero_add]

/-- The text of a span is what its extent stands around. -/
theorem StandsIn.span_text {t : Text} {x : Extent} (h : x.StandsIn t 0) :
    (∃ before after, t = before ++ (x.span t).text ++ after ∧ x.first = size before ∧
      x.last = x.first + size (x.span t).text) ∧
      (x.span t).text ≠ [] ∧ (x.span t).text.trim = (x.span t).text := by
  obtain ⟨before, part, after, rfl, hfirst, hlast, hne, htrim⟩ := h.exists_append
  rw [Nat.zero_add] at hfirst
  have htext : (x.span (before ++ part ++ after)).text = part := by
    change slice (before ++ part ++ after) x.first x.last = part
    rw [hlast, hfirst, slice_append]
  rw [htext]
  exact ⟨⟨before, after, rfl, hfirst, hlast⟩, hne, htrim⟩

/-- The extents of pieces lie where these lie in the batch. -/
theorem map_bounds_ofPieces (b : Batch) (index : Nat) (pieces : List Piece) :
    (ofPieces b index pieces).map (fun x => (x.first, x.last)) =
      pieces.map fun p => (b.offset + p.first, b.offset + p.last) := by
  induction pieces generalizing index with
  | nil => rfl
  | cons p rest ih => rw [ofPieces, List.map_cons, ih, List.map_cons]

theorem mem_ofPieces {b : Batch} {index : Nat} {pieces : List Piece} {x : Extent}
    (h : x ∈ ofPieces b index pieces) :
    ∃ p ∈ pieces, x.first = b.offset + p.first ∧ x.last = b.offset + p.last := by
  have hmem := List.mem_map_of_mem (f := fun x : Extent => (x.first, x.last)) h
  rw [map_bounds_ofPieces] at hmem
  obtain ⟨p, hp, hbounds⟩ := List.mem_map.mp hmem
  obtain ⟨hfirst, hlast⟩ := Prod.mk.inj hbounds
  exact ⟨p, hp, hfirst.symm, hlast.symm⟩

theorem exists_mem_ofPieces {b : Batch} (index : Nat) {pieces : List Piece} {p : Piece}
    (h : p ∈ pieces) : ∃ x ∈ ofPieces b index pieces,
      x.first = b.offset + p.first ∧ x.last = b.offset + p.last := by
  have hmem := List.mem_map_of_mem (f := fun p => (b.offset + p.first, b.offset + p.last)) h
  rw [← map_bounds_ofPieces b index] at hmem
  obtain ⟨x, hx, hbounds⟩ := List.mem_map.mp hmem
  exact ⟨x, hx, Prod.mk.inj hbounds⟩

theorem ofPieces_pairwise (b : Batch) (index : Nat) {pieces : List Piece}
    (h : pieces.Pairwise fun p q => p.last < q.first) :
    (ofPieces b index pieces).Pairwise fun x y => x.last < y.first := by
  have hbounds : ((ofPieces b index pieces).map fun x => (x.first, x.last)).Pairwise
      fun x y => x.2 < y.1 := by
    rw [map_bounds_ofPieces, List.pairwise_map]
    exact h.imp fun hlt => Nat.add_lt_add_left hlt b.offset
  exact List.pairwise_map.mp hbounds

/-- The extents of its pieces tile a batch. -/
theorem ofBatch_tile (b : Batch) : Tile b.text b.offset (ofBatch b) := by
  refine ⟨fun x hx => ?_, ofPieces_pairwise b 0 (Piece.splitFrom_pairwise 0 b.text), fun i hi => ?_⟩
  · obtain ⟨p, hp, hfirst, hlast⟩ := mem_ofPieces hx
    have hstands := Piece.splitFrom_standsIn hp
    obtain ⟨before, after, htext, hpfirst⟩ := hstands.exists_append
    refine ⟨before, p.text, after, htext, by rw [hfirst, hpfirst, Nat.zero_add], ?_,
      hstands.ne_nil, hstands.trim_eq⟩
    rw [hlast, hfirst, hstands.last_eq, Nat.add_assoc]
  · obtain ⟨p, hp, hcovers⟩ := Piece.splitFrom_covers 0 hi
    obtain ⟨x, hx, hfirst, hlast⟩ := exists_mem_ofPieces (b := b) 0 hp
    refine ⟨x, hx, ?_⟩
    omega

/-- Around the text of a batch without the semicolons at its end there are only blanks and
semicolons. -/
theorem exists_withoutEnd (t : Text) :
    ∃ lead tail, t = lead ++ withoutEnd t ++ tail ∧
      (∀ c ∈ lead, CharClass.isBlank c = true ∨ c = ';') ∧
      (∀ c ∈ tail, CharClass.isBlank c = true ∨ c = ';') ∧
      size t - size t.trimStart = size lead := by
  obtain ⟨lead, tail, ht, hlead, htail, hsize⟩ := exists_trim t
  obtain ⟨ends, hends, hsemicolon⟩ := exists_dropEndWhile (· == ';') t.trim
  obtain ⟨blanks, hblanks, hblank⟩ :=
    exists_dropEndWhile CharClass.isBlank (dropEndWhile (· == ';') t.trim)
  refine ⟨lead, blanks ++ ends ++ tail, ?_, fun c hc => Or.inl (hlead c hc), ?_, hsize⟩
  · conv_lhs => rw [ht, hends, hblanks]
    rw [withoutEnd, trimEnd]
    simp
  · intro c hc
    rcases List.mem_append.mp hc with hfirst | hlast
    · rcases List.mem_append.mp hfirst with hin | hin
      · exact Or.inl (hblank c hin)
      · exact Or.inr (by simpa using hsemicolon c hin)
    · exact Or.inl (htail c hlast)

theorem trim_withoutEnd (t : Text) : (withoutEnd t).trim = withoutEnd t := by
  refine trim_trimEnd fun c hc => ?_
  exact trim_head? t (head?_of_isPrefix (dropEndWhile_isPrefix _ _) hc)

/-- A batch taken as one statement is tiled by it. -/
theorem whole?_tile {b : Batch} {x : Extent} (h : whole? b = some x) :
    Tile b.text b.offset [x] := by
  obtain ⟨lead, tail, ht, hlead, htail, hsize⟩ := exists_withoutEnd b.text
  unfold whole? at h
  simp only [hsize] at h
  split at h
  · contradiction
  · rename_i hempty
    obtain rfl := Option.some.inj h
    refine ⟨fun y hy => ?_, List.pairwise_singleton _ _, fun i hi => ?_⟩
    · obtain rfl := List.mem_singleton.mp hy
      exact ⟨lead, withoutEnd b.text, tail, ht, rfl, rfl, by simpa using hempty,
        trim_withoutEnd b.text⟩
    · obtain ⟨c, r, hget, -, hblank, hne⟩ := hi
      have hchar : (lead ++ withoutEnd b.text ++ tail)[i]? = some c := by
        rw [← ht]
        exact getElem?_of_regions hget
      have hcovers := middle_covers hlead htail hchar (by simp [hblank, hne])
      rw [← ht] at hcovers
      refine ⟨_, List.mem_singleton.mpr rfl, ?_⟩
      dsimp only
      omega

/-- The extents of the statements of a batch are those of its pieces, or that of the whole. -/
theorem ofStatements_cases (e : Engine) (b : Batch) :
    ofStatements e b = ofBatch b ∨ ∃ x, whole? b = some x ∧ ofStatements e b = [x] := by
  unfold ofStatements ofReading?
  split
  · exact Or.inl rfl
  · dsimp only
    split
    · exact Or.inl rfl
    · cases hwhole : whole? b with
      | none => exact Or.inl rfl
      | some x => exact Or.inr ⟨x, rfl, rfl⟩

/-- Whatever is read from a batch, the extents of its statements tile it. -/
theorem ofStatements_tile (e : Engine) (b : Batch) :
    Tile b.text b.offset (ofStatements e b) := by
  rcases ofStatements_cases e b with hpieces | ⟨x, hwhole, hx⟩
  · rw [hpieces]
    exact ofBatch_tile b
  · rw [hx]
    exact whole?_tile hwhole

theorem standsIn_of_mem_all {e : Engine} {t : Text} {x : Extent} (h : x ∈ all e t) :
    x.StandsIn t 0 := by
  obtain ⟨b, hb, hx⟩ := List.mem_flatMap.mp h
  exact ((ofStatements_tile e b).standsIn x hx).of_batch (Batch.standsIn_of_mem_split hb)

theorem all_pairwise (e : Engine) (t : Text) :
    (all e t).Pairwise fun x y => x.last < y.first := by
  rw [all, List.pairwise_flatMap]
  refine ⟨fun b _ => (ofStatements_tile e b).pairwise, ?_⟩
  refine (Batch.split_pairwise _ t).imp fun {b b'} hbatches x hx y hy => ?_
  have hlast := ((ofStatements_tile e b).standsIn x hx).bounds.2.2
  have hfirst := ((ofStatements_tile e b').standsIn y hy).bounds.1
  omega

/-- A byte of the code of a batch lies in exactly one extent. -/
theorem existsUnique_of_isCode {e : Engine} {t : Text} {b : Batch}
    (hb : b ∈ Batch.split e.settings.batchSeparator t) {i m : Nat} (hcode : b.text.IsCode i)
    (hfirst : b.offset + size (b.text.take i) ≤ m)
    (hlast : m < b.offset + size (b.text.take (i + 1))) :
    ∃! x, x ∈ all e t ∧ x.first ≤ m ∧ m < x.last := by
  obtain ⟨x, hx, hxfirst, hxlast⟩ := (ofStatements_tile e b).covers i hcode
  refine ⟨x, ⟨List.mem_flatMap.mpr ⟨b, hb, hx⟩, by omega, by omega⟩, ?_⟩
  rintro y ⟨hy, hyfirst, hylast⟩
  exact eq_of_pairwise_lt (all_pairwise e t) hy (List.mem_flatMap.mpr ⟨b, hb, hx⟩)
    ⟨hyfirst, by omega⟩ ⟨by omega, by omega⟩

/-- The spans of a buffer partition its code, whatever the parser reads. They are those of extents
that lie in order and apart; each has the text its extent stands around, which is not empty and has
no blanks around it; and every byte of the code of a batch, or of a stretch of lines between
separator lines, lies in exactly one of them. The bytes of the character with index `i` are those
from `size (t.take i)` to before `size (t.take (i + 1))`. -/
theorem all_partition (e : Engine) (t : Text) :
    Span.all e t = (all e t).map (Extent.span t) ∧
      ((all e t).Pairwise fun x y => x.last < y.first) ∧
      (∀ x ∈ all e t,
        (∃ before after, t = before ++ (x.span t).text ++ after ∧ x.first = size before ∧
          x.last = x.first + size (x.span t).text) ∧
          (x.span t).text ≠ [] ∧ (x.span t).text.trim = (x.span t).text) ∧
      (∀ b ∈ Batch.split e.settings.batchSeparator t, ∀ i m, b.text.IsCode i →
        b.offset + size (b.text.take i) ≤ m → m < b.offset + size (b.text.take (i + 1)) →
          ∃! x, x ∈ all e t ∧ x.first ≤ m ∧ m < x.last) ∧
      ∀ s ∈ Batch.stretches e.settings.batchSeparator t, ∀ i m, s.text.IsCode i →
        s.offset + size (s.text.take i) ≤ m → m < s.offset + size (s.text.take (i + 1)) →
          ∃! x, x ∈ all e t ∧ x.first ≤ m ∧ m < x.last := by
  refine ⟨rfl, all_pairwise e t, fun x hx => (standsIn_of_mem_all hx).span_text,
    fun b hb i m hcode hfirst hlast => existsUnique_of_isCode hb hcode hfirst hlast,
    fun s hs i m hcode hfirst hlast => ?_⟩
  obtain ⟨b, hbatch, hoffset, hb, hsize, hsizesucc⟩ := Batch.Stretch.exists_batch?_of_isCode hcode
  have hmem : b ∈ Batch.split e.settings.batchSeparator t := by
    rw [Batch.split_eq_filterMap]
    exact List.mem_filterMap.mpr ⟨s, hs, hbatch⟩
  exact existsUnique_of_isCode hmem hb (by rwa [hoffset, hsize]) (by rwa [hoffset, hsizesucc])

end Extent

end SqlInsight
