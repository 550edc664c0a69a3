/-
The names in a text: its runs of name characters, each as long as it can be. Where two texts meet,
the names are those of both, unless a name goes on across the seam; then there is one name less.
-/
import SqlInsight.Proofs.Text.Search

namespace SqlInsight

namespace Text

/-- The names in a text: its runs of name characters, each as long as it can be. -/
def names : Text → List Text
  | [] => []
  | c :: rest =>
      if CharClass.isName c then
        if beginsName rest then (names rest).modifyHead (c :: ·) else [c] :: names rest
      else names rest

variable {a b : Text}

theorem exists_names_cons (h : beginsName a = true) : ∃ name more, names a = name :: more := by
  induction a with
  | nil => contradiction
  | cons c rest ih =>
      have hc : CharClass.isName c = true := h
      by_cases hrest : beginsName rest = true
      · obtain ⟨name, more, hnames⟩ := ih hrest
        exact ⟨c :: name, more, by simp [names, hc, hrest, hnames]⟩
      · exact ⟨[c], names rest, by simp [names, hc, hrest]⟩

theorem beginsName_append (ha : a ≠ []) (b : Text) : beginsName (a ++ b) = beginsName a := by
  cases a with
  | nil => contradiction
  | cons c rest => rfl

theorem endsName_singleton (c : Char) : endsName [c] = CharClass.isName c := rfl

theorem endsName_cons_cons (c d : Char) (t : Text) : endsName (c :: d :: t) = endsName (d :: t) :=
  endsName_append (a := [c]) (List.cons_ne_nil d t)

theorem endsName_eq_false_iff :
    endsName a = false ↔ ∀ c ∈ a.getLast?, CharClass.isName c = false := by
  rcases List.eq_nil_or_concat a with rfl | ⟨front, c, rfl⟩
  · exact iff_of_true rfl (by simp)
  · rw [List.concat_eq_append, endsName_append (List.cons_ne_nil c []), endsName_singleton,
      List.getLast?_concat]
    simp

theorem names_cons_of_not_isName {c : Char} (hc : CharClass.isName c = false) (t : Text) :
    names (c :: t) = names t := by
  simp [names, hc]

/-- Of what follows a text only the names count, and whether it begins with one. -/
theorem names_append_congr {b' : Text} (hbegins : beginsName b = beginsName b')
    (hnames : names b = names b') (a : Text) : names (a ++ b) = names (a ++ b') := by
  induction a with
  | nil => exact hnames
  | cons c rest ih =>
      have hrest : beginsName (rest ++ b) = beginsName (rest ++ b') := by
        cases rest with
        | nil => exact hbegins
        | cons d rest => rfl
      rw [List.cons_append, List.cons_append, names, names, hrest, ih]

/-- Where no name goes on across a seam, the names are those of both sides. -/
theorem names_append (h : (endsName a && beginsName b) = false) :
    names (a ++ b) = names a ++ names b := by
  induction a with
  | nil => rfl
  | cons c rest ih =>
      rw [List.cons_append, names, names]
      cases rest with
      | nil =>
          rw [endsName_singleton] at h
          rw [List.nil_append]
          by_cases hc : CharClass.isName c = true
          · have hb : beginsName b = false := by simpa [hc] using h
            rw [if_pos hc, if_pos hc, hb]
            rfl
          · rw [if_neg hc, if_neg hc]
            rfl
      | cons d rest =>
          rw [endsName_cons_cons] at h
          rw [ih h, beginsName_append (List.cons_ne_nil d rest)]
          by_cases hd : beginsName (d :: rest) = true
          · obtain ⟨name, more, hnames⟩ := exists_names_cons hd
            simp only [hd, hnames, ↓reduceIte, List.cons_append, List.modifyHead_cons]
            split <;> rfl
          · simp only [hd, Bool.false_eq_true, ↓reduceIte]
            split <;> rfl

/-- A name that goes on across a seam is one name. -/
theorem length_names_append (a b : Text) :
    (names (a ++ b)).length + (if endsName a && beginsName b then 1 else 0) =
      (names a).length + (names b).length := by
  induction a with
  | nil => exact (Nat.zero_add _).symm
  | cons c rest ih =>
      by_cases hseam : (endsName (c :: rest) && beginsName b) = true
      · rw [if_pos hseam, List.cons_append, names, names]
        rw [Bool.and_eq_true] at hseam
        obtain ⟨hends, hbegins⟩ := hseam
        cases rest with
        | nil =>
            have hc : CharClass.isName c = true := hends
            rw [List.nil_append, if_pos hc, if_pos hc, if_pos hbegins, List.length_modifyHead]
            exact Nat.add_comm _ 1
        | cons d rest =>
            rw [endsName_cons_cons] at hends
            rw [hends, hbegins, Bool.and_self, if_pos rfl] at ih
            rw [beginsName_append (List.cons_ne_nil d rest)]
            split_ifs
            · rwa [List.length_modifyHead, List.length_modifyHead]
            · rw [List.length_cons, List.length_cons]
              omega
            · exact ih
      · rw [Bool.not_eq_true] at hseam
        rw [names_append hseam, hseam, List.length_append]
        rfl

theorem beginsName_of_forall (ha : a ≠ []) (h : ∀ c ∈ a, CharClass.isName c = true) :
    beginsName a = true := by
  cases a with
  | nil => contradiction
  | cons c rest => exact h c List.mem_cons_self

theorem names_of_forall (ha : a ≠ []) (h : ∀ c ∈ a, CharClass.isName c = true) :
    names a = [a] := by
  induction a with
  | nil => contradiction
  | cons c rest ih =>
      rw [names, if_pos (h c List.mem_cons_self)]
      cases rest with
      | nil => rfl
      | cons d rest =>
          have hrest := fun e he => h e (List.mem_cons_of_mem c he)
          rw [if_pos (beginsName_of_forall (List.cons_ne_nil d rest) hrest),
            ih (List.cons_ne_nil d rest) hrest]
          rfl

theorem names_ne_nil (h : endsName a = true) : names a ≠ [] := by
  rcases List.eq_nil_or_concat a with rfl | ⟨front, c, rfl⟩
  · exact absurd h (by decide)
  · induction front with
    | nil =>
        have hc : CharClass.isName c = true := h
        simp [names, hc, beginsName]
    | cons d front ih =>
        have hrest : names (front ++ [c]) ≠ [] := by
          rw [List.concat_eq_append] at ih
          refine ih ?_
          rw [List.concat_eq_append, List.cons_append] at h
          cases front with
          | nil => rwa [List.nil_append, endsName_cons_cons] at h
          | cons e front => rwa [List.cons_append, endsName_cons_cons] at h
        rw [List.concat_eq_append, List.cons_append, names]
        split
        · split
          · cases hnames : names (front ++ [c]) with
            | nil => contradiction
            | cons name more => simp
          · simp
        · exact hrest

/-- A name of a text is a stretch of name characters that does not go on before or behind. -/
theorem mem_names_iff {name t : Text} : name ∈ names t ↔
    ∃ u v, t = u ++ (name ++ v) ∧ name ≠ [] ∧ (∀ c ∈ name, CharClass.isName c = true) ∧
      endsName u = false ∧ beginsName v = false := by
  constructor
  · induction hlength : t.length using Nat.strong_induction_on generalizing t with
    | h n ih =>
        intro hname
        cases hfind : List.find? (fun c => !CharClass.isName c) t with
        | none =>
            have hall : ∀ c ∈ t, CharClass.isName c = true := by
              simpa using List.find?_eq_none.mp hfind
            by_cases hnil : t = []
            · rw [hnil] at hname
              contradiction
            · rw [names_of_forall hnil hall, List.mem_singleton] at hname
              rw [hname]
              exact ⟨[], [], by simp, hnil, hall, rfl, rfl⟩
        | some c =>
            obtain ⟨hc, front, back, rfl, hfront⟩ := List.find?_eq_some_iff_append.mp hfind
            replace hc : CharClass.isName c = false := by simpa using hc
            replace hfront : ∀ d ∈ front, CharClass.isName d = true := by simpa using hfront
            have hbegins : beginsName (c :: back) = false := hc
            rw [names_append (by rw [hbegins, Bool.and_false]), names_cons_of_not_isName hc,
              List.mem_append] at hname
            rcases hname with hhere | hbehind
            · have hne : front ≠ [] := by
                rintro rfl
                exact List.not_mem_nil hhere
              rw [names_of_forall hne hfront, List.mem_singleton] at hhere
              rw [hhere]
              exact ⟨[], c :: back, rfl, hne, hfront, rfl, hbegins⟩
            · rw [List.length_append, List.length_cons] at hlength
              obtain ⟨u, v, rfl, hne, hall, hu, hv⟩ := ih _ (by omega) rfl hbehind
              refine ⟨front ++ c :: u, v, by simp, hne, hall, ?_, hv⟩
              rw [endsName_append (List.cons_ne_nil c u)]
              cases u with
              | nil => exact hc
              | cons d u => rwa [endsName_cons_cons]
  · rintro ⟨u, v, rfl, hne, hname, hu, hv⟩
    rw [names_append (by rw [hu, Bool.false_and]), names_append (by rw [hv, Bool.and_false]),
      names_of_forall hne hname]
    simp

theorem names_blank_around (a : Text) :
    names (' ' :: a ++ [' ']) = names a ∧ beginsName (' ' :: a ++ [' ']) = false ∧
      endsName (' ' :: a ++ [' ']) = false := by
  have hblank : CharClass.isName ' ' = false := by decide +kernel
  have hbehind : beginsName [' '] = false := hblank
  refine ⟨?_, hblank, ?_⟩
  · rw [List.cons_append, names_cons_of_not_isName hblank, names_append (by simp [hbehind]),
      names_cons_of_not_isName hblank, names, List.append_nil]
  · rw [endsName_append (List.cons_ne_nil _ _)]
    exact hblank

end Text

end SqlInsight
