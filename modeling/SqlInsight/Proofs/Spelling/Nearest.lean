/-
The nearest of some candidates. The best candidate so far is the first of the nearest among those
that were looked at, and there is none exactly as long as all of them are too far from the name. So
of equally near candidates the first is found, a wider search finds nothing else, and more
candidates matter only if one of them is nearer than all before it.
-/
import SqlInsight.Proofs.Spelling.Distance

namespace SqlInsight.Spelling

/-- How far a candidate is from a name if case does not count. -/
def gap (name candidate : Text) : Nat :=
  editDistance name.lower candidate.lower

/-- The first of the candidates that are nearest to a name: those before it are farther from the
name, and none behind it is nearer. -/
def IsFirstNearest (name : Text) (candidates : List Text) (found : Text) : Prop :=
  ∃ before after, candidates = before ++ found :: after ∧
    (∀ c ∈ before, gap name found < gap name c) ∧ ∀ c ∈ after, gap name found ≤ gap name c

/-- What the best candidate so far says about those that were looked at. -/
inductive Leads (name : Text) (most : Nat) (seen : List Text) : Option (Nat × Text) → Prop
  | none (far : ∀ c ∈ seen, most < gap name c) : Leads name most seen none
  | some {found : Text} (near : gap name found ≤ most)
      (first : IsFirstNearest name seen found) : Leads name most seen (some (gap name found, found))

variable {name found found' : Text} {candidates others seen : List Text} {most : Nat}

namespace IsFirstNearest

theorem mem (h : IsFirstNearest name candidates found) : found ∈ candidates := by
  obtain ⟨before, after, rfl, -⟩ := h
  exact List.mem_append_right before List.mem_cons_self

theorem le (h : IsFirstNearest name candidates found) :
    ∀ c ∈ candidates, gap name found ≤ gap name c := by
  obtain ⟨before, after, rfl, hbefore, hafter⟩ := h
  intro c hc
  rcases List.mem_append.mp hc with hc | hc
  · exact Nat.le_of_lt (hbefore c hc)
  · rcases List.mem_cons.mp hc with rfl | hc
    · exact Nat.le_refl _
    · exact hafter c hc

/-- A candidate that is nearer than all between it and an earlier one is the earlier one, unless
that is farther. -/
theorem eq_of_nearer {between rest rest' : List Text}
    (hsplit : found :: rest = between ++ found' :: rest')
    (hbetween : ∀ c ∈ between, gap name found' < gap name c)
    (hle : gap name found ≤ gap name found') : found = found' := by
  cases between with
  | nil => exact (List.cons.inj hsplit).1
  | cons c more =>
      obtain ⟨rfl, -⟩ := List.cons.inj hsplit
      exact absurd hle (Nat.not_le.mpr (hbetween found List.mem_cons_self))

theorem unique (h : IsFirstNearest name candidates found)
    (h' : IsFirstNearest name candidates found') : found = found' := by
  have hle := h.le found' h'.mem
  have hle' := h'.le found h.mem
  obtain ⟨before, after, rfl, hbefore, -⟩ := h
  obtain ⟨before', after', hsplit, hbefore', -⟩ := h'
  rcases List.append_eq_append_iff.mp hsplit with ⟨between, rfl, hrest⟩ | ⟨between, rfl, hrest⟩
  · exact eq_of_nearer hrest (fun c hc => hbefore' c (List.mem_append_right before hc)) hle
  · exact (eq_of_nearer hrest (fun c hc => hbefore c (List.mem_append_right before' hc)) hle').symm

/-- A candidate that is no nearer does not come first. -/
theorem concat (h : IsFirstNearest name seen found) {c : Text} (hc : gap name found ≤ gap name c) :
    IsFirstNearest name (seen ++ [c]) found := by
  obtain ⟨before, after, rfl, hbefore, hafter⟩ := h
  refine ⟨before, after ++ [c], by rw [List.append_assoc, List.cons_append], hbefore, ?_⟩
  exact List.forall_mem_append.mpr ⟨hafter, List.forall_mem_singleton.mpr hc⟩

/-- A candidate that is nearer than all before it comes first. -/
theorem of_lt {c : Text} (hc : ∀ d ∈ seen, gap name c < gap name d) :
    IsFirstNearest name (seen ++ [c]) c :=
  ⟨seen, [], rfl, hc, by simp⟩

end IsFirstNearest

/-- One more candidate is passed over if it is too far, and else if it is no nearer than the best
one so far. -/
theorem Leads.better {best : Option (Nat × Text)} (h : Leads name most seen best) (c : Text) :
    Leads name most (seen ++ [c]) (better name.lower most best c) := by
  have hgap : distance name.lower c.lower = gap name c := distance_eq_editDistance _ _
  simp only [Spelling.better, hgap]
  by_cases hfar : most < gap name c
  · rw [if_pos hfar]
    cases h with
    | none far =>
        exact .none (List.forall_mem_append.mpr ⟨far, List.forall_mem_singleton.mpr hfar⟩)
    | some near first =>
        exact .some near (first.concat (Nat.le_of_lt (Nat.lt_of_le_of_lt near hfar)))
  · rw [if_neg hfar]
    have hnear : gap name c ≤ most := Nat.le_of_not_lt hfar
    cases h with
    | none far => exact .some hnear (.of_lt fun d hd => Nat.lt_of_le_of_lt hnear (far d hd))
    | @some found near first =>
        by_cases hlt : gap name c < gap name found
        · simp only [if_pos hlt]
          exact .some hnear (.of_lt fun d hd => Nat.lt_of_lt_of_le hlt (first.le d hd))
        · simp only [if_neg hlt]
          exact .some near (first.concat (Nat.le_of_not_lt hlt))

theorem Leads.foldl {best : Option (Nat × Text)} (h : Leads name most seen best)
    (candidates : List Text) :
    Leads name most (seen ++ candidates)
      (candidates.foldl (Spelling.better name.lower most) best) := by
  induction candidates generalizing seen best with
  | nil =>
      rw [List.append_nil]
      exact h
  | cons c rest ih =>
      rw [List.append_cons]
      exact ih (h.better c)

/-- When all candidates were looked at, the best one is found. -/
theorem exists_leads (name : Text) (candidates : List Text) (most : Nat) :
    ∃ best, Leads name most candidates best ∧ nearest? name candidates most = best.map Prod.snd :=
  ⟨_, (Leads.none (by simp) : Leads name most [] none).foldl candidates, rfl⟩

/-- Nothing is found exactly if all candidates are too far from the name. -/
theorem nearest?_eq_none_iff :
    nearest? name candidates most = none ↔ ∀ c ∈ candidates, most < gap name c := by
  obtain ⟨best, hleads, hnearest⟩ := exists_leads name candidates most
  rw [hnearest]
  cases hleads with
  | none far => exact iff_of_true rfl far
  | @some found near first =>
      refine iff_of_false (Option.some_ne_none found) fun hfar => ?_
      exact absurd near (Nat.not_le.mpr (hfar found first.mem))

/-- What is found is the first of the nearest candidates, if it is near enough. -/
theorem nearest?_eq_some_iff :
    nearest? name candidates most = some found ↔
      gap name found ≤ most ∧ IsFirstNearest name candidates found := by
  obtain ⟨best, hleads, hnearest⟩ := exists_leads name candidates most
  rw [hnearest]
  cases hleads with
  | none far =>
      refine iff_of_false nofun fun ⟨hnear, hfirst⟩ => ?_
      exact absurd hnear (Nat.not_le.mpr (far found hfirst.mem))
  | @some best near first =>
      constructor
      · intro heq
        obtain rfl : best = found := Option.some.inj heq
        exact ⟨near, first⟩
      · rintro ⟨-, hfirst⟩
        exact congrArg some (first.unique hfirst)

/-- What was found is found in a wider search, too. -/
theorem nearest?_of_le {wider : Nat} (h : nearest? name candidates most = some found)
    (hle : most ≤ wider) : nearest? name candidates wider = some found := by
  obtain ⟨hnear, hfirst⟩ := nearest?_eq_some_iff.mp h
  exact nearest?_eq_some_iff.mpr ⟨Nat.le_trans hnear hle, hfirst⟩

/-- More candidates change what is found exactly if one of them is near enough, and nearer than all
before it. -/
theorem nearest?_append_ne_iff :
    nearest? name (candidates ++ others) most ≠ nearest? name candidates most ↔
      ∃ before c after, others = before ++ c :: after ∧ gap name c ≤ most ∧
        ∀ d ∈ candidates ++ before, gap name c < gap name d := by
  constructor
  · intro hne
    cases hall : nearest? name (candidates ++ others) most with
    | none =>
        have hfar := nearest?_eq_none_iff.mp hall
        refine absurd ?_ hne
        rw [hall, nearest?_eq_none_iff.mpr fun c hc => hfar c (List.mem_append_left others hc)]
    | some found =>
        obtain ⟨hnear, before, after, hsplit, hbefore, hafter⟩ := nearest?_eq_some_iff.mp hall
        rcases List.append_eq_append_iff.mp hsplit with ⟨more, rfl, rfl⟩ | ⟨more, rfl, hrest⟩
        · exact ⟨more, found, after, rfl, hnear, hbefore⟩
        · cases more with
          | nil => exact ⟨[], found, after, hrest.symm, hnear, by simpa using hbefore⟩
          | cons c more =>
              obtain ⟨rfl, rfl⟩ := List.cons.inj hrest
              refine absurd ?_ hne
              rw [hall, nearest?_eq_some_iff.mpr ⟨hnear, before, more, rfl, hbefore, ?_⟩]
              exact fun c hc => hafter c (List.mem_append_left others hc)
  · rintro ⟨before, c, after, rfl, hnear, hlt⟩ heq
    cases hall : nearest? name (candidates ++ (before ++ c :: after)) most with
    | none =>
        have hfar := nearest?_eq_none_iff.mp hall c (by simp)
        exact absurd hnear (Nat.not_le.mpr hfar)
    | some found =>
        have hle := (nearest?_eq_some_iff.mp hall).2.le c (by simp)
        have hmem := (nearest?_eq_some_iff.mp (heq.symm.trans hall)).2.mem
        exact absurd hle (Nat.not_le.mpr (hlt found (List.mem_append_left before hmem)))

/-- The search finds nothing exactly if all candidates are too far, and else the first of the
nearest ones; what is found does not depend on how far was searched, and more candidates change it
only if one of them is nearer than all before it. -/
theorem nearest?_exact (name : Text) (candidates : List Text) (most : Nat) :
    (nearest? name candidates most = none ↔ ∀ c ∈ candidates, most < gap name c) ∧
      (∀ found, nearest? name candidates most = some found ↔
        gap name found ≤ most ∧ IsFirstNearest name candidates found) ∧
      (∀ found wider, nearest? name candidates most = some found → most ≤ wider →
        nearest? name candidates wider = some found) ∧
      ∀ others, nearest? name (candidates ++ others) most ≠ nearest? name candidates most ↔
        ∃ before c after, others = before ++ c :: after ∧ gap name c ≤ most ∧
          ∀ d ∈ candidates ++ before, gap name c < gap name d :=
  ⟨nearest?_eq_none_iff, fun _ => nearest?_eq_some_iff, fun _ _ => nearest?_of_le,
    fun _ => nearest?_append_ne_iff⟩

/-- Of equally near candidates the first is found, until a nearer one comes. -/
example :
    nearest? "ab".toList ["ax".toList, "ay".toList] 2 = some "ax".toList ∧
      nearest? "ab".toList ["ax".toList, "ay".toList, "AB".toList] 2 = some "AB".toList := by
  decide +kernel

end SqlInsight.Spelling
