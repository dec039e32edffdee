/-!
# Distinct texts

What is left of a list of texts when repeats are taken out. The texts that remain stand in the order
in which the list first has them (`pairwise_idxOf_eraseDups`), so none is left twice.
-/

namespace Formulary

theorem filter_ne_of_notMem {texts : List String} {text : String} (h : text ∉ texts) :
    texts.filter (· ≠ text) = texts := by
  rw [List.filter_eq_self]
  intro other ho
  rw [decide_eq_true_eq]
  rintro rfl
  exact h ho

theorem eraseDups_cons_ne (text : String) (texts : List String) :
    (text :: texts).eraseDups = text :: (texts.filter (· ≠ text)).eraseDups := by
  rw [List.eraseDups_cons]
  congr 3
  funext other
  simp [Bool.beq_eq_decide_eq]

theorem eraseDups_filter (p : String → Bool) (texts : List String) :
    (texts.filter p).eraseDups = texts.eraseDups.filter p := by
  rcases texts with _ | ⟨text, texts⟩
  · rfl
  -- `eraseDups` goes on with the texts other than the first, so the induction is on these
  have ih := eraseDups_filter p (texts.filter (· ≠ text))
  rw [eraseDups_cons_ne]
  by_cases hp : p text
  · rw [List.filter_cons_of_pos hp, List.filter_cons_of_pos hp, eraseDups_cons_ne, ← ih,
      List.filter_filter, List.filter_filter]
    simp only [Bool.and_comm]
  · rw [List.filter_cons_of_neg hp, List.filter_cons_of_neg hp, ← ih, List.filter_filter]
    congr 1
    refine List.filter_congr fun other _ => ?_
    by_cases ho : other = text
    · simp [ho, hp]
    · simp [ho]
termination_by texts.length
decreasing_by exact Nat.lt_succ_of_le (List.length_filter_le _ _)

theorem pairwise_idxOf_eraseDups (texts : List String) :
    texts.eraseDups.Pairwise fun first second => texts.idxOf first < texts.idxOf second := by
  induction texts with
  | nil => exact .nil
  | cons text texts ih =>
    have hlater (other : String) (ho : other ∈ texts.eraseDups.filter (· ≠ text)) :
        (text :: texts).idxOf other = texts.idxOf other + 1 := by
      have hne : other ≠ text := of_decide_eq_true (List.mem_filter.mp ho).2
      rw [List.idxOf_cons, beq_false_of_ne hne.symm, cond_false]
    rw [eraseDups_cons_ne, eraseDups_filter, List.pairwise_cons]
    constructor
    · intro other ho
      rw [hlater other ho, List.idxOf_cons_self]
      exact Nat.succ_pos _
    · refine (ih.filter _).imp_of_mem fun {first second} hfirst hsecond hlt => ?_
      rw [hlater first hfirst, hlater second hsecond]
      exact Nat.succ_lt_succ hlt

/-- What is looked for is found first where it first occurs. -/
theorem find?_eraseDups (p : String → Bool) (texts : List String) :
    texts.eraseDups.find? p = texts.find? p := by
  induction texts with
  | nil => rfl
  | cons text texts ih =>
    rw [eraseDups_cons_ne, eraseDups_filter]
    by_cases hp : p text
    · rw [List.find?_cons_of_pos hp, List.find?_cons_of_pos hp]
    · rw [List.find?_cons_of_neg hp, List.find?_cons_of_neg hp, List.find?_filter, ← ih]
      -- the repeats of `text` that are gone were not looked for
      congr 1
      funext other
      by_cases ho : other = text
      · simp [ho, hp]
      · simp [ho]

theorem nodup_eraseDups (texts : List String) : texts.eraseDups.Nodup := by
  refine (pairwise_idxOf_eraseDups texts).imp fun hlt heq => ?_
  rw [heq] at hlt
  exact Nat.lt_irrefl _ hlt

end Formulary
