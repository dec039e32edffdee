import Formulary.Proofs.Expr.Yard

/-!
# Raising the limits

A parse within narrow limits goes as within wider ones, up to where a narrow limit is broken. A
computation is cut short (`Logged.CutShort`) if it ends with an error of its own before the other
one and has left no other records up to there. This holds of a step of the operator yard under two
limits (`step_cutShort`), is kept when the machine goes on (`CutShort.bind`), and so holds of its
run over a whole list (`run_cutShort`). The parser inherits it in `parse_of_wider_limits`.
-/

namespace Formulary

/-! ## Computations that are cut short -/

namespace Logged

variable {ε α β σ : Type} {stop : ε → Prop} {x y : Logged ε α}

/-- `x` is `y`, or it is a beginning of `y` that ends with an error for which `stop` holds. -/
def CutShort (stop : ε → Prop) (x y : Logged ε α) : Prop :=
  x = y ∨ (∃ e, stop e ∧ x.result = .error e) ∧ x.events <+: y.events

namespace CutShort

theorem refl (x : Logged ε α) : CutShort stop x x :=
  .inl rfl

theorem fail {e : ε} (h : stop e) (y : Logged ε α) : CutShort stop (.fail e) y :=
  .inr ⟨⟨e, h, rfl⟩, List.nil_prefix⟩

theorem events_prefix (h : CutShort stop x y) : x.events <+: y.events := by
  rcases h with rfl | ⟨-, h⟩
  · exact List.prefix_rfl
  · exact h

theorem bind {f g : α → Logged ε β} (h : CutShort stop x y)
    (hf : ∀ a, CutShort stop (f a) (g a)) : CutShort stop (x >>= f) (y >>= g) := by
  rcases h with rfl | ⟨⟨e, he, hx⟩, hevents⟩
  · cases hx : x.result with
    | error e => exact .inl (bind_congr_ok fun a ha => by rw [hx] at ha; cases ha)
    | ok a =>
      rcases hf a with heq | ⟨⟨e, he, hfa⟩, hevents⟩
      · refine .inl (bind_congr_ok fun a' ha' => ?_)
        rw [hx] at ha'
        cases ha'
        exact heq
      · refine .inr ⟨⟨e, he, by rw [result_bind_ok hx, hfa]⟩, ?_⟩
        rw [events_bind_ok hx, events_bind_ok hx]
        exact (List.prefix_append_right_inj _).mpr hevents
  · refine .inr ⟨⟨e, he, result_bind_error hx⟩, ?_⟩
    rw [events_bind_error hx]
    exact hevents.trans (events_prefix_bind y g)

theorem foldlM {f g : σ → α → Logged ε σ} (h : ∀ s a, CutShort stop (f s a) (g s a))
    (as : List α) (s : σ) : CutShort stop (as.foldlM f s) (as.foldlM g s) := by
  induction as generalizing s with
  | nil => exact refl _
  | cons a as ih =>
    rw [List.foldlM_cons, List.foldlM_cons]
    exact (h s a).bind ih

/-- What is done to the value at the end may be left out, if it keeps different values apart. -/
theorem of_map {f : α → β} (hf : ∀ a a', f a = f a' → a = a')
    (h : CutShort stop (f <$> x) (f <$> y)) : CutShort stop x y := by
  rcases x with ⟨events, result⟩
  rcases y with ⟨events', result'⟩
  rcases h with heq | ⟨⟨e, he, hresult⟩, hevents⟩
  · left
    have hevents := congrArg Logged.events heq
    have hresult := congrArg Logged.result heq
    simp only [events_map] at hevents
    simp only [result_map] at hresult
    rw [hevents]
    congr 1
    rcases result with e | a <;> rcases result' with e' | a'
    case error.error => exact congrArg Except.error (Except.error.inj hresult)
    case ok.ok => exact congrArg Except.ok (hf _ _ (Except.ok.inj hresult))
    all_goals cases hresult
  · simp only [events_map] at hevents
    simp only [result_map] at hresult
    rcases result with e' | a <;> cases hresult
    exact .inr ⟨⟨_, he, rfl⟩, hevents⟩

end CutShort

end Logged

/-! ## The machine under two limits -/

/-- The error says that one of the limits is broken. -/
def ParseError.IsLimit (limits : Limits) (e : ParseError) : Prop :=
  e = .nestingTooDeep limits.maxDepth ∨ e = .treeTooTall limits.maxHeight

namespace Yard

open Logged

variable {limits limits' : Limits}

section Steps

variable (hd : limits.maxDepth ≤ limits'.maxDepth) (hh : limits.maxHeight ≤ limits'.maxHeight)
include hh

theorem fold_cutShort (y : Yard) :
    CutShort (ParseError.IsLimit limits) (y.fold limits) (y.fold limits') := by
  unfold fold
  split
  case h_1 =>
    simp only
    split
    case isTrue => exact .fail (.inr rfl) _
    case isFalse hle =>
      rw [if_neg fun hlt => hle (Nat.lt_of_le_of_lt hh hlt)]
      exact .refl _
  case h_2 => exact .refl _

theorem reduce_cutShort (precedence : Nat) (y : Yard) :
    CutShort (ParseError.IsLimit limits) (y.reduce limits precedence)
      (y.reduce limits' precedence) :=
  .foldlM (fun y _ => fold_cutShort hh y) _ y

theorem finish_cutShort (y : Yard) :
    CutShort (ParseError.IsLimit limits) (y.finish limits) (y.finish limits') := by
  unfold finish
  cases y.phase with
  | value => exact .refl _
  | operator => exact (reduce_cutShort hh 0 y).bind fun _ => .refl _

include hd

theorem step_cutShort (y : Yard) (position : Nat) (t : Token) :
    CutShort (ParseError.IsLimit limits) (y.step limits position t)
      (y.step limits' position t) := by
  unfold step
  split
  case h_3 =>
    -- an opening bracket, which may be one too many for the narrow limits alone
    split
    case isTrue => exact .fail (.inl rfl) _
    case isFalse hlt =>
      rw [if_neg fun hle => hlt (Nat.le_trans hd hle)]
      exact .refl _
  case h_5 => exact (reduce_cutShort hh _ y).bind fun _ => .refl _
  case h_6 => exact (reduce_cutShort hh 0 y).bind fun _ => .refl _
  all_goals exact .refl _

theorem runFrom_cutShort (tokens : List Token) (y : Yard) (position : Nat) :
    CutShort (ParseError.IsLimit limits) (y.runFrom limits position tokens)
      (y.runFrom limits' position tokens) := by
  induction tokens generalizing y position with
  | nil => exact finish_cutShort hh y
  | cons t ts ih => exact (step_cutShort hd hh y position t).bind fun y' => ih y' (position + 1)

theorem run_cutShort (tokens : List Token) :
    CutShort (ParseError.IsLimit limits) (run limits tokens) (run limits' tokens) := by
  unfold run
  split
  · exact .refl _
  · exact runFrom_cutShort hd hh tokens start 0

end Steps

end Yard

/-! ## The parser under two limits -/

namespace Expr

variable {limits limits' : Limits}

theorem parse_cutShort (hd : limits.maxDepth ≤ limits'.maxDepth)
    (hh : limits.maxHeight ≤ limits'.maxHeight) (tokens : List Token) :
    Logged.CutShort (ParseError.IsLimit limits) (parse limits tokens) (parse limits' tokens) := by
  have hcut := Yard.run_cutShort hd hh tokens
  rw [Yard.run_eq_map, Yard.run_eq_map] at hcut
  rw [parse_eq_readWhole, parse_eq_readWhole]
  exact (Logged.CutShort.refl _).bind fun _ =>
    (hcut.of_map fun _ _ => Yard.push_inj).bind fun _ => .refl _

/-- Within wider limits a parse ends in the same way, if it does not end with the error of a limit.
It leaves all of the records that it leaves within the narrow limits. -/
theorem parse_of_wider_limits (hd : limits.maxDepth ≤ limits'.maxDepth)
    (hh : limits.maxHeight ≤ limits'.maxHeight) (tokens : List Token) :
    ((parse limits tokens).result = (parse limits' tokens).result ∨
      (parse limits tokens).result = .error (.nestingTooDeep limits.maxDepth) ∨
      (parse limits tokens).result = .error (.treeTooTall limits.maxHeight)) ∧
    (∀ t, (parse limits tokens).result = .ok t → (parse limits' tokens).result = .ok t) ∧
    (∀ e, ¬ e.IsLimit limits → (parse limits tokens).result = .error e →
      (parse limits' tokens).result = .error e) ∧
    (parse limits tokens).events <+: (parse limits' tokens).events := by
  have hcut := parse_cutShort hd hh tokens
  refine ⟨?_, fun t ht => ?_, fun e he hresult => ?_, hcut.events_prefix⟩
  · rcases hcut with heq | ⟨⟨e, rfl | rfl, hresult⟩, -⟩
    · exact .inl (congrArg Logged.result heq)
    · exact .inr (.inl hresult)
    · exact .inr (.inr hresult)
  · rcases hcut with heq | ⟨⟨e, -, hresult⟩, -⟩
    · rw [← heq, ht]
    · rw [ht] at hresult
      cases hresult
  · rcases hcut with heq | ⟨⟨e', he', hresult'⟩, -⟩
    · rw [← heq, hresult]
    · rw [hresult] at hresult'
      cases hresult'
      exact absurd he' he

/-- A sum, and a sum with a closing bracket too many, within the height of one operation. -/
theorem parse_of_wider_limits_sum :
    let narrow : Limits := ⟨0, 1⟩
    let wide : Limits := {}
    let sum : List Token := [.variable "x", .operator .add, .number 1]
    narrow.maxDepth ≤ wide.maxDepth ∧ narrow.maxHeight ≤ wide.maxHeight ∧
    (parse narrow sum).result = .ok (.binary (.variable "x") .add (.number 1)) ∧
    (parse wide sum).result = .ok (.binary (.variable "x") .add (.number 1)) ∧
    (parse narrow (sum ++ [.closeBracket])).result = .error (.unmatchedBracket 3) ∧
    (parse wide (sum ++ [.closeBracket])).result = .error (.unmatchedBracket 3) := by
  intro narrow wide sum
  have hd : narrow.maxDepth ≤ wide.maxDepth := by decide
  have hh : narrow.maxHeight ≤ wide.maxHeight := by decide
  have hok : (parse narrow sum).result = .ok (.binary (.variable "x") .add (.number 1)) := by cbv
  have herror : (parse narrow (sum ++ [.closeBracket])).result = .error (.unmatchedBracket 3) := by
    cbv
  have hlimit : ¬ (ParseError.unmatchedBracket 3).IsLimit narrow := by
    rintro (h | h) <;> cases h
  obtain ⟨-, htree, -⟩ := parse_of_wider_limits hd hh sum
  obtain ⟨-, -, hsame, -⟩ := parse_of_wider_limits hd hh (sum ++ [.closeBracket])
  exact ⟨hd, hh, hok, htree _ hok, herror, hsame _ hlimit herror⟩

end Expr

end Formulary
