import TermRules.Program
import TermRules.Proofs.Number.Text
import TermRules.Proofs.Rule.Checking

/-!
The demand for at most so many decimal places. What it counts are the places of the number as it is
written: the shortest decimal of a double, and a whole number as it is. A power of ten with so many
zeros makes the number whole just if the number passes. It does not matter how the text lays the
number out, and a value that holds the text itself has as many places.
-/

namespace TermRules

private theorem Value.places_ofNumber {x : Number} {n : ℕ} (h : x.places? = some n) :
    (Value.ofNumber x).places = .ok n := by
  cases x <;> exact congrArg Value.places.ofCount h

/-- A number and its text have the same places. -/
theorem Value.places_display {x : Number} (h : x.IsWritable) :
    (Value.text (Value.ofNumber x).display).places = (Value.ofNumber x).places := by
  rw [Value.places, Number.textPlaces?_display h]
  cases x <;> rfl

namespace Directive

variable {v : Value} {path : String}

/-- A value with a count of places passes, or is rejected for them. -/
theorem check_precision_eq [Library] {n : ℕ} (h : v.places = .ok n) (places : ℕ) :
    (Directive.mk .precision (.int places)).check v path =
      if n ≤ places then .ok () else .error (.rejected (.places (.int places)) path v) := by
  obtain ⟨accepted, hcheck⟩ : ∃ accepted, (Directive.mk .precision (.int places)).check v path =
      demand accepted (.places (.int places)) path v := by
    have hholds := Relation.atMost.holds_ofNumber (v := .int n) rfl (.int places)
    simp only [Value.ofNumber] at hholds
    simp only [check, checkPlaces, h]
    change ∃ accepted,
      ((liftM (Relation.atMost.holds (.int n) (.int places)) : Except Failure Bool) >>=
      fun accepted => demand accepted (.places (.int places)) path v) = _
    rw [hholds]
    exact ⟨_, rfl⟩
  have haccepted : accepted = true ↔ n ≤ places := by
    rw [← demand_eq_ok_iff, ← hcheck, check_precision_iff, h]
    simp
  rw [hcheck, demand, if_congr haccepted rfl rfl]

/-- A number passes just if a power of ten with as many zeros as places are demanded makes it whole,
and it is rejected otherwise. The number is taken as its text spells it. -/
theorem check_precision_iff_isWhole [Library] {x : Number} (h : x.IsWritable)
    (finite : x.IsFinite) :
    (∃! q, x.IsWrittenAs q) ∧
      ∀ q, x.IsWrittenAs q → ∀ (places : ℕ) (path : String),
        ((Directive.mk .precision (.int places)).check (.ofNumber x) path = .ok () ↔
          IsWhole (q * 10 ^ places)) ∧
        ((Directive.mk .precision (.int places)).check (.ofNumber x) path =
            .error (.rejected (.places (.int places)) path (.ofNumber x)) ↔
            ¬ IsWhole (q * 10 ^ places)) := by
  refine ⟨Number.existsUnique_isWrittenAs h finite, fun q hq places path => ?_⟩
  obtain ⟨n, hn⟩ := h.places?
  rw [check_precision_eq (Value.places_ofNumber hn), ← Number.places?_le_iff h finite hq hn]
  split <;> simp_all

section Program

open Program

/-- The double nearest to -0.00000015 is written -1.5e-07 and has eight places. -/
theorem check_precision_scientific :
    ∃ x : Number, x = .double (.round (-15 / 10 ^ 8)) ∧ x.IsWritable ∧ x.IsFinite ∧
    x.IsWrittenAs (-15 / 10 ^ 8) ∧
      (Directive.mk .precision (.int 8)).check (.ofNumber x) "" = .ok () ∧
      (Directive.mk .precision (.int 7)).check (.ofNumber x) "" =
        .error (.rejected (.places (.int 7)) "" (.ofNumber x)) := by
  have writable : (Number.double (.round (-15 / 10 ^ 8))).IsWritable := Double.onGrid_round _
  have finite : (Number.double (.round (-15 / 10 ^ 8))).IsFinite :=
    ⟨-2833419889721787 / 18889465931478580854784, by decide +kernel⟩
  obtain ⟨⟨q, hq, -⟩, hcheck⟩ := check_precision_iff_isWhole writable finite
  have heq : q = -15 / 10 ^ 8 := by
    obtain ⟨negative, d, hwritten, rfl⟩ := hq
    obtain ⟨hnegative, hd⟩ := hwritten.read
    obtain rfl : true = negative := Eq.trans (by decide +kernel) hnegative
    obtain rfl : ⟨15, -8⟩ = d := Option.some.inj (Eq.trans (by decide +kernel) hd)
    decide +kernel
  subst heq
  refine ⟨_, rfl, writable, finite, hq, (hcheck _ hq 8 "").1.mpr ⟨-15, by norm_num⟩,
    (hcheck _ hq 7 "").2.mpr ?_⟩
  rintro ⟨n, hn⟩
  have hdouble : (-3 : ℤ) = 2 * n := by
    have : (-3 : ℚ) = 2 * n := by
      rw [← hn]
      norm_num
    exact_mod_cast this
  omega

end Program

end Directive

end TermRules
