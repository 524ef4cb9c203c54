import Mathlib.Data.List.Basic
import TermRules.Pattern.Matching

/-!
What rows of character classes match. A greedy repetition of a class takes what it can and gives
back one character after another until the rest of the pattern matches, so it succeeds exactly if
some run of characters of the class, long enough, stands in front of a match of the rest.
-/

namespace TermRules.Pattern

namespace Attempt

variable {p : Char → Bool} {k : Continuation} {low rounds : Nat} {a : Attempt} {c : Char}
  {cs taken rest : List Char}

/-- The attempt behind the characters taken, with `rest` ahead. -/
def past (a : Attempt) (taken rest : List Char) : Attempt :=
  { a with place := ⟨a.place.index + taken.length, taken.reverse ++ a.place.behind, rest⟩ }

private theorem past_nil (h : a.place.ahead = rest) : a.past [] rest = a := by
  subst h
  rfl

private theorem past_past (a : Attempt) (c : Char) (cs taken rest : List Char) :
    (a.past [c] cs).past taken rest = a.past (c :: taken) rest := by
  simp [past, Nat.add_assoc, Nat.add_comm 1]

private theorem takeChar_nil (h : a.place.ahead = []) : a.takeChar p = none := by
  simp only [takeChar, h]

private theorem takeChar_cons (h : a.place.ahead = c :: cs) :
    a.takeChar p = if p c then some (a.past [c] cs) else none := by
  simp only [takeChar, h]
  rfl

/-- Characters of a class can be taken, so many that with `rounds` before there are `low`, such that
the attempt can be completed behind them. -/
def Takes (p : Char → Bool) (low rounds : Nat) (k : Continuation) (a : Attempt) : Prop :=
  ∃ taken rest, a.place.ahead = taken ++ rest ∧ (∀ c ∈ taken, p c = true) ∧
    low ≤ rounds + taken.length ∧ (k (a.past taken rest)).isSome = true

private theorem takes_nil (h : a.place.ahead = []) :
    a.Takes p low rounds k ↔ low ≤ rounds ∧ (k a).isSome = true := by
  constructor
  · rintro ⟨taken, rest, hsplit, -, hlow, hk⟩
    obtain ⟨rfl, rfl⟩ := List.append_eq_nil_iff.mp (hsplit.symm.trans h)
    rw [past_nil h] at hk
    exact ⟨hlow, hk⟩
  · rintro ⟨hlow, hk⟩
    exact ⟨[], a.place.ahead, rfl, by simp, hlow, hk⟩

/-- At a character the attempt is completed at once or goes on behind it. -/
theorem takes_cons (h : a.place.ahead = c :: cs) : a.Takes p low rounds k ↔
    low ≤ rounds ∧ (k a).isSome = true ∨
      p c = true ∧ (a.past [c] cs).Takes p low (rounds + 1) k := by
  constructor
  · rintro ⟨taken, rest, hsplit, hall, hlow, hk⟩
    rw [h] at hsplit
    cases taken with
    | nil =>
        rw [List.nil_append] at hsplit
        subst hsplit
        rw [past_nil h] at hk
        exact .inl ⟨hlow, hk⟩
    | cons d taken =>
        obtain ⟨rfl, rfl⟩ := List.cons.inj hsplit
        obtain ⟨hd, htaken⟩ := List.forall_mem_cons.mp hall
        rw [List.length_cons] at hlow
        refine .inr ⟨hd, taken, rest, rfl, htaken, by omega, ?_⟩
        rwa [past_past]
  · rintro (⟨hlow, hk⟩ | ⟨hc, taken, rest, hsplit, hall, hlow, hk⟩)
    · exact ⟨[], a.place.ahead, rfl, by simp, hlow, hk⟩
    · rw [past_past] at hk
      have hcs : cs = taken ++ rest := hsplit
      refine ⟨c :: taken, rest, by rw [h, hcs, List.cons_append],
        List.forall_mem_cons.mpr ⟨hc, hall⟩, ?_, hk⟩
      rw [List.length_cons]
      omega

end Attempt

/-- A step that takes a character of a class. -/
def Step.one (p : Char → Bool) : Step := fun a k =>
  (a.takeChar p).bind k

/-- The rounds suffice: each takes a character, and an optional round never begins where the last
one did. -/
theorem Step.greedy_one_iff {p : Char → Bool} {low : Nat} {k : Continuation} {fuel rounds : Nat}
    {last : Option Nat} {a : Attempt} (hfuel : a.place.ahead.length < fuel)
    (hlast : ∀ i, last = some i → i < a.place.index) :
    (Step.greedy (.one p) low none k fuel rounds last a).isSome = true ↔
    a.Takes p low rounds k := by
  induction fuel generalizing rounds last a with
  | zero => omega
  | succ fuel ih =>
      have hnew : (last != some a.place.index) = true := by
        cases last with
        | none => rfl
        | some i =>
            have hlt := hlast i rfl
            simp only [bne_iff_ne, ne_eq, Option.some.injEq]
            omega
      simp only [Step.greedy, hnew, Option.all_none, Bool.and_true, if_true, Step.one]
      cases hahead : a.place.ahead with
      | nil =>
          rw [Attempt.takes_nil hahead]
          simp only [Attempt.takeChar_nil hahead, Option.bind_none]
          by_cases hlow : rounds < low
          · simp [hlow, Nat.not_le.mpr hlow]
          · simp [hlow, Nat.not_lt.mp hlow]
      | cons c cs =>
          rw [Attempt.takes_cons hahead]
          simp only [Attempt.takeChar_cons hahead]
          have hnext : (a.past [c] cs).place.ahead.length < fuel := by
            rw [hahead, List.length_cons] at hfuel
            exact Nat.lt_of_succ_lt_succ hfuel
          have hrest (next : Option Nat) (hnext' : ∀ i, next = some i → i < a.place.index + 1) :
              (Step.greedy (.one p) low none k fuel (rounds + 1) next
                (a.past [c] cs)).isSome = true ↔
                  (a.past [c] cs).Takes p low (rounds + 1) k :=
            ih hnext hnext'
          cases hc : p c with
          | false =>
              by_cases hlow : rounds < low
              · simp [hlow, Nat.not_le.mpr hlow]
              · simp [hlow, Nat.not_lt.mp hlow]
          | true =>
              by_cases hlow : rounds < low
              · have hgo := hrest last fun i hi => Nat.lt_succ_of_lt (hlast i hi)
                simpa [hlow, Nat.not_le.mpr hlow] using hgo
              · have hgo := hrest (some a.place.index) (by simp)
                rw [if_neg hlow, if_pos rfl, Option.bind_some, ← hgo]
                cases Step.greedy (.one p) low none k fuel (rounds + 1) (some a.place.index)
                    (a.past [c] cs) with
                | none => simp [Nat.not_lt.mp hlow]
                | some b => simp

private theorem Step.repeated_one_iff {p : Char → Bool} {low : Nat} {k : Continuation}
    {a : Attempt} : (Step.repeated .greedy low none (.one p) a k).isSome = true ↔
    a.Takes p low 0 k :=
  Step.greedy_one_iff (by omega) (by simp)

section Row

variable {f : Flags} {ns : List Node} {a : Attempt} {k : Continuation}

theorem row_class_iff {negated : Bool} {members : List Member} {low : Nat} :
    (row f (.repetition .greedy low none [.set negated members] :: ns) a k).isSome = true ↔
      a.Takes (fun c => members.any (·.holds f c) != negated) low 0 fun b => row f ns b k := by
  have hstep : row f [.set negated members] = .one fun c => members.any (·.holds f c) != negated :=
    rfl
  rw [row, Node.step, hstep, Step.repeated_one_iff]

theorem row_literal_iff {code : Nat} : (row f (.literal code :: ns) a k).isSome = true ↔
    ∃ c rest, a.place.ahead = c :: rest ∧ f.sameCode c.toNat code = true ∧
      (row f ns (a.past [c] rest) k).isSome = true := by
  rw [row, Node.step]
  dsimp only
  cases hahead : a.place.ahead with
  | nil => simp [Attempt.takeChar_nil hahead]
  | cons c cs =>
      rw [Attempt.takeChar_cons hahead]
      cases hc : f.sameCode c.toNat code <;> simp [hc]

theorem row_anchor_iff {anchor : Anchor} : (row f (.anchor anchor :: ns) a k).isSome = true ↔
    anchor.holds f a.place = true ∧ (row f ns a k).isSome = true := by
  rw [row, Node.step]
  dsimp only
  cases anchor.holds f a.place <;> simp

end Row

end TermRules.Pattern
