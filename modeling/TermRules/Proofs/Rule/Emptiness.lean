import Mathlib.Data.Rat.Floor
import TermRules.Program
import TermRules.Proofs.Rule.Ends

/-!
Whether the bounds of an interval without members turn every value away. Crossed bounds do as long
as both are finite. What lets a value pass is that the same two bounds demand their one point even
if an end excludes it, that an infinite end demands nothing on whichever side it stands, and that a
double moved by one can stay where it is.
-/

namespace TermRules

namespace Interval

/-- How bounds that no number lies between let a value pass all the same. -/
inductive Leaks (names : BoundNames) (i : Interval Number) : Prop
  | point {p : Point} (lower : i.lower.point? = some p) (upper : i.upper.point? = some p)
      (takes : names.Takes p)
  | lowerDropped (lower : i.lower.point? = some .top) (upper : i.upper.point? ≠ some .top)
      (room : names.point.isCount = true → ¬ (i.movedUpper true).below (.int 0) = true)
  | upperDropped (upper : i.upper.point? = some .bottom) (lower : i.lower.point? ≠ some .bottom)
  | rounded {n : ℤ} (strict : names.strict = none) (order : i.lower.below i.upper = true)
      (takes : names.Takes (.at n)) (above : ¬ (Number.int n).below (i.movedLower true) = true)
      (below : ¬ (i.movedUpper true).below (.int n) = true)

variable {names : BoundNames} {adjust : Bool} {i : Interval Number} {v : Value} {x : Number}
  {p l u : Point} {q : ℚ}

namespace Side

/-- A finite end stays finite when it is moved, and never moves outwards. -/
theorem exists_moved (side : Side) (grid : i.OnGrid) (h : (side.bound i).point? = some (.at q))
    (adjust : Bool) :
    ∃ r, (side.moved adjust i).point? = some (.at r) ∧ side.relation.Between (.at r) (.at q) := by
  have hgrid : (side.bound i).OnGrid := by cases side <;> first | exact grid.1 | exact grid.2
  rw [moved_eq]
  split
  · exact ⟨q, h, by cases side <;> exact le_rfl⟩
  · obtain ⟨r, hr⟩ := hgrid.exists_shift h (n := side.step adjust)
      (by cases side <;> cases adjust <;> decide)
    refine ⟨r, hr, ?_⟩
    cases side with
    | lower =>
        obtain ⟨t, ht, hle⟩ := hgrid.le_shift h (n := lower.step adjust)
          (by cases adjust <;> decide)
        exact Option.some.inj (ht.symm.trans hr) ▸ hle
    | upper =>
        obtain ⟨t, ht, hle⟩ := hgrid.shift_le h (n := upper.step adjust)
          (by cases adjust <;> decide)
        exact Option.some.inj (ht.symm.trans hr) ▸ hle

/-- A finite end lets nothing pass that lies beyond it, moved or not. -/
theorem between_of_met (side : Side) (h : side.Met names adjust i x) (grid : i.OnGrid)
    (hq : (side.bound i).point? = some (.at q)) (hx : x.point? = some p) :
    side.relation.Between p (.at q) := by
  rw [met_iff, Number.isInfinite?_eq_some_true_iff hq] at h
  obtain h := h.resolve_left (by simp)
  split at h
  · obtain ⟨r, hr, hle⟩ := side.exists_moved grid hq adjust
    exact side.between_trans ((side.relation.accepts_iff hx hr).mp h) hle
  · exact h.between hq hx

end Side

section Demands

/-- One end alone never turns every number away. -/
theorem exists_lowerMet (free : i.NaNFree) (grid : i.OnGrid) (names : BoundNames) (adjust : Bool) :
    ∃ n : ℕ, i.LowerMet names adjust (.int n) := by
  obtain ⟨l, hl⟩ := Number.exists_point free.1
  rcases l.infinite_or_at with hinfinite | ⟨q, rfl⟩
  · exact ⟨0, .inl ((Number.isInfinite?_eq_some_true_iff hl).mpr hinfinite)⟩
  · have hceil (r : ℚ) : r ≤ (⌈r⌉.toNat : ℤ) :=
      (Int.le_ceil r).trans (by exact_mod_cast Int.self_le_toNat ⌈r⌉)
    simp only [lowerMet_iff_of_finite hl]
    split
    · obtain ⟨r, (hr : (i.movedLower adjust).point? = _), -⟩ :=
        Side.lower.exists_moved grid hl adjust
      refine ⟨⌈r⌉.toNat, ?_⟩
      rw [Number.below_iff_lt rfl hr, not_lt, Point.at_le_at]
      exact hceil r
    · refine ⟨⌈q + 1⌉.toNat, (aboveLower_iff hl rfl).mpr (.inl ?_)⟩
      rw [Point.at_lt_at]
      exact (lt_add_one q).trans_le (hceil _)

private theorem exists_upperMet (law : names.Lawful) (free : i.NaNFree) (grid : i.OnGrid)
    (room : names.point.isCount = true → ¬ (i.movedUpper adjust).below (.int 0) = true) :
    ∃ n : ℤ, names.Takes (.at n) ∧ i.UpperMet names adjust (.int n) := by
  obtain ⟨u, hu⟩ := Number.exists_point free.2
  rcases u.infinite_or_at with hinfinite | ⟨q, rfl⟩
  · exact ⟨0, BoundNames.takes_int fun _ => le_rfl,
      .inl ((Number.isInfinite?_eq_some_true_iff hu).mpr hinfinite)⟩
  · simp only [upperMet_iff_of_finite hu]
    by_cases hcount : names.point.isCount = true
    -- Counts start at zero: if zero lies above the end, all of them do.
    · refine ⟨0, BoundNames.takes_int (fun _ => le_rfl), ?_⟩
      rw [if_pos (law.strict_of_isCount hcount)]
      exact room hcount
    · have htakes (n : ℤ) : names.Takes (.at n) := BoundNames.takes_int fun h => absurd h hcount
      split
      · obtain ⟨r, (hr : (i.movedUpper adjust).point? = _), -⟩ :=
          Side.upper.exists_moved grid hu adjust
        refine ⟨⌊r⌋, htakes _, ?_⟩
        rw [Number.below_iff_lt hr rfl, not_lt, Point.at_le_at]
        exact Int.floor_le r
      · refine ⟨⌊q - 1⌋, htakes _, (belowUpper_iff hu rfl).mpr (.inl ?_)⟩
        rw [Point.at_lt_at]
        exact (Int.floor_le _).trans_lt (sub_one_lt q)

end Demands

/-- An end that is open on its own side leaves whole numbers in the interval. -/
theorem exists_contains_of_open (hl : i.lower.point? = some l) (hu : i.upper.point? = some u)
    (h : l < u) (hopen : l = .bottom ∨ u = .top) : ∃ n : ℤ, i.Contains (.int n) := by
  suffices ∃ n : ℤ, l < .at n ∧ .at n < u by
    obtain ⟨n, hlower, hupper⟩ := this
    exact ⟨n, (aboveLower_iff hl rfl).mpr (.inl hlower), (belowUpper_iff hu rfl).mpr (.inl hupper)⟩
  have hbottom (q : ℚ) : Point.bottom < .at q := (Point.below_iff_lt _ _).mp rfl
  have htop (q : ℚ) : .at q < Point.top := (Point.below_iff_lt _ _).mp rfl
  rcases hopen with rfl | rfl
  · match u with
    | .bottom => exact absurd h (lt_irrefl _)
    | .top => exact ⟨0, hbottom _, htop _⟩
    | .at q =>
        refine ⟨⌊q - 1⌋, hbottom _, (Point.at_lt_at _ _).mpr ?_⟩
        exact (Int.floor_le _).trans_lt (sub_one_lt q)
  · match l with
    | .top => exact absurd h (lt_irrefl _)
    | .bottom => exact ⟨0, hbottom _, htop _⟩
    | .at q =>
        refine ⟨⌈q + 1⌉, (Point.at_lt_at _ _).mpr ?_, htop _⟩
        exact (lt_add_one q).trans_le (Int.le_ceil _)

private theorem leaks_of_ordered (empty : ∀ x : Number, x.OnGrid → ¬ i.Contains x)
    (hx : names.Measures v x) (hl : i.lower.point? = some l) (hu : i.upper.point? = some u)
    (h : l < u) (hlower : i.LowerMet names true x) (hupper : i.UpperMet names true x) :
    i.Leaks names := by
  have hclosed : ¬ (l = .bottom ∨ u = .top) := fun hopen =>
    (exists_contains_of_open hl hu h hopen).elim fun n => empty _ trivial
  rw [not_or] at hclosed
  have hltop : l ≠ .top := (h.trans_le (Point.le_top u)).ne
  have hubottom : u ≠ .bottom := ((Point.bottom_le l).trans_lt h).ne'
  obtain ⟨q, rfl⟩ := l.infinite_or_at.resolve_left (by simp [hclosed, hltop])
  obtain ⟨r, rfl⟩ := u.infinite_or_at.resolve_left (by simp [hclosed, hubottom])
  rw [lowerMet_iff_of_finite hl] at hlower
  rw [upperMet_iff_of_finite hu] at hupper
  -- Strict bounds accept the members only, so what passes here passes ends that were moved.
  by_cases hs : names.strict = none
  · rw [if_pos hs] at hlower hupper
    obtain ⟨n, hn⟩ := hx.whole hs
    refine .rounded hs ((Number.below_iff_lt hl hu).mpr h) (hx.takes hn) ?_ ?_
    · rwa [Number.below, show (Number.int n).point? = x.point? from hn.symm]
    · rwa [Number.below, show (Number.int n).point? = x.point? from hn.symm]
  · rw [if_neg hs] at hlower hupper
    exact absurd ⟨hlower, hupper⟩ (empty x hx.onGrid)

private theorem leaks_of_crossed (law : names.Lawful) (grid : i.OnGrid) (hx : names.Measures v x)
    (hl : i.lower.point? = some l) (hu : i.upper.point? = some u) (h : u < l)
    (hlower : i.LowerMet names true x) (hupper : i.UpperMet names true x) : i.Leaks names := by
  have hutop : u ≠ .top := (h.trans_le (Point.le_top l)).ne
  have hlbottom : l ≠ .bottom := ((Point.bottom_le u).trans_lt h).ne'
  by_cases hubottom : u = .bottom
  · exact .upperDropped (hubottom ▸ hu) (by simpa [hl] using hlbottom)
  obtain ⟨r, rfl⟩ := u.infinite_or_at.resolve_left (by simp [hubottom, hutop])
  obtain ⟨p, hp⟩ := Number.exists_point hx.number
  by_cases hltop : l = .top
  · refine .lowerDropped (hltop ▸ hl) (by simp [hu]) fun hcount => ?_
    obtain ⟨n, rfl⟩ := (hx.takes hp).2 hcount
    obtain ⟨t, (ht : (i.movedUpper true).point? = _), -⟩ := Side.upper.exists_moved grid hu true
    rw [upperMet_iff_of_finite hu, if_pos (law.strict_of_isCount hcount), Number.below_iff_lt ht hp,
      not_lt, Point.at_le_at] at hupper
    rw [Number.below_iff_lt ht rfl, not_lt, Point.at_le_at]
    exact le_trans (by exact_mod_cast Nat.zero_le n) hupper
  · obtain ⟨q, rfl⟩ := l.infinite_or_at.resolve_left (by simp [hlbottom, hltop])
    have hlow : Point.at q ≤ p := Side.lower.between_of_met hlower grid hl hp
    have hhigh : p ≤ Point.at r := Side.upper.between_of_met hupper grid hu hp
    exact absurd (hlow.trans hhigh) (not_le.mpr h)

/-- Nothing passes the bounds of an interval without members unless one of the four ways is open. -/
theorem leaks_of_met (law : names.Lawful) (free : i.NaNFree) (grid : i.OnGrid)
    (empty : ∀ x : Number, x.OnGrid → ¬ i.Contains x) (hx : names.Measures v x)
    (h : i.Met names true x) : i.Leaks names := by
  obtain ⟨l, hl⟩ := Number.exists_point free.1
  obtain ⟨u, hu⟩ := Number.exists_point free.2
  obtain ⟨p, hp⟩ := Number.exists_point hx.number
  rw [Met] at h
  split at h
  · rename_i hsame
    obtain rfl := (Number.same_iff_eq hl hu).mp hsame
    obtain rfl := (Number.same_iff_eq hp hl).mp h
    exact .point hl hu (hx.takes hp)
  · rename_i hsame
    rcases lt_or_gt_of_ne (mt (Number.same_iff_eq hl hu).mpr hsame) with hlt | hgt
    · exact leaks_of_ordered empty hx hl hu hlt h.1 h.2
    · exact leaks_of_crossed law grid hx hl hu hgt h.1 h.2

private theorem Leaks.exists_met (h : i.Leaks names) (law : names.Lawful) (free : i.NaNFree)
    (grid : i.OnGrid) :
    ∃ x p, x.OnGrid ∧ x.point? = some p ∧ names.Takes p ∧ i.Met names true x := by
  have hdiffer {l u : Point} (hl : i.lower.point? = some l) (hu : i.upper.point? = some u)
      (hne : l ≠ u) {x : Number} (hlower : i.LowerMet names true x)
      (hupper : i.UpperMet names true x) : i.Met names true x := by
    rw [Met, if_neg (mt (Number.same_iff_eq hl hu).mp hne)]
    exact ⟨hlower, hupper⟩
  cases h with
  | point lower upper takes =>
      refine ⟨i.lower, _, grid.1, lower, takes, ?_⟩
      rw [Met, if_pos ((Number.same_iff_eq lower upper).mpr rfl), Number.same_iff_eq lower lower]
  | lowerDropped lower upper room =>
      obtain ⟨u, hu⟩ := Number.exists_point free.2
      obtain ⟨n, htakes, hmet⟩ := exists_upperMet law free grid room
      refine ⟨.int n, _, trivial, rfl, htakes,
        hdiffer lower hu (fun h => upper (h ▸ hu)) (.inl ?_) hmet⟩
      rw [Number.isInfinite?_eq_some_true_iff lower]
      exact .inr rfl
  | upperDropped upper lower =>
      obtain ⟨l, hl⟩ := Number.exists_point free.1
      obtain ⟨n, hmet⟩ := exists_lowerMet free grid names true
      refine ⟨.int n, _, trivial, rfl, BoundNames.takes_int (fun _ => Int.natCast_nonneg n),
        hdiffer hl upper (fun h => lower (h ▸ hl)) hmet (.inl ?_)⟩
      rw [Number.isInfinite?_eq_some_true_iff upper]
      exact .inl rfl
  | rounded strict order takes above below =>
      obtain ⟨l, hl⟩ := Number.exists_point free.1
      obtain ⟨u, hu⟩ := Number.exists_point free.2
      refine ⟨.int _, _, trivial, rfl, takes,
        hdiffer hl hu ((Number.below_iff_lt hl hu).mp order).ne (.inr ?_) (.inr ?_)⟩
      · rwa [if_pos strict]
      · rwa [if_pos strict]

/-- Crossed finite bounds let nothing pass. -/
theorem not_leaks_of_crossed {q r : ℚ} (hl : i.lower.point? = some (.at q))
    (hu : i.upper.point? = some (.at r)) (h : r < q) : ¬ i.Leaks names := by
  intro hleaks
  cases hleaks with
  | point lower upper takes =>
      have hq := Option.some.inj (hl.symm.trans lower)
      obtain rfl : q = r := by simpa using hq.trans (Option.some.inj (hu.symm.trans upper)).symm
      exact lt_irrefl _ h
  | lowerDropped lower => simp [hl] at lower
  | upperDropped upper => simp [hu] at upper
  | rounded strict order =>
      rw [Number.below_iff_lt hl hu, Point.at_lt_at] at order
      exact lt_asymm h order

section Combined

variable {a b : Interval Number} {ds : List Directive}

private theorem OnGrid.combine (ha : a.OnGrid) (hb : b.OnGrid) : (a.combine b).OnGrid :=
  meet_bounds (P := Number.OnGrid) (normalize_bounds ha) (normalize_bounds hb)

/-- The bounds of two intervals without a common number turn every value away, numbers of any kind
or whole ones, unless they leak. -/
theorem directives_unsatisfiable_iff [Library] (law : names.Lawful) (ha : a.NaNFree)
    (hb : b.NaNFree) (gridA : a.OnGrid) (gridB : b.OnGrid)
    (disjoint : ∀ x : Number, x.OnGrid → ¬ (a.normalize.Contains x ∧ b.normalize.Contains x))
    (h : (a.combine b).directives names true = .ok ds) (path : String) :
    (∀ v x, names.Measures v x → ¬ ∀ d ∈ ds, d.check v path = .ok ()) ↔
      ¬ (a.combine b).Leaks names := by
  have free := ha.combine hb
  have grid := gridA.combine gridB
  have empty (x : Number) (hx : x.OnGrid) : ¬ (a.combine b).Contains x := by
    rw [contains_combine ha hb]
    exact disjoint x hx
  refine ⟨fun hnone hleaks => ?_, fun hleaks v x hx hall => ?_⟩
  · obtain ⟨x, p, hgrid, hp, htakes, hmet⟩ := hleaks.exists_met law free grid
    obtain ⟨v, y, hy, hyp⟩ := BoundNames.exists_measures hgrid hp htakes
    refine hnone v y hy ((directives_met_iff law h free hy path).mpr ?_)
    rwa [met_congr (hyp.trans hp.symm)]
  · exact hleaks
      (leaks_of_met law free grid empty hx ((directives_met_iff law h free hx path).mp hall))

/-- Lengths up to five. -/
def upToFive : Interval Number :=
  ⟨.int 5, .int 0, true, true⟩

/-- Lengths from seven to nine. -/
def sevenToNine : Interval Number :=
  ⟨.int 7, .int 9, true, false⟩

section Program

open Program

theorem directives_unsatisfiable_of_disjoint_lengths :
    ∃ ds, (upToFive.combine sevenToNine).directives .length true = .ok ds ∧
      ∀ text, ¬ ∀ d ∈ ds, d.check (.text text) "" = .ok () := by
  have hcombine : upToFive.combine sevenToNine = ⟨.int 7, .int 5, true, true⟩ := by decide
  have hlower := Number.isInfinite?_of_small (n := 7) (by decide)
  have hupper := Number.isInfinite?_of_small (n := 5) (by decide)
  obtain ⟨ds, hds⟩ :=
    exists_directives (i := upToFive.combine sevenToNine) (by simp [hcombine, hlower])
    (by simp [hcombine, hupper]) .length true
  have hdisjoint (x : Number) (_ : x.OnGrid) :
      ¬ (upToFive.normalize.Contains x ∧ sevenToNine.normalize.Contains x) := by
    rw [← contains_combine (by decide) (by decide)]
    exact not_contains_of_reversed (by decide) (by decide) x
  have hleaks : ¬ (upToFive.combine sevenToNine).Leaks .length := by
    rw [hcombine]
    exact not_leaks_of_crossed rfl rfl (by decide)
  have hnone := (directives_unsatisfiable_iff (a := upToFive) (b := sevenToNine)
    BoundNames.lawful_length (by decide) (by decide) ⟨trivial, trivial⟩ ⟨trivial, trivial⟩ hdisjoint
    hds "").mpr hleaks
  exact ⟨ds, hds, fun text => hnone _ _ (BoundNames.measures_count (v := .text text) rfl rfl)⟩

end Program

/-- The numbers from one up to five, without five. -/
def belowFive : Interval Number :=
  ⟨.int 1, .int 5, true, false⟩

/-- The numbers from five to nine. -/
def fromFive : Interval Number :=
  ⟨.int 5, .int 9, true, true⟩

section Program

open Program

theorem directives_accept_excluded_point :
    (∀ x, ¬ (belowFive.normalize.Contains x ∧ fromFive.normalize.Contains x)) ∧
      ∃ ds, (belowFive.combine fromFive).directives .continuousRange true = .ok ds ∧
        ∀ d ∈ ds, d.check (.int 5) "" = .ok () := by
  refine ⟨fun x hx => ?_, [⟨.exact, .int 5⟩], rfl, List.forall_mem_singleton.mpr rfl⟩
  obtain ⟨p, hp⟩ := Number.exists_point hx.1.not_isNaN
  have hupper := (belowUpper_iff rfl hp).mp hx.1.2
  have hlower := (aboveLower_iff rfl hp).mp hx.2.1
  have hexcluded : belowFive.normalize.upperInclusive = false := by decide
  grind

end Program

end Combined

end Interval

end TermRules
