import TermRules.Proofs.Rule.Bounds

/-!
The bounds that an interval is rendered to accept the numbers of the interval. Two things are needed
for that: some number must be in the interval, so that its ends are no bounds of nothing, and an
exclusive end that is shifted by one must be whole, as must the number that is checked. Without the
shift an exclusive end counts as an inclusive one. The two sides of an interval differ in direction
only, so what an end accepts is said once for both.
-/

namespace TermRules

namespace Interval

/-- The two sides of an interval. -/
inductive Side where
  | lower
  | upper

namespace Side

def other : Side → Side
  | lower => upper
  | upper => lower

def bound : Side → Interval Number → Number
  | lower => Interval.lower
  | upper => Interval.upper

def isIncluded : Side → Interval Number → Bool
  | lower => Interval.lowerInclusive
  | upper => Interval.upperInclusive

/-- Whether a number is on the inner side of the end. -/
def Holds : Side → Interval Number → Number → Prop
  | lower => AboveLower
  | upper => BelowUpper

/-- How a number stands to an end that it is within. -/
def relation : Side → Relation
  | lower => .atLeast
  | upper => .atMost

/-- How a number stands to an end that is excluded. -/
def strictRelation : Side → Relation
  | lower => .above
  | upper => .below

/-- The infinite point that the end would have to be at to leave every number out. -/
def farPoint : Side → Point
  | lower => .top
  | upper => .bottom

def name : Side → BoundNames → DirectiveName
  | lower => BoundNames.lower
  | upper => BoundNames.upper

/-- The name of an excluded end; without one it goes by the name of an included end. -/
def strictName (side : Side) (names : BoundNames) : DirectiveName :=
  let strict := names.strict.getD (names.lower, names.upper)
  match side with
  | lower => strict.1
  | upper => strict.2

/-- How far an excluded end without a name of its own is moved. -/
def step (side : Side) (adjust : Bool) : Int :=
  let inwards : Int := if adjust then 1 else 0
  match side with
  | lower => inwards
  | upper => -inwards

/-- The bound of the end on this side. -/
def directives (side : Side) (names : BoundNames) (adjust : Bool) (i : Interval Number) :
    Except Misuse (List Directive) :=
  endDirective (side.name names) (side.strictName names) names.strict.isSome (side.step adjust)
    (side.bound i) (side.isIncluded i)

end Side

/-- The bounds of an interval are those of its two sides, unless it is a single point. -/
theorem directives_eq_sides (names : BoundNames) (adjust : Bool) (i : Interval Number) :
    i.directives names adjust =
      if i.lower.same i.upper then .ok [⟨names.point, .ofNumber i.lower⟩]
      else do
        let low ← Side.lower.directives names adjust i
        let high ← Side.upper.directives names adjust i
        return low ++ high :=
  rfl

/-- The flag under which exclusive ends count as inclusive: they have no strict name and are not
shifted either. -/
def isLoose (names : BoundNames) (adjust : Bool) : Bool :=
  names.strict.isNone && !adjust

/-- An end is met as its inclusive relation says if it counts as inclusive, and as its
strict relation says otherwise. The relation `r` holds at an infinite end, and turns into
`s` by the step. -/
private theorem endDirective_accepts_iff [Library] {inclusive strict : DirectiveName}
    {isStrict : Bool} {step : Int} {bound : Number} {isIncluded : Bool} {r s : Relation}
    {ds : List Directive} {v : Value} {x : Number} {p q : Point}
    (h : endDirective inclusive strict isStrict step bound isIncluded = .ok ds)
    (hr : inclusive.relation? = some r) (hs : isStrict = true → strict.relation? = some s)
    (hinclusive : inclusive.quantity? v = some x)
    (hstrict : isStrict = true → strict.quantity? v = some x)
    (hp : x.point? = some p) (hq : bound.point? = some q)
    (hopen : bound.isInfinite? = some true → r.Between p q)
    (hshift : isStrict = false → step ≠ 0 → bound.isInfinite? = some false →
      ∃ t, (bound.shift step).point? = some t ∧ (r.Between p t ↔ s.Between p q))
    (path : String) :
    (∀ d ∈ ds, d.check v path = .ok ()) ↔
      if isIncluded || (!isStrict && step == 0) || bound.isInfinite? == some true
      then r.Between p q else s.Between p q := by
  obtain ⟨infinite, hinfinite, -⟩ := endDirective_ok h
  rw [endDirective_met_iff h hr hs hinclusive hstrict path, hinfinite]
  have hbetween := r.accepts_iff hp hq
  cases infinite with
  | true => simp [hopen hinfinite]
  | false =>
      cases isIncluded with
      | true => simp [hbetween]
      | false =>
          cases isStrict with
          | true => simp [s.accepts_iff hp hq]
          | false =>
              by_cases hstep : step = 0
              · simp [hstep, hbetween]
              · obtain ⟨t, ht, hiff⟩ := hshift rfl hstep hinfinite
                simp [hstep, r.accepts_iff hp ht, hiff]

private theorem exists_int_of_finite {a : Number} (h : a.IsWholeBound)
    (hfinite : a.isInfinite? = some false) : ∃ k, a = .int k := by
  cases a with
  | int k => exact ⟨k, rfl⟩
  | double d =>
      cases d with
      | infinite negative => simp [Number.isInfinite?] at hfinite
      | nan | negativeZero | finite value => exact h.elim

namespace Side

variable {names : BoundNames} {adjust : Bool} {i : Interval Number} {ds : List Directive}
  {v : Value} {x : Number} {p q : Point}

theorem holds_iff (side : Side) (hq : (side.bound i).point? = some q) (hp : x.point? = some p) :
    side.Holds i x ↔
      if side.isIncluded i then side.relation.Between p q
      else side.strictRelation.Between p q := by
  cases side with
  | lower =>
      rw [Holds, aboveLower_iff hq hp]
      cases hincluded : i.lowerInclusive <;>
        simp [isIncluded, relation, strictRelation, Relation.Between, hincluded, le_iff_lt_or_eq]
  | upper =>
      rw [Holds, belowUpper_iff hq hp]
      cases hincluded : i.upperInclusive <;>
        simp [isIncluded, relation, strictRelation, Relation.Between, hincluded, le_iff_lt_or_eq]

theorem not_isNaN (side : Side) (free : i.NaNFree) : ¬ (side.bound i).IsNaN := by
  cases side with
  | lower => exact free.1
  | upper => exact free.2

theorem contains_iff (side : Side) :
    i.Contains x ↔ side.Holds i x ∧ side.other.Holds i x := by
  cases side with
  | lower => exact Iff.rfl
  | upper => exact and_comm

theorem between_refl (side : Side) (p : Point) : side.relation.Between p p := by
  cases side <;> exact le_refl p

theorem between_trans (side : Side) {a b c : Point} (hab : side.relation.Between a b)
    (hbc : side.relation.Between b c) : side.relation.Between a c := by
  cases side with
  | lower => exact le_trans hbc hab
  | upper => exact le_trans hab hbc

theorem Holds.between {side : Side} (h : side.Holds i x) (hq : (side.bound i).point? = some q)
    (hx : x.point? = some p) : side.relation.Between p q := by
  rw [side.holds_iff hq hx] at h
  split at h
  · exact h
  · cases side <;> exact le_of_lt h

theorem other_between_iff {side : Side} :
    side.other.relation.Between p q ↔ side.relation.Between q p := by
  cases side <;> exact Iff.rfl

/-- What is further inwards is within the end as well. -/
theorem Holds.mono {side : Side} {y : Number} {r : Point} (h : side.Holds i x)
    (hq : (side.bound i).point? = some q) (hx : x.point? = some p) (hy : y.point? = some r)
    (hle : side.relation.Between r p) : side.Holds i y := by
  rw [side.holds_iff hq hx] at h
  rw [side.holds_iff hq hy]
  split
  · rw [if_pos ‹_›] at h
    exact side.between_trans hle h
  · rw [if_neg ‹_›] at h
    cases side with
    | lower => exact lt_of_lt_of_le h hle
    | upper => exact lt_of_le_of_lt hle h

/-- An infinite end is open to every number unless it is the far one. -/
private theorem between_of_isInfinite (side : Side) (hq : (side.bound i).point? = some q)
    (hinfinite : (side.bound i).isInfinite? = some true) (hfar : q ≠ side.farPoint) (p : Point) :
    side.relation.Between p q := by
  have hends := (Number.isInfinite?_eq_some_true_iff hq).mp hinfinite
  cases side with
  | lower => exact hends.resolve_right hfar ▸ Point.bottom_le p
  | upper => exact hends.resolve_left hfar ▸ Point.le_top p

/-- For whole numbers an exclusive end is an inclusive one a step inwards. -/
private theorem exists_shift (side : Side) {a : Number} (h : a.IsWholeBound)
    (hfinite : a.isInfinite? = some false) (hq : a.point? = some q) (n : Int) :
    ∃ t, (a.shift (side.step true)).point? = some t ∧
      (side.relation.Between (.at n) t ↔ side.strictRelation.Between (.at n) q) := by
  obtain ⟨k, rfl⟩ := exists_int_of_finite h hfinite
  cases hq
  refine ⟨.at (k + side.step true : Int), rfl, ?_⟩
  cases side with
  | lower =>
      change Point.at (k + 1 : Int) ≤ .at n ↔ Point.at k < .at n
      rw [Point.at_le_at, Point.at_lt_at]
      exact_mod_cast Int.add_one_le_iff
  | upper =>
      change Point.at n ≤ .at (k + -1 : Int) ↔ Point.at n < .at k
      rw [Point.at_le_at, Point.at_lt_at]
      exact_mod_cast Int.le_sub_one_iff

theorem relation?_name (side : Side) (law : names.Lawful) :
    (side.name names).relation? = some side.relation := by
  cases side with
  | lower => exact law.lower
  | upper => exact law.upper

theorem quantity?_name (side : Side) (law : names.Lawful)
    (hx : names.point.quantity? v = some x) : (side.name names).quantity? v = some x := by
  have hcount : (side.name names).isCount = names.point.isCount := by
    cases side with
    | lower => exact law.isCount.1
    | upper => exact law.isCount.2.1
  exact (DirectiveName.quantity?_congr hcount v).trans hx

theorem relation?_strictName (side : Side) (law : names.Lawful)
    (hstrict : names.strict.isSome = true) :
    (side.strictName names).relation? = some side.strictRelation := by
  obtain ⟨s, hs⟩ := Option.isSome_iff_exists.mp hstrict
  cases side with
  | lower => simpa [strictName, strictRelation, hs] using (law.strict s hs).1
  | upper => simpa [strictName, strictRelation, hs] using (law.strict s hs).2

theorem quantity?_strictName (side : Side) (law : names.Lawful)
    (hx : names.point.quantity? v = some x) (hstrict : names.strict.isSome = true) :
    (side.strictName names).quantity? v = some x := by
  obtain ⟨s, hs⟩ := Option.isSome_iff_exists.mp hstrict
  have hcount : (side.strictName names).isCount = names.point.isCount := by
    cases side with
    | lower => simpa [strictName, hs] using (law.isCount.2.2 s hs).1
    | upper => simpa [strictName, hs] using (law.isCount.2.2 s hs).2
  exact (DirectiveName.quantity?_congr hcount v).trans hx

theorem step_eq_zero_iff (side : Side) : side.step adjust = 0 ↔ adjust = false := by
  cases side <;> cases adjust <;> decide

/-- An end that is not the far one accepts what is on its inner side. It counts as included if it
is infinite, or if exclusive ends have neither names of their own nor are moved. -/
theorem accepts_iff [Library] (side : Side) (law : names.Lawful)
    (h : side.directives names adjust i = .ok ds) (hq : (side.bound i).point? = some q)
    (hfar : q ≠ side.farPoint) (hx : names.point.quantity? v = some x) (hp : x.point? = some p)
    (whole : names.strict = none → adjust = true →
      (side.bound i).IsWholeBound ∧ ∃ n : Int, p = .at n)
    (path : String) :
    (∀ d ∈ ds, d.check v path = .ok ()) ↔ side.Holds (i.relax (isLoose names adjust)) x := by
  have hshift (hs : names.strict.isSome = false) (hstep : side.step adjust ≠ 0)
      (hfinite : (side.bound i).isInfinite? = some false) :
      ∃ t, ((side.bound i).shift (side.step adjust)).point? = some t ∧
        (side.relation.Between p t ↔ side.strictRelation.Between p q) := by
    obtain rfl : adjust = true := by simpa [step_eq_zero_iff] using hstep
    obtain ⟨hwhole, n, rfl⟩ := whole (by simpa using hs) rfl
    exact side.exists_shift hwhole hfinite hq n
  have hloose : (!names.strict.isSome && side.step adjust == 0) = isLoose names adjust := by
    cases side <;> cases adjust <;> simp [isLoose, step]
  have hrelax : (side.bound (i.relax (isLoose names adjust))).point? = some q := by
    cases side <;> exact hq
  rw [endDirective_accepts_iff h (side.relation?_name law) (side.relation?_strictName law)
    (side.quantity?_name law hx) (side.quantity?_strictName law hx) hp hq
    (fun hinfinite => side.between_of_isInfinite hq hinfinite hfar p) hshift path, hloose,
    side.holds_iff hrelax hp]
  cases side <;> rfl

end Side

variable {names : BoundNames} {adjust : Bool} {i : Interval Number} {ds : List Directive}
  {v : Value} {x : Number} {p : Point}

/-- The bounds of an interval that some number is in accept its numbers. -/
theorem directives_accept_iff [Library] (law : names.Lawful)
    (h : i.directives names adjust = .ok ds) (free : i.NaNFree) {m : Number} (hm : i.Contains m)
    (hx : names.point.quantity? v = some x) (hp : x.point? = some p)
    (whole : names.strict = none → adjust = true →
      i.lower.IsWholeBound ∧ i.upper.IsWholeBound ∧ ∃ n : Int, p = .at n)
    (path : String) :
    (∀ d ∈ ds, d.check v path = .ok ()) ↔ (i.relax (isLoose names adjust)).Contains x := by
  obtain ⟨l, hl⟩ := Number.exists_point free.1
  obtain ⟨u, hu⟩ := Number.exists_point free.2
  have hlu : l ≤ u := hm.lower_le_upper hl hu
  rw [directives_eq_sides] at h
  split at h
  · rename_i hsame
    have heq : l = u := (Number.same_iff_eq hl hu).mp hsame
    subst heq
    obtain ⟨q, hq⟩ := Number.exists_point hm.not_isNaN
    have hlower := (aboveLower_iff hl hq).mp hm.1
    have hupper := (belowUpper_iff hu hq).mp hm.2
    have hpoint := Directive.check_bound_eq_ok_iff law.point hx hp hl path
    -- The exact bound ignores the flags. A point is in the interval only if both are set.
    have hends : i.lowerInclusive = true ∧ i.upperInclusive = true := by grind
    cases h
    rw [Contains, aboveLower_iff (i := i.relax _) hl hp, belowUpper_iff (i := i.relax _) hu hp]
    have hsame : p = l ↔ (l < p ∨ l = p) ∧ (p < l ∨ p = l) := by
      rw [← le_iff_lt_or_eq, ← le_iff_lt_or_eq, and_comm, le_antisymm_iff]
    simpa [relax, hends, hpoint, Bound.toValue, Relation.Between] using hsame
  · rename_i hsame
    have hlt : l < u := lt_of_le_of_ne hlu fun heq => hsame ((Number.same_iff_eq hl hu).mpr heq)
    obtain ⟨low, hlow, h⟩ := bind_eq_ok_iff.mp h
    obtain ⟨high, hhigh, h⟩ := bind_eq_ok_iff.mp h
    obtain rfl := pure_eq_ok_iff.mp h
    have htop : l ≠ .top := (hlt.trans_le (Point.le_top u)).ne
    have hbottom : u ≠ .bottom := ((Point.bottom_le l).trans_lt hlt).ne'
    have hlowers := Side.lower.accepts_iff law hlow hl htop hx hp
      (fun hs ha => ⟨(whole hs ha).1, (whole hs ha).2.2⟩) path
    have huppers := Side.upper.accepts_iff law hhigh hu hbottom hx hp
      (fun hs ha => (whole hs ha).2) path
    rw [List.forall_mem_append, hlowers, huppers]
    rfl

end Interval

end TermRules
