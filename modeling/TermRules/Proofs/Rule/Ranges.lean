import TermRules.Program
import TermRules.Proofs.Rule.Conjunction
import TermRules.Proofs.Rule.Hooks
import TermRules.Proofs.Rule.Parts

/-!
What a rule for numbers that need not be whole lets pass: members of its range, and a NaN. No bound
but the exact one is asked whether a number is in order with its limit, only whether it is out of
order, and a NaN is neither.
-/

namespace TermRules

variable {hooks : Hooks} {v w : Value} {path : String} {x : Number}

private theorem Relation.accepts_of_isNaN (h : x.IsNaN) (r : Relation) (limit : Number) :
    r.accepts x limit = true ↔ r ≠ .exactly := by
  cases r <;> simp [accepts, h.not_below_left, h.not_below_right, h.not_same_left]

namespace Interval

variable {i : Interval Number} {adjust : Bool} {ds : List Directive}

/-- At finite ends the flags say all there is to say. -/
theorem relax_false_of_finite {l u : ℚ} (hl : i.lower.point? = some (.at l))
    (hu : i.upper.point? = some (.at u)) : i.relax false = i := by
  have hfinite {a : Number} {q : ℚ} (ha : a.point? = some (.at q)) :
      (a.isInfinite? == some true) = false := by
    rw [beq_eq_false_iff_ne, ne_eq, Number.isInfinite?_eq_some_true_iff ha]
    simp
  simp [relax, hfinite hl, hfinite hu]

private theorem not_contains_of_nan (h : .double .nan = Value.ofNumber x) (i : Interval Number) :
    ¬ i.Contains x := by
  cases x with
  | int n => cases h
  | double d =>
      cases h
      exact fun hcontains => hcontains.not_isNaN rfl

/-- A NaN meets the bounds of an interval with two different ends, whatever they are. -/
theorem directives_accept_nan_iff [Library] (h : i.directives .continuousRange adjust = .ok ds)
    (hx : x.IsNaN) (path : String) :
    (∀ d ∈ ds, d.check (.ofNumber x) path = .ok ()) ↔ ¬ i.lower.same i.upper = true := by
  have haccepts := Relation.accepts_of_isNaN hx
  have hquantity (name : DirectiveName) (hname : name.isCount = false) :
      name.quantity? (.ofNumber x) = some x := DirectiveName.quantity?_ofNumber hname x
  rw [directives] at h
  split at h
  · rename_i hpoint
    have hsame : i.lower.same i.upper = true := hpoint
    have hcheck : (Directive.mk .exact (.ofNumber i.lower)).check (.ofNumber x) path = .ok () ↔
        Relation.exactly.accepts x i.lower = true :=
      Directive.check_accepts_iff rfl (hquantity .exact rfl) i.lower path
    cases h
    rw [List.forall_mem_singleton]
    refine iff_of_false (fun h => ?_) (not_not_intro hsame)
    exact (haccepts .exactly i.lower).mp (hcheck.mp h) rfl
  · rename_i hpoint
    obtain ⟨low, hlow, h⟩ := bind_eq_ok_iff.mp h
    obtain ⟨high, hhigh, h⟩ := bind_eq_ok_iff.mp h
    obtain rfl := pure_eq_ok_iff.mp h
    have hmin := endDirective_met_iff hlow (r := .atLeast) (s := .above) rfl (fun _ => rfl)
      (hquantity _ rfl) (fun _ => hquantity _ rfl) path
    have hmax := endDirective_met_iff hhigh (r := .atMost) (s := .below) rfl (fun _ => rfl)
      (hquantity _ rfl) (fun _ => hquantity _ rfl) path
    refine iff_of_true (List.forall_mem_append.mpr ⟨hmin.mpr (.inr ?_), hmax.mpr (.inr ?_)⟩) hpoint
    all_goals split <;> exact (haccepts _ _).mpr (by decide)

end Interval

namespace Rule

/-- A custom hook makes a number of a number, in whole form or in its own. -/
theorem apply_custom_number [Library] {c : Custom} (h : c.apply (.ofNumber x) path = .ok w) :
    ∃ y, w = .ofNumber y ∧ WholeFormOf y x := by
  cases c with
  | address => exact ⟨x, apply_text_eq (.inl rfl) h, .inl rfl⟩
  | hexadecimal => exact ⟨x, apply_text_eq (.inr (.inl rfl)) h, .inl rfl⟩
  | email => exact ⟨x, apply_text_eq (.inr (.inr rfl)) h, .inl rfl⟩
  | integer =>
      obtain ⟨y, hw, hform, -⟩ := apply_integer_eq_ok h
      exact ⟨y, hw, hform⟩
  | timestamp => exact ⟨x, (apply_timestamp_iff.mp h).2.symm, .inl rfl⟩

private theorem runCustoms_number [Library] {names : List String}
    (h : runCustoms hooks path names (.ofNumber x) = .ok w) :
    ∃ y, w = .ofNumber y ∧ WholeFormOf y x := by
  induction names generalizing x with
  | nil => exact ⟨x, (Except.ok.inj h).symm, .inl rfl⟩
  | cons name names ih =>
      obtain ⟨c, u, -, happly, hrest⟩ := runCustoms_cons_ok.mp h
      obtain ⟨y, rfl, hyx⟩ := apply_custom_number happly
      obtain ⟨z, hw, hzy⟩ := ih hrest
      exact ⟨z, hw, hzy.trans hyx⟩

private theorem checkParts_number [Library] {r : Rule} (hkind : r.kind = .number) (v : Value)
    (path : String) : checkParts hooks r v path = .ok v := by
  unfold checkParts
  rw [hkind]

/-- Of a value a check sees what the casts make of it. -/
theorem check_eq_of_cast [Library] {r : Rule} {u : Value} (hv : v.isNull = false)
    (hu : u.isNull = false)
    (h : cast hooks r.kind r.casts v path = cast hooks r.kind r.casts u path) :
    r.check hooks v path = r.check hooks u path := by
  rw [check_eq_stages hv, check_eq_stages hu, h]

/-- A value that a rule for numbers lets pass stands for a number that the directives accept. -/
theorem exists_number_of_check [Library] {r : Rule} (hkind : r.kind = .number)
    (hnull : w.isNull = false) (h : r.check hooks v path = .ok w) :
    ∃ x y, w = .ofNumber y ∧ WholeFormOf y x ∧
      ∀ d ∈ r.directives, d.check (.ofNumber x) path = .ok () := by
  have hv : v.isNull = false := by
    by_contra hv
    rw [Bool.not_eq_false] at hv
    rw [eq_of_check_null h hv, hv] at hnull
    contradiction
  obtain ⟨u, -, hadmits, hds, u', hparts, hcustoms⟩ := (check_eq_ok_iff_parts hv).mp h
  rw [hkind] at hadmits
  obtain ⟨x, rfl⟩ : u.IsOf .numeric := Value.isOf_of_admits (.inr (.inl rfl)) hadmits
  obtain rfl := Except.ok.inj ((checkParts_number hkind _ path).symm.trans hparts)
  obtain ⟨y, hw, hyx⟩ := runCustoms_number hcustoms
  exact ⟨x, y, hw, hyx, hds⟩

end Rule

namespace Record

variable {r : Record Number} {i : Interval Number} {adjust : Bool} {rule : Rule}

/-- A record of numbers that need not be whole, with the range `i`. -/
structure IsContinuous (r : Record Number) (i : Interval Number) : Prop where
  category : r.category = some .numeric
  integer : r.marks.integer = false
  range : r.range = some i

/-- The record demands of numbers only what is for numbers, and uses just the hooks that are. -/
structure IsOfNumbers (hooks : Hooks) (r : Record Number) : Prop where
  length : r.length = none
  size : r.size = none
  regex : r.regex = []
  marks : r.marks.url = false ∧ r.marks.hexadecimal = false ∧ r.marks.email = false ∧
  r.marks.set = false
  casts : ∀ name ∈ r.casts, Hooks.lookup hooks.casts name = .ok .number
  customs : ∀ name ∈ r.customs, Hooks.lookup hooks.customs name = .ok .timestamp

private theorem IsContinuous.directives (hr : r.IsContinuous i) (hrenders : r.Renders adjust rule) :
    rule.kind = .number ∧ ∃ bounds, i.directives .continuousRange adjust = .ok bounds ∧
      ∀ d ∈ bounds, d ∈ rule.directives := by
  obtain ⟨length, bounds, size, -, hbounds, -, hds⟩ := directives_eq_ok hrenders.directives
  rw [hr.range, rangeNames, hr.integer] at hbounds
  refine ⟨?_, bounds, hbounds, fun d hd => ?_⟩
  · rw [hrenders.kind, hr.category]
    rfl
  · rw [hds]
    simp [hd]

/-- What the rule lets pass is in the range or a NaN, and a NaN only between different ends and if
the number of decimals is not negative. -/
theorem IsContinuous.contains_or_isNaN [Library] (hr : r.IsContinuous i) {l u : ℚ} {m : Number}
    (hl : i.lower.point? = some (.at l)) (hu : i.upper.point? = some (.at u)) (hm : i.Contains m)
    (hrule : r.rule adjust = .ok rule) (hcheck : rule.check hooks v path = .ok w)
    (hnull : w.isNull = false) : ∃ x, w = .ofNumber x ∧ (i.Contains x ∨
      x.IsNaN ∧ ¬ i.lower.same i.upper = true ∧ ∀ d, r.decimals = some d → 0 ≤ d) := by
  have hrenders := renders_of_rule hrule
  obtain ⟨hkind, bounds, hbounds, hsub⟩ := hr.directives hrenders
  obtain ⟨x, y, rfl, hyx, hds⟩ := Rule.exists_number_of_check hkind hnull hcheck
  have hmet : ∀ d ∈ bounds, d.check (.ofNumber x) path = .ok () := fun d hd => hds d (hsub d hd)
  refine ⟨y, rfl, ?_⟩
  -- The lemma on bounds and membership is about points, which a NaN has none of.
  by_cases hx : x.IsNaN
  · refine .inr ⟨hyx.point?.trans hx, (Interval.directives_accept_nan_iff hbounds hx path).mp hmet,
      fun d hd => ?_⟩
    have hmem : ⟨.precision, .int d⟩ ∈ rule.directives := by
      obtain ⟨_, _, _, -, -, -, hall⟩ := directives_eq_ok hrenders.directives
      simp [hall, hd]
    obtain ⟨n, -, hn⟩ := Directive.check_precision_iff.mp (hds _ hmem)
    omega
  · obtain ⟨p, hp⟩ := Number.exists_point hx
    have hfree : i.NaNFree := ⟨Number.not_isNaN_of_point hl, Number.not_isNaN_of_point hu⟩
    have hcontains :=
      (Interval.directives_accept_iff BoundNames.lawful_continuousRange hbounds hfree hm
      (DirectiveName.quantity?_ofNumber rfl x) hp nofun path).mp hmet
    change (i.relax false).Contains x at hcontains
    rw [Interval.relax_false_of_finite hl hu] at hcontains
    exact .inl ((Interval.contains_congr hyx.point? i).mpr hcontains)

/-- A NaN that is given as such passes unless it has to be a point or the number of decimals
is negative. -/
theorem IsContinuous.check_nan [Library] (hr : r.IsContinuous i) (hnumbers : r.IsOfNumbers hooks)
    (hdiffer : ¬ i.lower.same i.upper = true) (hdecimals : ∀ d, r.decimals = some d → 0 ≤ d)
    (hrule : r.rule adjust = .ok rule) (path : String) :
    rule.check hooks (.double .nan) path = .ok (.double .nan) := by
  have hrenders := renders_of_rule hrule
  have hkind : rule.kind = .number := (hr.directives hrenders).1
  have hnan : (Number.double .nan).IsNaN := rfl
  have hcasts : Rule.CastsSettled hooks path rule.casts (.double .nan) := by
    rw [hrenders.casts]
    exact fun name hname => ⟨.number, hnumbers.casts name hname, rfl⟩
  have hcustoms : Rule.CustomsSettled hooks path rule.customs (.double .nan) := by
    rw [hrenders.customs]
    exact fun name hname => ⟨.timestamp, hnumbers.customs name hname,
      Rule.apply_timestamp_iff.mpr ⟨hnan.not_below_left _, rfl⟩⟩
  have hadmits : rule.kind.admits (.double .nan) = true := by
    rw [hkind]
    rfl
  refine (Rule.check_eq_ok_iff_parts rfl).mpr ⟨_, Rule.cast_of_settled ⟨_, rfl⟩ hcasts,
    hadmits, ?_, _, Rule.checkParts_number hkind _ path, hcustoms.runCustoms⟩
  obtain ⟨_, bounds, _, hlength, hbounds, hsize, hall⟩ := directives_eq_ok hrenders.directives
  rw [hnumbers.length] at hlength
  rw [hnumbers.size] at hsize
  rw [hr.range, rangeNames, hr.integer] at hbounds
  cases hlength
  cases hsize
  obtain ⟨hurl, hhexadecimal, hemail, hset⟩ := hnumbers.marks
  have hmet := (Interval.directives_accept_nan_iff hbounds hnan path).mpr hdiffer
  have hplaces (d : ℤ) (hd : r.decimals = some d) :
      (Directive.mk .precision (.int d)).check (.double .nan) path = .ok () :=
    Directive.check_precision_iff.mpr ⟨0, rfl, hdecimals d hd⟩
  have hmarks : ∀ d ∈ r.marks.directives, d.check (.double .nan) path = .ok () := by
    rw [Marks.forall_directives_iff, hurl, hhexadecimal, hemail, hr.integer, hset]
    simp [Directive.check]
  rw [hall, hnumbers.regex]
  simp only [List.nil_append, List.append_nil, List.map_nil, List.forall_mem_append]
  refine ⟨⟨hmet, ?_⟩, hmarks⟩
  simpa using hplaces

/-- A rule for numbers that need not be whole, in a range with finite ends and a member, lets
nothing pass but members of the range and NaN. It lets no NaN pass exactly if the range is a single
point or no number has few enough decimals. -/
theorem check_in_range [Library] (hr : r.IsContinuous i) {l u : ℚ} {m : Number}
    (hl : i.lower.point? = some (.at l)) (hu : i.upper.point? = some (.at u)) (hm : i.Contains m)
    (hrule : r.rule adjust = .ok rule) :
    (∀ v w path, rule.check hooks v path = .ok w → w.isNull = false →
      ∃ x, w = .ofNumber x ∧ (i.Contains x ∨ x.IsNaN)) ∧
    (r.IsOfNumbers hooks →
      ((∀ v w path, rule.check hooks v path = .ok w → w.isNull = false →
          ∃ x, w = .ofNumber x ∧ i.Contains x) ↔
        i.lower.same i.upper = true ∨ ∃ d, r.decimals = some d ∧ d < 0)) := by
  refine ⟨fun v w path hcheck hnull => ?_,
    fun hnumbers => ⟨fun hall => ?_, fun h v w path hcheck hnull => ?_⟩⟩
  · obtain ⟨x, hw, hx⟩ := hr.contains_or_isNaN hl hu hm hrule hcheck hnull
    exact ⟨x, hw, hx.imp_right And.left⟩
  · by_contra hnot
    rw [not_or, not_exists] at hnot
    have hdecimals : ∀ d, r.decimals = some d → 0 ≤ d := fun d hd =>
      Int.not_lt.mp fun hneg => hnot.2 d ⟨hd, hneg⟩
    obtain ⟨x, hx, hcontains⟩ := hall _ _ "" (hr.check_nan hnumbers hnot.1 hdecimals hrule "") rfl
    exact Interval.not_contains_of_nan hx i hcontains
  · obtain ⟨x, hw, hcontains | ⟨-, hdiffer, hdecimals⟩⟩ :=
      hr.contains_or_isNaN hl hu hm hrule hcheck hnull
    · exact ⟨x, hw, hcontains⟩
    · rcases h with hsame | ⟨d, hd, hneg⟩
      · exact absurd hsame hdiffer
      · exact absurd (hdecimals d hd) (by omega)

/-- Numbers from zero to ten that may be given as texts. -/
def marksOutOfTen : Record Number where
  category := some .numeric
  range := some ⟨.int 0, .int 10, true, true⟩
  casts := [Vocabulary.hook "castNumber"]

private theorem isContinuous_marksOutOfTen :
    marksOutOfTen.IsContinuous ⟨.int 0, .int 10, true, true⟩ :=
  ⟨rfl, rfl, rfl⟩

private theorem isOfNumbers_marksOutOfTen : marksOutOfTen.IsOfNumbers .standard where
  length := rfl
  size := rfl
  regex := rfl
  marks := ⟨rfl, rfl, rfl, rfl⟩
  casts := by
    intro name hname
    rw [List.mem_singleton.mp hname]
    rfl
  customs := nofun

section Program

open Program

theorem check_in_range_marksOutOfTen : ∃ rule, marksOutOfTen.rule true = .ok rule ∧
    ∀ v w path, rule.check .standard v path = .ok w → w.isNull = false →
      ∃ x, w = .ofNumber x ∧ (Interval.Contains ⟨.int 0, .int 10, true, true⟩ x ∨ x.IsNaN) := by
  obtain ⟨rule, hrule⟩ : ∃ rule, marksOutOfTen.rule true = .ok rule :=
    exists_of_isOk (by decide +kernel)
  have hzero : Interval.Contains ⟨.int 0, .int 10, true, true⟩ (.int 0) := by decide
  exact ⟨rule, hrule, (check_in_range isContinuous_marksOutOfTen rfl rfl hzero hrule).1⟩

/-- The text is cast to a NaN, which is out of every range and passes all the same. -/
theorem check_marksOutOfTen_nan : ∃ rule, marksOutOfTen.rule true = .ok rule ∧
    rule.check .standard (.text "nan") "" = .ok (.double .nan) ∧
    ∀ x, .double .nan = Value.ofNumber x → ¬ Interval.Contains ⟨.int 0, .int 10, true, true⟩ x := by
  obtain ⟨rule, hrule⟩ : ∃ rule, marksOutOfTen.rule true = .ok rule :=
    exists_of_isOk (by decide +kernel)
  refine ⟨rule, hrule, ?_, fun x hx => Interval.not_contains_of_nan hx _⟩
  have hrenders := renders_of_rule hrule
  have hcast : Rule.cast .standard rule.kind rule.casts (.text "nan") "" =
      Rule.cast .standard rule.kind rule.casts (.double .nan) "" := by
    rw [hrenders.kind, hrenders.casts]
    rfl
  rw [Rule.check_eq_of_cast rfl rfl hcast]
  exact isContinuous_marksOutOfTen.check_nan isOfNumbers_marksOutOfTen (by decide)
    (by simp [marksOutOfTen]) hrule ""

end Program

end Record

end TermRules
