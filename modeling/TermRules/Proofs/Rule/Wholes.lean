import TermRules.Proofs.Rule.Coherence
import TermRules.Proofs.Rule.Failing
import TermRules.Proofs.Rule.Settling

/-!
Rules for whole numbers. A value is cast to a number, held against bounds that are whole or infinite
and made an integer: each stage sees it in another form, and all of them see the same point. Nothing
but a rejection goes wrong on the way.
-/

namespace TermRules

variable {v u w : Value} {path : String} {x : Number} {n : ℤ}

private theorem Double.toInt?_eq_some_iff {d : Double} :
    d.toInt? = some n ↔ d.point? = some (.at n) := by
  refine ⟨point?_of_toInt?, fun h => ?_⟩
  cases d with
  | nan => contradiction
  | infinite negative => cases negative <;> cases h
  | negativeZero =>
      have hn : (0 : ℚ) = n := Point.at.inj (Option.some.inj h)
      rw [toInt?, Int.cast_eq_zero.mp hn.symm]
  | finite q =>
      obtain rfl : q = n := Point.at.inj (Option.some.inj h)
      simp [toInt?]

private theorem Number.same_int_iff : x.same (.int n) = true ↔ x.point? = some (.at n) := by
  cases hx : x.point? with
  | none => simp [Number.IsNaN.not_same_left hx]
  | some p => rw [same_iff_eq hx rfl, Option.some.injEq]

section Casting

private theorem lands_toNumber (v : Value) (path : String) :
    Lands Failure.IsRejection (fun u => ∃ x, u = .ofNumber x) (Cast.toNumber v path) := by
  simp only [Cast.toNumber]
  split
  · exact ⟨.int _, rfl⟩
  · exact ⟨.double _, rfl⟩
  · split
    · exact ⟨_, rfl⟩
    · trivial
  · trivial

/-- Neither truth values nor containers can be made numbers. -/
theorem kinds_of_toNumber (h : Cast.toNumber v path = .ok u) :
    (∀ b, v ≠ .bool b) ∧ (∀ items, v ≠ .list items) ∧ ∀ es, v ≠ .mapping es := by
  refine ⟨?_, ?_, ?_⟩ <;>
  · rintro _ rfl
    contradiction

private theorem castNumber_scalar (s : Scalar) (path : String) :
    Rule.cast .standard .number [Vocabulary.hook "castNumber"] (.scalar s) path =
      Cast.toNumber (.scalar s) path := by
  change (Cast.toNumber (.scalar s) path >>= fun u => .ok u) = _
  cases Cast.toNumber (.scalar s) path <;> rfl

private theorem castNumber_eq_ok_iff :
    Rule.cast .standard .number [Vocabulary.hook "castNumber"] v path = .ok u ↔
      Cast.toNumber v path = .ok u := by
  cases v with
  | scalar s => rw [castNumber_scalar]
  | list _ | mapping _ => exact iff_of_false nofun nofun

private theorem lands_castNumber (v : Value) (path : String) :
    Lands Failure.IsRejection (fun u => ∃ x, u = .ofNumber x)
      (Rule.cast .standard .number [Vocabulary.hook "castNumber"] v path) := by
  cases v with
  | scalar s => exact castNumber_scalar s path ▸ lands_toNumber (.scalar s) path
  | list _ | mapping _ => trivial

end Casting

private theorem acceptInteger_eq_ok_iff : Custom.acceptInteger (.ofNumber x) path = .ok w ↔
    ∃ n : ℤ, x.point? = some (.at n) ∧ w = .int n := by
  cases x with
  | int k => simp [Custom.acceptInteger, Value.ofNumber, Number.point?, eq_comm]
  | double d =>
      simp only [Value.ofNumber, Custom.acceptInteger, Number.point?, ← Double.toInt?_eq_some_iff]
      cases d.toInt? with
      | none => simp
      | some k => simp [eq_comm]

private theorem customInt_eq_ok_iff [Library] :
    Rule.runCustoms .standard path [Vocabulary.hook "customInt"] (.ofNumber x) = .ok w ↔
      ∃ n : ℤ, x.point? = some (.at n) ∧ w = .int n := by
  refine Iff.trans
    ?_ (acceptInteger_eq_ok_iff : Custom.acceptInteger (.ofNumber x) path = .ok w ↔ _)
  change (Custom.acceptInteger (.ofNumber x) path >>= fun u => .ok u) = .ok w ↔ _
  cases Custom.acceptInteger (.ofNumber x) path <;> rfl

private theorem checkWhole_eq_ok_iff [Library] :
    (Directive.mk .integer .null).check (.ofNumber x) path = .ok () ↔
    ∃ n : ℤ, x.point? = some (.at n) := by
  rw [Record.check_integer_iff]
  cases x with
  | int k => simp [Value.ofNumber, Number.point?]
  | double d =>
      simp [Value.ofNumber, Option.isSome_iff_exists, Double.toInt?_eq_some_iff, Number.point?]

namespace Rule

/-- A rule for whole numbers that meet the bounds, with the hooks for them. -/
structure IsOfWholes (rule : Rule) (bounds : List Directive) : Prop where
  flat : rule.IsFlat
  kind : rule.kind = .number
  directives : rule.directives = bounds ++ [⟨.integer, .null⟩]
  casts : rule.casts = [Vocabulary.hook "castNumber"]
  customs : rule.customs = [Vocabulary.hook "customInt"]

namespace IsOfWholes

variable {rule : Rule} {bounds : List Directive} {i : Interval Number} {m : Number} {adjust : Bool}

/-- The directives look for whole members of the interval. -/
theorem directives_accept_iff [Library] (h : rule.IsOfWholes bounds)
    (hbounds : i.directives .range true = .ok bounds) (hlower : i.lower.IsWholeBound)
    (hupper : i.upper.IsWholeBound) (hm : i.Contains m) (path : String) :
    (∀ d ∈ rule.directives, d.check (.ofNumber x) path = .ok ()) ↔
      ∃ n : ℤ, x.point? = some (.at n) ∧ i.Contains (.int n) := by
  have hfree : i.NaNFree := ⟨hlower.not_isNaN, hupper.not_isNaN⟩
  have hx : BoundNames.range.point.quantity? (.ofNumber x) = some x :=
    DirectiveName.quantity?_ofNumber rfl x
  have hcontains {n : ℤ} (hp : x.point? = some (.at n)) :
      (∀ d ∈ bounds, d.check (.ofNumber x) path = .ok ()) ↔ i.Contains (.int n) := by
    rw [Interval.directives_accept_iff BoundNames.lawful_range hbounds hfree hm hx hp
      (fun _ _ => ⟨hlower, hupper, n, rfl⟩) path, ← Interval.contains_congr (x := .int n) hp i]
    exact Interval.contains_relax_false_iff hfree hp
  rw [h.directives, List.forall_mem_append, List.forall_mem_singleton, checkWhole_eq_ok_iff]
  constructor
  · rintro ⟨hmet, n, hp⟩
    exact ⟨n, hp, (hcontains hp).mp hmet⟩
  · rintro ⟨n, hp, hn⟩
    exact ⟨(hcontains hp).mpr hn, n, hp⟩

/-- What passes is an integer of the interval that the value is cast to. -/
theorem check_eq_ok_iff [Library] (h : rule.IsOfWholes bounds)
    (hbounds : i.directives .range true = .ok bounds) (hlower : i.lower.IsWholeBound)
    (hupper : i.upper.IsWholeBound) (hm : i.Contains m) (hnull : v.isNull = false) :
    rule.check .standard v path = .ok w ↔ ∃ n : ℤ, w = .int n ∧ i.Contains (.int n) ∧
        ∃ x, Cast.toNumber v path = .ok (.ofNumber x) ∧ x.same (.int n) = true := by
  have haccept (x : Number) := h.directives_accept_iff (x := x) hbounds hlower hupper hm path
  rw [Rule.check_eq_ok_iff h.flat hnull, h.kind, h.casts, h.customs]
  simp only [castNumber_eq_ok_iff, Number.same_int_iff]
  constructor
  · rintro ⟨u, hcast, -, hds, hcustom⟩
    have hlands := lands_toNumber v path
    rw [hcast] at hlands
    obtain ⟨x, rfl⟩ := hlands
    obtain ⟨n, hp, hn⟩ := (haccept x).mp hds
    obtain ⟨k, hk, rfl⟩ := customInt_eq_ok_iff.mp hcustom
    obtain rfl : n = k := by simpa [hp] using hk
    exact ⟨n, rfl, hn, x, hcast, hp⟩
  · rintro ⟨n, rfl, hn, x, hcast, hp⟩
    exact ⟨.ofNumber x, hcast, Kind.admits_ofNumber x, (haccept x).mpr ⟨n, hp, hn⟩,
      customInt_eq_ok_iff.mpr ⟨n, hp, rfl⟩⟩

/-- A bound of a number, or the demand for a whole one, can only reject it. -/
theorem lands_directive [Library] (h : rule.IsOfWholes bounds)
    (hbounds : i.directives .range adjust = .ok bounds) :
    ∀ d ∈ rule.directives, Lands Failure.IsRejection (fun _ => True)
    (d.check (.ofNumber x) path) := by
  rw [h.directives, List.forall_mem_append, List.forall_mem_singleton]
  constructor
  · intro d hd
    obtain ⟨hvalues, -⟩ := Interval.directives_names hbounds
    obtain ⟨y, hy⟩ := hvalues d hd
    have hbound := Record.bounds_of_boundsOf (k := some i) BoundNames.lawful_range hbounds d hd
    obtain ⟨⟨r, hr⟩, hcount⟩ := hbound
    rw [Directive.check_eq_checkBound hr hcount, hy]
    exact Directive.lands_checkBound (Value.number?_ofNumber x) r y
  · simp only [Directive.check, Directive.checkWhole]
    split
    · exact lands_demand _ _
    · trivial

theorem lands_check [Library] (h : rule.IsOfWholes bounds)
    (hbounds : i.directives .range adjust = .ok bounds) (v : Value) (path : String) :
    Lands Failure.IsRejection (fun _ => True) (rule.check .standard v path) := by
  cases hnull : v.isNull with
  | true => exact (lands_check_null hnull).mono fun f hf => hf ▸ trivial
  | false =>
      rw [check_eq_stages hnull, h.kind, h.casts, h.customs]
      refine (lands_castNumber v path).bind fun u hu => ?_
      obtain ⟨x, rfl⟩ := hu
      rw [if_pos (Kind.admits_ofNumber x)]
      refine (Directive.lands_checkAll (h.lands_directive hbounds)).bind fun _ _ => ?_
      rw [h.flat.checkParts]
      exact lands_runCustoms_numeric (by decide) x

end IsOfWholes

end Rule

end TermRules
