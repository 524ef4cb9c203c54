import TermRules.Proofs.Pairing
import TermRules.Proofs.Rule.Checking
import TermRules.Proofs.Rule.Labels

/-!
The parts of a value under the rules for parts. A path only says where a value stands: whether a
check succeeds, and with what, is the same under every path. So the items of a list and the entries
of a mapping are checked one by one, each by itself.
-/

namespace TermRules

variable {hooks : Hooks} {p q path : String} {v w : Value}

private theorem Custom.apply_scalar [Library] {c : Custom} {s : Scalar}
    (h : c.apply (.scalar s) p = .ok w) : ∃ t, w = .scalar t := by
  have hdemand {accepted : Bool} {reason : Reason}
      (h : demand accepted reason (.scalar s) p = .ok w) : ∃ t, w = .scalar t := by
    cases accepted with
    | true => exact ⟨s, (Except.ok.inj h).symm⟩
    | false => contradiction
  cases c with
  | address =>
      simp only [apply, acceptAddress] at h
      split at h
      · contradiction
      · exact hdemand h
  | hexadecimal | email => exact hdemand h
  | integer =>
      simp only [apply, acceptInteger] at h
      split at h
      · split at h
        · exact ⟨_, (Except.ok.inj h).symm⟩
        · contradiction
      · exact ⟨s, (Except.ok.inj h).symm⟩
  | timestamp =>
      simp only [apply, acceptTimestamp] at h
      split at h
      · contradiction
      · exact hdemand h

private theorem Cast.apply_scalar {c : Cast} (h : c.apply v p = .ok w) : ∃ t, w = .scalar t := by
  cases c with
  | string | boolean | hexadecimal => exact ⟨_, (Except.ok.inj h).symm⟩
  | number =>
      simp only [apply, toNumber] at h
      split at h
      · exact ⟨_, (Except.ok.inj h).symm⟩
      · exact ⟨_, (Except.ok.inj h).symm⟩
      · split at h
        · rename_i x _
          cases x <;> exact ⟨_, (Except.ok.inj h).symm⟩
        · contradiction
      · contradiction

namespace Rule

theorem cast_path_iff {kind : Kind} {casts : List String} :
    cast hooks kind casts v p = .ok w ↔ cast hooks kind casts v q = .ok w :=
  (onlyLabels_castAll kind casts v).eq_ok_iff

/-- Whether a step succeeds, and with what, is the same under every path. -/
def IgnoresPath (step : Value → String → Except Failure Value) : Prop :=
  ∀ (v w : Value) (p q : String), step v p = .ok w ↔ step v q = .ok w

section Steps

variable {step onKey onValue : Value → String → Except Failure Value}

/-- The items are checked each by itself; the path `q` stands for any other. -/
theorem mapItems_eq_ok_iff (hstep : IgnoresPath step) (q : String) {index : Nat}
    {vs ws : List Value} :
    mapItems step path index vs = .ok ws ↔
      List.Forall₂ (fun v w => step v q = .ok w) vs ws := by
  induction vs generalizing index ws with
  | nil => simp [mapItems, eq_comm]
  | cons v vs ih =>
      simp only [mapItems, bind_eq_ok_iff, pure_eq_ok_iff, ih, List.forall₂_cons_left_iff,
        hstep _ _ _ q, exists_and_left]
      grind

/-- The entries are checked each by itself and then put together in order. -/
theorem mapEntries_eq_ok_iff (hkey : IgnoresPath onKey) (hvalue : IgnoresPath onValue)
    (q : String) {done es out : Entries} :
    mapEntries onKey onValue path done es = .ok out ↔
      ∃ checked : Entries, List.Forall₂ (fun e c =>
          (∃ key, onKey (.scalar e.1) q = .ok key ∧ keyOf e.1 key = c.1) ∧
            onValue e.2 q = .ok c.2) es checked ∧
        checked.foldl (fun es c => es.insert c.1 c.2) done = out := by
  induction es generalizing done with
  | nil => simp [mapEntries]
  | cons e es ih =>
      simp only [mapEntries, bind_eq_ok_iff, ih, List.forall₂_cons_left_iff, hkey _ _ _ q,
        hvalue _ _ _ q]
      constructor
      · rintro ⟨key, hkey, w, hw, checked, hchecked, hout⟩
        exact ⟨(keyOf e.1 key, w) :: checked, ⟨_, _, ⟨⟨key, hkey, rfl⟩, hw⟩, hchecked, rfl⟩, hout⟩
      · rintro ⟨_, ⟨c, checked, ⟨⟨key, hkey, hc⟩, hw⟩, hchecked, rfl⟩, hout⟩
        exact ⟨key, hkey, c.2, hw, checked, hchecked, by simpa [hc] using hout⟩

end Steps

private theorem runCasts_scalar {names : List String} {s : Scalar}
    (h : runCasts hooks path names (.scalar s) = .ok w) : ∃ t, w = .scalar t := by
  induction names generalizing s with
  | nil => exact ⟨s, (Except.ok.inj h).symm⟩
  | cons name names ih =>
      obtain ⟨c, -, h⟩ := bind_eq_ok_iff.mp h
      obtain ⟨u, hu, h⟩ := bind_eq_ok_iff.mp h
      obtain ⟨t, rfl⟩ := Cast.apply_scalar hu
      exact ih h

private theorem runCustoms_scalar [Library] {names : List String} {s : Scalar}
    (h : runCustoms hooks path names (.scalar s) = .ok w) : ∃ t, w = .scalar t := by
  induction names generalizing s with
  | nil => exact ⟨s, (Except.ok.inj h).symm⟩
  | cons name names ih =>
      obtain ⟨c, -, h⟩ := bind_eq_ok_iff.mp h
      obtain ⟨u, hu, h⟩ := bind_eq_ok_iff.mp h
      obtain ⟨t, rfl⟩ := Custom.apply_scalar hu
      exact ih h

/-- Containers cannot be cast: what is not left as it is becomes a scalar. -/
theorem eq_or_scalar_of_cast {kind : Kind} {names : List String}
    (h : cast hooks kind names v path = .ok w) : w = v ∨ ∃ t, w = .scalar t := by
  unfold cast at h
  split at h
  · exact .inl (Except.ok.inj h).symm
  · split at h
    · exact .inr (runCasts_scalar h)
    · contradiction

private theorem cast_scalar {kind : Kind} {names : List String} {s : Scalar}
    (h : cast hooks kind names (.scalar s) path = .ok w) : ∃ t, w = .scalar t :=
  (eq_or_scalar_of_cast h).elim (fun heq => ⟨s, heq⟩) id

theorem checkParts_scalar [Library] (r : Rule) (s : Scalar) :
    checkParts hooks r (.scalar s) path = .ok (.scalar s) := by
  unfold checkParts
  cases r.kind <;> rfl

/-- No rule makes anything but a scalar of a scalar. -/
theorem check_scalar [Library] {r : Rule} {s : Scalar}
    (h : r.check hooks (.scalar s) path = .ok w) : ∃ t, w = .scalar t := by
  by_cases hnull : (Value.scalar s).isNull = true
  · exact ⟨s, eq_of_check_null h hnull⟩
  · rw [Bool.not_eq_true] at hnull
    obtain ⟨u, hcast, -, -, x, hx, hcustoms⟩ := (check_eq_ok_iff_parts hnull).mp h
    obtain ⟨t, rfl⟩ := cast_scalar hcast
    rw [checkParts_scalar] at hx
    obtain rfl := Except.ok.inj hx
    exact runCustoms_scalar hcustoms

private theorem checkPart_scalar [Library] {part : Option Rule} {s : Scalar}
    (h : checkPart hooks part (.scalar s) path = .ok w) : ∃ t, w = .scalar t := by
  cases part with
  | none => exact ⟨s, (Except.ok.inj h).symm⟩
  | some r => exact check_scalar h

/-- A rule for the items, the keys or the values of another one. -/
def IsPartOf (s r : Rule) : Prop :=
  r.items = some s ∨ r.keys = some s ∨ r.values = some s

private theorem sizeOf_lt_of_isPartOf {s r : Rule} (h : s.IsPartOf r) : sizeOf s < sizeOf r := by
  obtain ⟨kind, ds, refs, casts, customs, items, keys, values⟩ := r
  rcases h with h | h | h <;>
  · dsimp only at h
    subst h
    simp only [mk.sizeOf_spec, Option.some.sizeOf_spec]
    omega

/-- What a rule has whenever its parts have it, every rule has. -/
theorem induct {P : Rule → Prop} (step : ∀ r, (∀ s : Rule, s.IsPartOf r → P s) → P r) (r : Rule) :
    P r :=
  step r fun s hs =>
    have := sizeOf_lt_of_isPartOf hs
    induct step s
termination_by sizeOf r

private theorem ignoresPath_checkPart_of [Library] {part : Option Rule}
    (h : ∀ s, part = some s → IgnoresPath (s.check hooks)) :
    IgnoresPath (checkPart hooks part) := by
  intro v w p q
  cases part with
  | none => rfl
  | some s => exact h s rfl v w p q

private theorem ignoresPath_checkParts_of [Library] {r : Rule}
    (h : ∀ s : Rule, s.IsPartOf r → IgnoresPath (s.check hooks)) :
    IgnoresPath (r.checkParts hooks) := by
  have hitems := ignoresPath_checkPart_of fun s hs => h s (.inl hs)
  have hkeys := ignoresPath_checkPart_of fun s hs => h s (.inr (.inl hs))
  have hvalues := ignoresPath_checkPart_of fun s hs => h s (.inr (.inr hs))
  intro v w p q
  unfold checkParts
  split
  · simp only [map_eq_ok_iff, mapItems_eq_ok_iff hitems ""]
  · split
    · rfl
    · simp only [map_eq_ok_iff, mapEntries_eq_ok_iff hkeys hvalues ""]
  · rfl

private theorem ignoresPath_check [Library] (hooks : Hooks) (r : Rule) :
    IgnoresPath (r.check hooks) := by
  induction r using induct with
  | step r ih =>
      intro v w p q
      have hparts {u x : Value} : r.checkParts hooks u p = .ok x ↔ r.checkParts hooks u q = .ok x :=
        ignoresPath_checkParts_of ih u x p q
      by_cases hnull : v.isNull = true
      · obtain ⟨kind, ds, refs, casts, customs, items, keys, values⟩ := r
        simp only [check, hnull, if_true]
        split <;> simp
      · rw [Bool.not_eq_true] at hnull
        have hcheck (d : Directive) {u : Value} : d.check u p = .ok () ↔ d.check u q = .ok () :=
          (d.onlyLabels_check u).eq_ok_iff
        have hcustoms {x : Value} : runCustoms hooks p r.customs x = .ok w ↔
            runCustoms hooks q r.customs x = .ok w := (onlyLabels_runCustoms r.customs x).eq_ok_iff
        simp only [check_eq_ok_iff_parts hnull, cast_path_iff (p := p) (q := q), hparts, hcheck,
          hcustoms]

private theorem ignoresPath_checkPart [Library] (hooks : Hooks) (part : Option Rule) :
    IgnoresPath (checkPart hooks part) :=
  ignoresPath_checkPart_of fun s _ => ignoresPath_check hooks s

theorem ignoresPath_checkParts [Library] (hooks : Hooks) (r : Rule) :
    IgnoresPath (r.checkParts hooks) :=
  ignoresPath_checkParts_of fun s _ => ignoresPath_check hooks s

/-- A rule that runs no hooks of its own. -/
structure IsHookless (r : Rule) : Prop where
  casts : r.casts = []
  customs : r.customs = []

theorem IsHookless.of_subset_nil {r : Rule} (h : r.casts ⊆ [] ∧ r.customs ⊆ []) : r.IsHookless :=
  ⟨List.subset_nil.mp h.1, List.subset_nil.mp h.2⟩

/-- Without hooks the directives are held against the value itself, and only if it is of
the kind. -/
theorem IsHookless.check_eq [Library] {r : Rule} (h : r.IsHookless) (hnull : v.isNull = false) :
    r.check hooks v path =
      if r.kind.admits v then
        Directive.checkAll v path r.directives >>= fun _ => r.checkParts hooks v path
      else .error (.rejected (.wrongKind r.kind) path v) := by
  have hcast : cast hooks r.kind r.casts v path = .ok v := by
    simp [cast, h.casts]
  rw [check_eq_stages hnull, hcast, h.customs]
  change (if r.kind.admits v then _ else _) = _
  refine if_congr Iff.rfl (bind_congr fun _ => ?_) rfl
  cases r.checkParts hooks v path <;> rfl

theorem IsHookless.check_eq_ok_iff [Library] {r : Rule} (h : r.IsHookless)
    (hnull : v.isNull = false) :
    r.check hooks v path = .ok w ↔ r.kind.admits v = true ∧
      (∀ d ∈ r.directives, d.check v path = .ok ()) ∧ r.checkParts hooks v path = .ok w := by
  rw [h.check_eq hnull]
  split
  · rename_i hadmits
    rw [bind_unit_eq_ok_iff, Directive.checkAll_eq_ok_iff]
    simp [hadmits]
  · rename_i hadmits
    simp [hadmits]

/-- What checking makes of the items of a list, one by one. -/
def ItemsCheck [Library] (hooks : Hooks) (r : Rule) : List Value → List Value → Prop :=
  List.Forall₂ fun v w => checkPart hooks r.items v "" = .ok w

/-- What checking makes of the entries of a mapping, one by one. -/
def EntriesCheck [Library] (hooks : Hooks) (r : Rule) : Entries → Entries → Prop :=
  List.Forall₂ fun e c => checkPart hooks r.keys (.scalar e.1) "" = .ok (.scalar c.1) ∧
    checkPart hooks r.values e.2 "" = .ok c.2

theorem checkParts_list_iff [Library] {r : Rule} (hkind : r.kind = .array) {vs : List Value} :
    r.checkParts hooks (.list vs) path = .ok w ↔ ∃ ws, r.ItemsCheck hooks vs ws ∧ .list ws = w := by
  have hitems := ignoresPath_checkPart hooks r.items
  simp only [checkParts, hkind, map_eq_ok_iff, mapItems_eq_ok_iff hitems "", ItemsCheck]

theorem checkParts_mapping_iff [Library] {r : Rule} (hkind : r.kind = .object)
    (haxes : (r.keys.isNone && r.values.isNone) = false) {es : Entries} :
    r.checkParts hooks (.mapping es) path = .ok w ↔
      ∃ checked, r.EntriesCheck hooks es checked ∧ .mapping (Entries.ofList checked) = w := by
  have hkeys := ignoresPath_checkPart hooks r.keys
  have hvalues := ignoresPath_checkPart hooks r.values
  have hkey {k : Scalar} {c : Scalar} :
      (∃ key, checkPart hooks r.keys (.scalar k) "" = .ok key ∧ keyOf k key = c) ↔
        checkPart hooks r.keys (.scalar k) "" = .ok (.scalar c) := by
    constructor
    · rintro ⟨key, hchecks, rfl⟩
      obtain ⟨t, rfl⟩ := checkPart_scalar hchecks
      exact hchecks
    · exact fun hchecks => ⟨_, hchecks, rfl⟩
  simp only [checkParts, hkind, haxes, Bool.false_eq_true, if_false, map_eq_ok_iff,
    mapEntries_eq_ok_iff hkeys hvalues "", hkey, EntriesCheck]
  constructor
  · rintro ⟨_, ⟨checked, hchecked, rfl⟩, hw⟩
    exact ⟨checked, hchecked, hw⟩
  · rintro ⟨checked, hchecked, hw⟩
    exact ⟨_, ⟨checked, hchecked, rfl⟩, hw⟩

end Rule

end TermRules
