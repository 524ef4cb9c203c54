import TermRules.Proofs.Number.Magnitude
import TermRules.Proofs.Number.Order
import TermRules.Proofs.Registry.Extension
import TermRules.Proofs.Rule.Bounds
import TermRules.Proofs.Text.Lower

/-!
What the hooks of the standard taxonomy do to texts and to numbers. A value that has passed through
them passes through them again unchanged, and through any selection of them. Numbers keep their
point, and of a number's form only a whole double changes.
-/

namespace TermRules

open Registry (standardCasts standardCustoms)

namespace Rule

variable {hooks : Hooks} {path : String} {names more : List String} {v w : Value}

theorem runCasts_cons_ok {name : String} :
    runCasts hooks path (name :: names) v = .ok w ↔
      ∃ c u, Hooks.lookup hooks.casts name = .ok c ∧ c.apply v path = .ok u ∧
        runCasts hooks path names u = .ok w := by
  simp only [runCasts, bind_eq_ok_iff, exists_and_left]

theorem runCustoms_cons_ok [Library] {name : String} :
    runCustoms hooks path (name :: names) v = .ok w ↔
      ∃ c u, Hooks.lookup hooks.customs name = .ok c ∧ c.apply v path = .ok u ∧
        runCustoms hooks path names u = .ok w := by
  simp only [runCustoms, bind_eq_ok_iff, exists_and_left]

/-- Each of the casts leaves the value as it is. -/
def CastsSettled (hooks : Hooks) (path : String) (names : List String) (v : Value) : Prop :=
  ∀ name ∈ names, ∃ c, Hooks.lookup hooks.casts name = .ok c ∧ c.apply v path = .ok v

/-- Each of the custom hooks leaves the value as it is. -/
def CustomsSettled [Library] (hooks : Hooks) (path : String) (names : List String) (v : Value) :
    Prop :=
  ∀ name ∈ names, ∃ c, Hooks.lookup hooks.customs name = .ok c ∧ c.apply v path = .ok v

private theorem CastsSettled.runCasts (h : CastsSettled hooks path names v) :
    runCasts hooks path names v = .ok v := by
  induction names with
  | nil => rfl
  | cons name names ih =>
      obtain ⟨⟨c, hlookup, happly⟩, hnames⟩ := List.forall_mem_cons.mp h
      exact runCasts_cons_ok.mpr ⟨c, v, hlookup, happly, ih hnames⟩

theorem CustomsSettled.mono [Library] (h : CustomsSettled hooks path names v)
    (hmore : more ⊆ names) : CustomsSettled hooks path more v :=
  fun name hname => h name (hmore hname)

theorem CustomsSettled.runCustoms [Library] (h : CustomsSettled hooks path names v) :
    runCustoms hooks path names v = .ok v := by
  induction names with
  | nil => rfl
  | cons name names ih =>
      obtain ⟨⟨c, hlookup, happly⟩, hnames⟩ := List.forall_mem_cons.mp h
      exact runCustoms_cons_ok.mpr ⟨c, v, hlookup, happly, ih hnames⟩

/-- For any kind but the wildcard a cast that succeeds has run all its hooks. -/
theorem runCasts_of_cast {kind : Kind} (hkind : kind ≠ .any)
    (h : cast hooks kind names v path = .ok w) : runCasts hooks path names v = .ok w := by
  unfold cast at h
  split at h
  · rename_i hnone
    have hnames : names = [] := by simpa [hkind] using hnone
    rw [hnames]
    exact h
  · split at h
    · exact h
    · contradiction

theorem cast_of_settled {kind : Kind} (hscalar : ∃ s, v = .scalar s)
    (h : CastsSettled hooks path names v) : cast hooks kind names v path = .ok v := by
  obtain ⟨s, rfl⟩ := hscalar
  rw [cast]
  split
  · rfl
  · exact h.runCasts

section Text

/-- A text without capital ASCII letters. -/
def IsLowered (v : Value) : Prop :=
  ∃ s, v = .text s ∧ ∀ c ∈ s.toList, ¬ Text.IsCapital c

private theorem isLowered_lower (s : String) : IsLowered (.text (Text.lower s)) := by
  refine ⟨_, rfl, fun c hc => ?_⟩
  rw [Text.lower, String.toList_ofList] at hc
  exact Text.not_capital_of_mem_lowerFrom hc

theorem standard_casts_text {name : String} (h : name ∈ standardCasts .text) :
    ∃ c, Hooks.lookup Hooks.standard.casts name = .ok c ∧
      (c = .string ∧ name ≠ Vocabulary.hook "castHexadecimal" ∨
        c = .hexadecimal ∧ name = Vocabulary.hook "castHexadecimal") := by
  revert name
  simp only [standardCasts, List.forall_mem_cons]
  exact ⟨⟨_, rfl, .inl ⟨rfl, by decide⟩⟩, ⟨_, rfl, .inr (by simp)⟩, by simp⟩

theorem runCasts_text (hnames : names ⊆ standardCasts .text)
    (h : runCasts .standard path names v = .ok w)
    (hlowered : Vocabulary.hook "castHexadecimal" ∈ names ∨ IsLowered v) : IsLowered w := by
  induction names generalizing v with
  | nil =>
      cases h
      exact hlowered.resolve_left (by simp)
  | cons name names ih =>
      obtain ⟨hname, hnames⟩ := List.cons_subset.mp hnames
      obtain ⟨c, u, hlookup, happly, h⟩ := runCasts_cons_ok.mp h
      obtain ⟨d, hd, hcases⟩ := standard_casts_text hname
      obtain rfl := Except.ok.inj (hlookup.symm.trans hd)
      rcases hcases with ⟨rfl, hne⟩ | ⟨rfl, -⟩
      · refine ih hnames h ?_
        rcases hlowered with hmem | ⟨s, rfl, hs⟩
        · exact .inl ((List.mem_cons.mp hmem).resolve_left (Ne.symm hne))
        · cases happly
          exact .inr ⟨s, rfl, hs⟩
      · cases happly
        exact ih hnames h (.inr (isLowered_lower _))

theorem castsSettled_text {s : String} (hnames : names ⊆ standardCasts .text)
    (hlower : Vocabulary.hook "castHexadecimal" ∈ names → Text.lower s = s) :
    CastsSettled .standard path names (.text s) := by
  intro name hname
  obtain ⟨c, hlookup, hcases⟩ := standard_casts_text (hnames hname)
  refine ⟨c, hlookup, ?_⟩
  rcases hcases with ⟨rfl, -⟩ | ⟨rfl, rfl⟩
  · rfl
  · have hs := hlower hname
    change Except.ok (Value.text (Text.lower s)) = _
    rw [hs]

theorem standard_customs_text {name : String} (h : name ∈ standardCustoms .text) :
    ∃ c, Hooks.lookup Hooks.standard.customs name = .ok c ∧
      (c = .address ∨ c = .hexadecimal ∨ c = .email) := by
  revert name
  simp only [standardCustoms, List.forall_mem_cons]
  exact ⟨⟨_, rfl, by simp⟩, ⟨_, rfl, by simp⟩, ⟨_, rfl, by simp⟩, by simp⟩

private theorem customDemand_eq_ok_iff {accepted : Bool} {reason : Reason} :
    Custom.demand accepted reason v path = .ok w ↔ accepted = true ∧ v = w := by
  cases accepted <;> simp [Custom.demand]

theorem apply_text_eq [Library] {c : Custom} (hc : c = .address ∨ c = .hexadecimal ∨ c = .email)
    (h : c.apply v path = .ok w) : w = v := by
  rcases hc with rfl | rfl | rfl
  · simp only [Custom.apply, Custom.acceptAddress] at h
    split at h
    · contradiction
    · exact (customDemand_eq_ok_iff.mp h).2.symm
  · exact (customDemand_eq_ok_iff.mp h).2.symm
  · exact (customDemand_eq_ok_iff.mp h).2.symm

/-- The custom hooks of texts accept or reject, and change nothing. -/
theorem runCustoms_text [Library] (hnames : names ⊆ standardCustoms .text)
    (h : runCustoms .standard path names v = .ok w) :
    w = v ∧ CustomsSettled .standard path names w := by
  induction names generalizing v with
  | nil =>
      cases h
      exact ⟨rfl, by simp [CustomsSettled]⟩
  | cons name names ih =>
      obtain ⟨hname, hnames⟩ := List.cons_subset.mp hnames
      obtain ⟨c, u, hlookup, happly, hrest⟩ := runCustoms_cons_ok.mp h
      obtain ⟨d, hd, hcases⟩ := standard_customs_text hname
      obtain rfl := Except.ok.inj (hlookup.symm.trans hd)
      obtain rfl := apply_text_eq hcases happly
      obtain ⟨rfl, hsettled⟩ := ih hnames hrest
      exact ⟨rfl, List.forall_mem_cons.mpr ⟨⟨c, hlookup, happly⟩, hsettled⟩⟩

end Text

section Numeric

/-- `y` is `x`, or the whole number that the double `x` equals. -/
def WholeFormOf (y x : Number) : Prop :=
  y = x ∨ ∃ d n, x = .double d ∧ d.toInt? = some n ∧ y = .int n

theorem WholeFormOf.point? {x y : Number} (h : WholeFormOf y x) : y.point? = x.point? := by
  rcases h with rfl | ⟨d, n, rfl, hn, rfl⟩
  · rfl
  · exact (Double.point?_of_toInt? hn).symm

theorem standard_customs_numeric {name : String} (h : name ∈ standardCustoms .numeric) :
    ∃ c, Hooks.lookup Hooks.standard.customs name = .ok c ∧
      (c = .integer ∨ c = .timestamp) := by
  revert name
  simp only [standardCustoms, List.forall_mem_cons]
  exact ⟨⟨_, rfl, by simp⟩, ⟨_, rfl, by simp⟩, by simp⟩

theorem WholeFormOf.trans {x y z : Number} (h : WholeFormOf z y) (h' : WholeFormOf y x) :
    WholeFormOf z x := by
  rcases h with rfl | ⟨d, n, rfl, hn, rfl⟩
  · exact h'
  · rcases h' with rfl | ⟨_, _, _, _, heq⟩
    · exact .inr ⟨d, n, rfl, hn, rfl⟩
    · cases heq

private theorem WholeFormOf.eq_int {y : Number} {n : Int} (h : WholeFormOf y (.int n)) :
    y = .int n := by
  rcases h with h | ⟨d, m, h, -, -⟩
  · exact h
  · contradiction

/-- Making a number whole takes hold at once. -/
theorem apply_integer_eq_ok [Library] {x : Number}
    (h : Custom.integer.apply (.ofNumber x) path = .ok w) :
    ∃ y, w = .ofNumber y ∧ WholeFormOf y x ∧ ∀ z, WholeFormOf z y →
      Custom.integer.apply (.ofNumber z) path = .ok (.ofNumber z) := by
  obtain ⟨n, rfl, hform⟩ : ∃ n : Int, w = .int n ∧ WholeFormOf (.int n) x := by
    cases x with
    | int n =>
        cases h
        exact ⟨n, rfl, .inl rfl⟩
    | double d =>
        simp only [Custom.apply, Value.ofNumber, Custom.acceptInteger] at h
        split at h
        · rename_i n hn
          cases h
          exact ⟨n, rfl, .inr ⟨d, n, rfl, hn, rfl⟩⟩
        · contradiction
  refine ⟨.int n, rfl, hform, fun z hz => ?_⟩
  rw [hz.eq_int]
  rfl

theorem apply_timestamp_iff [Library] {x : Number} :
    Custom.timestamp.apply (.ofNumber x) path = .ok w ↔
      x.below (.int 0) = false ∧ .ofNumber x = w := by
  have hbelow : (Value.ofNumber x).below? (.int 0) = some (x.below (.int 0)) :=
    Value.below?_ofNumber (Value.number?_ofNumber x) (.int 0)
  simp only [Custom.apply, Custom.acceptTimestamp, hbelow, customDemand_eq_ok_iff,
    Bool.not_eq_true']

private theorem WholeFormOf.below {x y : Number} (h : WholeFormOf y x) (limit : Number) :
    y.below limit = x.below limit := by
  rw [Number.below, h.point?, Number.below]

/-- The custom hooks of numbers leave a number that they leave alone, in whole form if it
has one. -/
theorem runCustoms_numeric [Library] {x : Number} (hnames : names ⊆ standardCustoms .numeric)
    (h : runCustoms .standard path names (.ofNumber x) = .ok w) :
    ∃ y, w = .ofNumber y ∧ WholeFormOf y x ∧
      CustomsSettled .standard path names (.ofNumber y) := by
  induction names generalizing x with
  | nil =>
      cases h
      exact ⟨x, rfl, .inl rfl, by simp [CustomsSettled]⟩
  | cons name names ih =>
      obtain ⟨hname, hnames⟩ := List.cons_subset.mp hnames
      obtain ⟨c, u, hlookup, happly, hrest⟩ := runCustoms_cons_ok.mp h
      obtain ⟨d, hd, hcases⟩ := standard_customs_numeric hname
      obtain rfl := Except.ok.inj (hlookup.symm.trans hd)
      rcases hcases with rfl | rfl
      · obtain ⟨y, rfl, hyx, hstable⟩ := apply_integer_eq_ok happly
        obtain ⟨z, rfl, hzy, hsettled⟩ := ih hnames hrest
        exact ⟨z, rfl, hzy.trans hyx,
          List.forall_mem_cons.mpr ⟨⟨.integer, hlookup, hstable z hzy⟩, hsettled⟩⟩
      · obtain ⟨hbelow, rfl⟩ := apply_timestamp_iff.mp happly
        obtain ⟨z, rfl, hzx, hsettled⟩ := ih hnames hrest
        have hz : Custom.timestamp.apply (.ofNumber z) path = .ok (.ofNumber z) :=
          apply_timestamp_iff.mpr ⟨(hzx.below _).trans hbelow, rfl⟩
        exact ⟨z, rfl, hzx, List.forall_mem_cons.mpr ⟨⟨.timestamp, hlookup, hz⟩, hsettled⟩⟩

theorem castsSettled_numeric {x : Number} (hnames : names ⊆ standardCasts .numeric) :
    CastsSettled .standard path names (.ofNumber x) := by
  intro name hname
  obtain rfl : name = Vocabulary.hook "castNumber" := List.mem_singleton.mp (hnames hname)
  exact ⟨.number, rfl, by cases x <;> rfl⟩

/-- A number that casts make of a value on the grid is on the grid. -/
theorem onGrid_of_runCasts_numeric (hnames : names ⊆ standardCasts .numeric)
    (h : runCasts .standard path names v = .ok w) (hv : ∀ d, v = .double d → d.OnGrid) :
    ∀ d, w = .double d → d.OnGrid := by
  induction names generalizing v with
  | nil =>
      cases h
      exact hv
  | cons name names ih =>
      obtain ⟨hname, hmore⟩ := List.cons_subset.mp hnames
      obtain ⟨c, u, hlookup, happly, hrest⟩ := runCasts_cons_ok.mp h
      obtain rfl : name = Vocabulary.hook "castNumber" := List.mem_singleton.mp hname
      obtain rfl : .number = c := Except.ok.inj hlookup
      refine ih hmore hrest ?_
      simp only [Cast.apply, Cast.toNumber] at happly
      split at happly
      · cases happly
        exact hv
      · cases happly
        exact hv
      · split at happly
        · rename_i x hx
          cases happly
          intro d hd
          cases x with
          | int n => cases hd
          | double e =>
              cases hd
              exact Reading.onGrid_of_number? hx
        · contradiction
      · contradiction

end Numeric

end Rule

end TermRules
