import TermRules.Compiler
import TermRules.Program
import TermRules.Proofs.Rule.Conjunction
import TermRules.Proofs.Rule.Hooks

/-!
A value that a type has let pass is let pass unchanged by every type above it. Types are of texts or
of numbers; their chains may hold any terms beside the standard ones as long as these bring no hooks
of their own.
-/

namespace TermRules

open Registry (standardCasts standardCustoms)

namespace Rule

/-- A rule without nested rules that has the hooks of a chain of one category, and its
directives. -/
structure StandsFor (rule : Rule) (adjust : Bool) (c : Category) (chain : Hierarchy) : Prop where
  flat : rule.IsFlat
  kind : rule.kind = c.kind
  casts : ∀ name, name ∈ rule.casts ↔ ∃ u ∈ chain, name ∈ u.casts
  customs : ∀ name, name ∈ rule.customs ↔ ∃ u ∈ chain, name ∈ u.customs
  directives : (Record.ofRun c chain.reverse).directives adjust = .ok rule.directives

variable {rule below above : Rule} {adjust : Bool} {c : Category} {chain rest : Hierarchy}
  {path : String} {v w : Value}

namespace StandsFor

private theorem hooks_standard (h : rule.StandsFor adjust c chain)
    (hchain : ∀ u ∈ chain, u.casts ⊆ standardCasts c ∧ u.customs ⊆ standardCustoms c) :
    rule.casts ⊆ standardCasts c ∧ rule.customs ⊆ standardCustoms c := by
  constructor
  · intro name hname
    obtain ⟨u, hu, hmem⟩ := (h.casts name).mp hname
    exact (hchain u hu).1 hmem
  · intro name hname
    obtain ⟨u, hu, hmem⟩ := (h.customs name).mp hname
    exact (hchain u hu).2 hmem

private theorem hooks_subset (habove : above.StandsFor adjust c rest)
    (hbelow : below.StandsFor adjust c chain) (hrest : rest ⊆ chain) :
    above.casts ⊆ below.casts ∧ above.customs ⊆ below.customs := by
  constructor
  · intro name hname
    obtain ⟨u, hu, hmem⟩ := (habove.casts name).mp hname
    exact (hbelow.casts name).mpr ⟨u, hrest hu, hmem⟩
  · intro name hname
    obtain ⟨u, hu, hmem⟩ := (habove.customs name).mp hname
    exact (hbelow.customs name).mpr ⟨u, hrest hu, hmem⟩

/-- What the rule of a type of texts lets pass is a text that its hooks leave alone. -/
theorem check_text_ok [Library] (hrule : rule.StandsFor adjust .text chain)
    (hstandard : rule.casts ⊆ standardCasts .text ∧ rule.customs ⊆ standardCustoms .text)
    (h : rule.check .standard v path = .ok w) (hv : v.isNull = false) :
    w.IsOf .text ∧ (∀ d ∈ rule.directives, d.check w path = .ok ()) ∧
      CustomsSettled .standard path rule.customs w ∧
      (Vocabulary.hook "castHexadecimal" ∈ rule.casts → IsLowered w) := by
  obtain ⟨u, hcast, hadmits, hds, hrun⟩ := (check_eq_ok_iff hrule.flat hv).mp h
  obtain ⟨rfl, hsettled⟩ := runCustoms_text hstandard.2 hrun
  have hruncasts := runCasts_of_cast (by rw [hrule.kind]; exact nofun) hcast
  rw [hrule.kind] at hadmits
  exact ⟨Value.isOf_of_admits (.inl rfl) hadmits, hds, hsettled,
    fun hmem => runCasts_text hstandard.1 hruncasts (.inl hmem)⟩

/-- What the rule of a type of numbers lets pass is a number that its hooks leave alone, in whole
form if it has one. -/
theorem check_numeric_ok [Library] (hrule : rule.StandsFor adjust .numeric chain)
    (hstandard : rule.casts ⊆ standardCasts .numeric ∧ rule.customs ⊆ standardCustoms .numeric)
    (hgrid : ∀ d, v = .double d → d.OnGrid)
    (h : rule.check .standard v path = .ok w) (hv : v.isNull = false) :
    ∃ x y, w = .ofNumber y ∧ WholeFormOf y x ∧ (∀ d, x = .double d → d.OnGrid) ∧
      (∀ d ∈ rule.directives, d.check (.ofNumber x) path = .ok ()) ∧
      CustomsSettled .standard path rule.customs w := by
  obtain ⟨u, hcast, hadmits, hds, hrun⟩ := (check_eq_ok_iff hrule.flat hv).mp h
  have hruncasts := runCasts_of_cast (by rw [hrule.kind]; exact nofun) hcast
  have hu := onGrid_of_runCasts_numeric hstandard.1 hruncasts hgrid
  rw [hrule.kind] at hadmits
  obtain ⟨x, rfl⟩ : u.IsOf .numeric := Value.isOf_of_admits (.inr (.inl rfl)) hadmits
  obtain ⟨y, rfl, hyx, hsettled⟩ := runCustoms_numeric hstandard.2 hrun
  refine ⟨x, y, rfl, hyx, ?_, hds, hsettled⟩
  rintro d rfl
  exact hu d rfl

/-- A rule that casts to hexadecimal numerals demands one, so that what it accepts in lower case is
left alone. -/
theorem lower_eq_self [Library] (hrule : rule.StandsFor adjust .text chain)
    (hkey : ∀ u ∈ chain, Vocabulary.hook "castHexadecimal" ∈ u.casts →
      u.key = Vocabulary.hex)
    {s : String} (haccept : ∀ d ∈ rule.directives, d.check (.text s) path = .ok ())
    (hlowered : IsLowered (.text s)) (hmem : Vocabulary.hook "castHexadecimal" ∈ rule.casts) :
    Text.lower s = s := by
  obtain ⟨t, ht, hcapitals⟩ := hlowered
  cases ht
  obtain ⟨u, hu, hcast⟩ := (hrule.casts _).mp hmem
  have hfits := Record.fits_of_accepted (.inl rfl) hrule.directives ⟨s, rfl⟩ haccept u
    (by simpa using hu)
  exact Text.lower_of_hexadecimal (hfits.hexadecimal (hkey u hu hcast)) hcapitals

end StandsFor

/-- A value that the hooks leave alone and the directives accept passes unchanged. -/
theorem check_of_settled [Library] (flat : rule.IsFlat) (hscalar : ∃ s, w = .scalar s)
    (hnull : w.isNull = false) (hadmits : rule.kind.admits w = true)
    (hcasts : CastsSettled .standard path rule.casts w)
    (haccept : ∀ d ∈ rule.directives, d.check w path = .ok ())
    (hcustoms : CustomsSettled .standard path rule.customs w) :
    rule.check .standard w path = .ok w :=
  (check_eq_ok_iff flat hnull).mpr
    ⟨w, cast_of_settled hscalar hcasts, hadmits, haccept, hcustoms.runCustoms⟩

theorem standsFor_of_rule (hc : c.IsMeasured)
    (h : (Record.ofRun c chain.reverse).rule adjust = .ok rule) :
    rule.StandsFor adjust c chain := by
  obtain ⟨flat, hkind, hcasts, hcustoms, hds⟩ := Record.ofRun_rule_eq_ok hc h
  refine ⟨flat, hkind, ?_, ?_, hds⟩
  · intro name
    simp [hcasts, Record.ofRun_casts]
  · intro name
    simp [hcustoms, Record.ofRun_customs]

private theorem check_null [Library] {hooks : Hooks} (h : rule.check hooks v path = .ok w)
    (hv : v.isNull = true) : w.isNull = true := by
  rw [eq_of_check_null h hv]
  exact hv

end Rule

namespace Registry

variable {r : Registry} {adjust : Bool}

/-- The rule of the type that a reference names. -/
def ruleFor [Readable Options] [Readable Term] (r : Registry) (adjust : Bool) (reference : String) :
    Except Failure (Batch Rule) := do
  (← r.compileType (.text reference) .null).rules adjust

private theorem ruleFor_eq_ok [Readable Options] [Readable Term] {reference : String} {rule : Rule}
    (h : r.ruleFor adjust reference = .ok (.one rule)) :
    ∃ chain record, r.resolve reference = .ok chain ∧ Record.ofHierarchy chain = .ok record ∧
      record.rule adjust = .ok rule := by
  obtain ⟨batch, hbatch, h⟩ := bind_eq_ok_iff.mp h
  obtain ⟨record, hrecord, rfl⟩ := map_eq_ok_iff.mp
    (show Batch.one <$> r.compileSource .null (.text reference) = .ok batch from hbatch)
  obtain ⟨chain, hchain, hrecord⟩ := bind_eq_ok_iff.mp hrecord
  obtain ⟨injected, hinjected, hrecord⟩ := bind_eq_ok_iff.mp hrecord
  cases hinjected
  obtain ⟨found, hfound, hone⟩ := bind_eq_ok_iff.mp h
  cases hone
  exact ⟨chain, record, hchain, mapError_eq_ok_iff.mp hrecord, mapError_eq_ok_iff.mp hfound⟩

private theorem ruleFor_standsFor [Readable Options] [Readable Term] {c : Category}
    (hc : c.IsMeasured) {reference : String} {chain : Hierarchy}
    (hchain : r.resolve reference = .ok chain) (hcat : ∀ u ∈ chain, u.category = c.name)
    {rule : Rule} (h : r.ruleFor adjust reference = .ok (.one rule)) :
    rule.StandsFor adjust c chain := by
  obtain ⟨found, record, hfound, hrecord, hrule⟩ := ruleFor_eq_ok h
  obtain rfl := Except.ok.inj (hchain.symm.trans hfound)
  have hne : chain ≠ [] := by
    obtain ⟨t, -, hclimbs, -⟩ := resolve_eq_ok_iff.mp hchain
    rintro rfl
    cases hclimbs
  have hobject : c ≠ .object := by
    rcases hc with rfl | rfl | rfl <;> exact nofun
  rw [Record.ofHierarchy_of_category hobject hne hcat] at hrecord
  cases hrecord
  exact Rule.standsFor_of_rule hc hrule

/-- Whether exclusive ends count as inclusive is the same for the rules of a type and of one above
it, wherever the latter has any interval. -/
theorem isLoose_boundNames_suffix {maxDepth : Int} {extras : List Term}
    (hextras : IsExtension extras) {reference : String} {chain rest : Hierarchy}
    (hchain : (extended maxDepth extras).resolve reference = .ok chain) (hrest : rest <:+ chain)
    {c : Category} {u : Term} (hu : u ∈ rest) {i : Interval Number}
    (hi : u.interval? c = some i) :
    Interval.isLoose (Record.boundNames c chain.reverse) adjust =
      Interval.isLoose (Record.boundNames c rest.reverse) adjust := by
  cases c with
  | numeric =>
      -- Only a chain with the integer below `rest` could tell them apart, but then no term of
      -- `rest` has an interval.
      have hkey (run : List Term) : Record.hasKey Vocabulary.integer run.reverse = true ↔
          ∃ t ∈ run, t.key = Vocabulary.integer := by
        simp [hasKey_eq_true_iff]
      by_cases hbelow : ∃ t ∈ chain, t.key = Vocabulary.integer
      · have habove : ∃ t ∈ rest, t.key = Vocabulary.integer := by
          by_contra hnone
          have hempty := hextras.unconstrained_above_integer hchain hbelow hrest
            (fun t ht hkey => hnone ⟨t, ht, hkey⟩) u hu
          simp [Term.interval?, hempty] at hi
        simp only [Record.boundNames, (hkey chain).mpr hbelow, (hkey rest).mpr habove]
      · have habove : ¬ ∃ t ∈ rest, t.key = Vocabulary.integer :=
          mt (fun h => h.imp fun t ht => ⟨hrest.subset ht.1, ht.2⟩) hbelow
        rw [← hkey] at hbelow habove
        simp only [Record.boundNames, hbelow, habove]
  | any | boolean | text | list | struct | object => rfl

end Registry

theorem Term.FitsNumber.of_wholeForm {t : Term} {x y : Number} (h : t.FitsNumber (.ofNumber x))
    (hyx : Rule.WholeFormOf y x) (hgrid : ∀ d, x = .double d → d.OnGrid) :
    t.FitsNumber (.ofNumber y) := by
  rcases hyx with rfl | ⟨d, n, rfl, hn, rfl⟩
  · exact h
  · refine ⟨fun k hk => ?_, by simp [Value.ofNumber]⟩
    obtain ⟨places, -, hle⟩ := h.decimals k hk
    have hzero := Number.places?_int ((hgrid d rfl).abs_toInt?_lt hn)
    refine ⟨0, ?_, ?_⟩
    · simp [Value.ofNumber, Value.places, hzero, Value.places.ofCount]
    · exact (Int.natCast_nonneg places).trans hle

namespace Registry

variable {adjust : Bool} {maxDepth : Int} {extras : List Term} {reference : String}
  {chain rest : Hierarchy} {c : Category} {path : String}

/-- The directives of a type above accept a value with the same quantity that fits no
fewer terms. -/
theorem directives_accept_above [Library] (hextras : IsExtension extras)
    (hchain : (extended maxDepth extras).resolve reference = .ok chain) (hrest : rest <:+ chain)
    (hc : c.IsMeasured)
    (whole : ∀ u ∈ chain, ∀ i, u.interval? c = some i →
      i.lower.IsWholeBound ∧ i.upper.IsWholeBound) {m : Number}
    (common : ∀ u ∈ chain, ∀ i, u.interval? c = some i → i.normalize.Contains m)
    {below above : List Directive}
    (hbelow : (Record.ofRun c chain.reverse).directives adjust = .ok below)
    (habove : (Record.ofRun c rest.reverse).directives adjust = .ok above)
    {v w : Value} (hv : v.IsOf c) (hw : w.IsOf c) {x y : Number} {p : Point}
    (hx : c.quantity? v = some x) (hy : c.quantity? w = some y) (hxp : x.point? = some p)
    (hyp : y.point? = some p) (hfits : ∀ t : Term, t.Fits c v → t.Fits c w)
    (h : ∀ d ∈ below, d.check v path = .ok ()) : ∀ d ∈ above, d.check w path = .ok () := by
  have free : ∀ u ∈ chain, ∀ i, u.interval? c = some i → i.NaNFree := fun u hu i hi =>
    ⟨(whole u hu i hi).1.not_isNaN, (whole u hu i hi).2.not_isNaN⟩
  have hmem {P : Term → Prop} (run : Hierarchy) : (∀ t ∈ run.reverse, P t) ↔ ∀ t ∈ run, P t := by
    simp only [List.mem_reverse]
  have hterms := (Record.directives_accept_iff hc ((hmem chain).mpr free)
    ((hmem chain).mpr common) (fun _ => (hmem chain).mpr whole) hbelow hv hx hxp path).mp h
  rw [hmem] at hterms
  refine (Record.directives_accept_iff hc ((hmem rest).mpr fun u hu => free u (hrest.subset hu))
    ((hmem rest).mpr fun u hu => common u (hrest.subset hu))
    (fun _ => (hmem rest).mpr fun u hu => whole u (hrest.subset hu)) habove hw hy hyp path).mpr ?_
  rw [hmem]
  intro u hu
  obtain ⟨hinterval, hfit⟩ := hterms u (hrest.subset hu)
  refine ⟨fun i hi => ?_, hfits u hfit⟩
  rw [← isLoose_boundNames_suffix hextras hchain hrest hu hi,
    Interval.contains_congr (hyp.trans hxp.symm)]
  exact hinterval i hi

/-- What a type lets pass, every type above it lets pass unchanged. -/
theorem check_above_of_check [Library] [Readable Options] [Readable Term]
    (hextras : IsExtension extras)
    (hchain : (extended maxDepth extras).resolve reference = .ok chain)
    (hc : c = .text ∨ c = .numeric) (hcat : ∀ u ∈ chain, u.category = c.name)
    (whole : ∀ u ∈ chain, ∀ i, u.interval? c = some i →
      i.lower.IsWholeBound ∧ i.upper.IsWholeBound) {m : Number}
    (common : ∀ u ∈ chain, ∀ i, u.interval? c = some i → i.normalize.Contains m)
    {a : Term} (ha : a ∈ chain) {below above : Rule}
    (hbelow : (extended maxDepth extras).ruleFor adjust reference = .ok (.one below))
    (habove : (extended maxDepth extras).ruleFor adjust a.key = .ok (.one above))
    {v w : Value} (hv : ∀ d, v = .double d → d.OnGrid)
    (h : below.check .standard v path = .ok w) (hnull : w.isNull = false)
    (hnan : ∀ x, w.number? = some x → ¬ x.IsNaN) :
    above.check .standard w path = .ok w := by
  have hmeasured : c.IsMeasured := by
    rcases hc with rfl | rfl
    · exact .inl rfl
    · exact .inr (.inl rfl)
  obtain ⟨rest, hrest, -, hsuffix⟩ := resolve_key_of_mem hchain ha
  have hcatRest : ∀ u ∈ rest, u.category = c.name := fun u hu => hcat u (hsuffix.subset hu)
  replace hbelow := ruleFor_standsFor hmeasured hchain hcat hbelow
  replace habove := ruleFor_standsFor hmeasured hrest hcatRest habove
  have hstandard := hbelow.hooks_standard fun u hu =>
    hextras.hooks (mem_terms_of_resolve hchain hu) (hcat u hu)
  obtain ⟨hcasts, hcustoms⟩ := habove.hooks_subset hbelow hsuffix.subset
  have hv' : v.isNull = false := by
    by_contra hv'
    simp [Rule.check_null h (by simpa using hv')] at hnull
  rcases hc with rfl | rfl
  · obtain ⟨⟨s, rfl⟩, hdirectives, hsettled, hlowered⟩ := hbelow.check_text_ok hstandard h hv'
    have haccept := directives_accept_above hextras hchain hsuffix hmeasured whole common
      hbelow.directives habove.directives ⟨s, rfl⟩ ⟨s, rfl⟩ rfl rfl rfl rfl (fun _ => id)
      hdirectives
    have hkey : ∀ u ∈ rest, Vocabulary.hook "castHexadecimal" ∈ u.casts →
        u.key = Vocabulary.hex := fun u hu =>
      hextras.key_of_castHexadecimal (mem_terms_of_resolve hchain (hsuffix.subset hu))
    refine Rule.check_of_settled habove.flat ⟨_, rfl⟩ rfl (by rw [habove.kind]; rfl) ?_ haccept
      (hsettled.mono hcustoms)
    exact Rule.castsSettled_text (List.Subset.trans hcasts hstandard.1) fun hmem =>
      habove.lower_eq_self hkey haccept (hlowered (hcasts hmem)) hmem
  · obtain ⟨x, y, rfl, hyx, hgrid, hdirectives, hsettled⟩ :=
      hbelow.check_numeric_ok hstandard hv h hv'
    have hyn := Value.number?_ofNumber y
    have hxn := Value.number?_ofNumber x
    -- The directives below were met by `x`, those above are asked of `y`: the same point.
    obtain ⟨p, hyp⟩ := Number.exists_point (hnan y hyn)
    have haccept := directives_accept_above hextras hchain hsuffix hmeasured whole common
      hbelow.directives habove.directives ⟨x, rfl⟩ ⟨y, rfl⟩ hxn hyn (hyx.point?.symm.trans hyp) hyp
      (fun t ht => Term.FitsNumber.of_wholeForm ht hyx hgrid) hdirectives
    have hadmits : above.kind.admits (.ofNumber y) = true := by
      rw [habove.kind]
      exact Kind.admits_ofNumber y
    exact Rule.check_of_settled habove.flat (by cases y <;> exact ⟨_, rfl⟩) hnull hadmits
      (Rule.castsSettled_numeric (List.Subset.trans hcasts hstandard.1)) haccept
      (hsettled.mono hcustoms)

/-- Ages in whole years, a type below the integer. -/
def ages : List Term :=
  [{ id := "terms/age", key := "age", category := "numeric", parent := some Vocabulary.integer,
     constraints := { range := some ⟨.int 0, .int 150, true, false⟩ } }]

/-- The number that the rule of a type lets pass, if it does. -/
def passed? [Library] [Readable Options] [Readable Term] (r : Registry) (reference : String)
    (v : Value) : Option Number :=
  match r.ruleFor true reference with
  | .ok (.one rule) => match rule.check .standard v "" with
    | .ok w => w.number?
    | .error _ => none
  | _ => none

private theorem exists_rule_of_passed [Library] [Readable Options] [Readable Term] {r : Registry}
    {v : Value} {x : Number} (h : r.passed? reference v = some x) :
    ∃ rule w, r.ruleFor true reference = .ok (.one rule) ∧ rule.check .standard v "" = .ok w ∧
      w.number? = some x := by
  rw [passed?] at h
  split at h
  · rename_i rule hrule
    split at h
    · rename_i w hw
      exact ⟨rule, w, hrule, hw, h⟩
    · contradiction
  · contradiction

private theorem age_chain (h : (extended 10 ages).resolve "age" = .ok chain) :
    (∀ u ∈ chain, u.category = "numeric" ∧ ∀ i, u.interval? .numeric = some i →
      i = ⟨.int 0, .int 150, true, false⟩) ∧ ∃ a ∈ chain, a.key = Vocabulary.integer := by
  have hterms : ((extended 10 ages).resolve "age").toOption.map
      (List.map fun u => (u.key, u.category, u.constraints.range)) =
      some [("age", "numeric", some ⟨.int 0, .int 150, true, false⟩),
        (Vocabulary.integer, "numeric", none), (Vocabulary.numeric, "numeric", none)] := by
    decide +kernel
  rw [h] at hterms
  replace hterms := Option.some.inj hterms
  refine ⟨fun u hu => ?_, ?_⟩
  · have hmem := List.mem_map_of_mem (f := fun u : Term =>
      (u.key, u.category, u.constraints.range)) hu
    rw [hterms] at hmem
    simp only [List.mem_cons, Prod.mk.injEq, List.not_mem_nil, or_false] at hmem
    rcases hmem with ⟨-, hcat, h⟩ | ⟨-, hcat, h⟩ | ⟨-, hcat, h⟩ <;>
      simp [hcat, Term.interval?, h, eq_comm]
  · have hmem : (Vocabulary.integer, "numeric", none) ∈ chain.map fun u =>
        (u.key, u.category, u.constraints.range) := by
      simp [hterms]
    obtain ⟨a, ha, heq⟩ := List.mem_map.mp hmem
    exact ⟨a, ha, congrArg Prod.fst heq⟩

section Program

open Program

theorem check_integer_of_check_age :
    ∃ below above w, (extended 10 ages).ruleFor true "age" = .ok (.one below) ∧
      (extended 10 ages).ruleFor true Vocabulary.integer = .ok (.one above) ∧
      below.check .standard (.double (.finite 42)) "" = .ok w ∧
      above.check .standard w "" = .ok w := by
  have hbelow : (extended 10 ages).passed? "age" (.double (.finite 42)) = some (.int 42) := by
    decide +kernel
  have habove : (extended 10 ages).passed? Vocabulary.integer (.double (.finite 42)) =
      some (.int 42) := by
    decide +kernel
  have hextras : IsExtension ages := by
    constructor <;> decide
  obtain ⟨below, w, hrule, hcheck, hw⟩ := exists_rule_of_passed hbelow
  obtain ⟨above, -, hruleAbove, -⟩ := exists_rule_of_passed habove
  obtain ⟨chain, record, hchain, -⟩ := ruleFor_eq_ok hrule
  obtain ⟨hrange, a, ha, hkey⟩ := age_chain hchain
  refine ⟨below, above, w, hrule, hruleAbove, hcheck, ?_⟩
  refine check_above_of_check (m := .int 42) hextras hchain (.inr rfl)
    (fun u hu => (hrange u hu).1) ?_ ?_ ha hrule (hkey ▸ hruleAbove) ?_ hcheck ?_ ?_
  · intro u hu i hi
    rw [(hrange u hu).2 i hi]
    exact ⟨trivial, trivial⟩
  · intro u hu i hi
    rw [(hrange u hu).2 i hi]
    exact ⟨.inl (by decide), .inl (by decide)⟩
  · intro d hd
    cases hd
    intro q hq
    cases hq
    exact ⟨42, by decide +kernel⟩
  · exact Value.isNull_of_number? hw
  · intro x hx
    rw [hw, Option.some.injEq] at hx
    subst hx
    exact Number.not_isNaN_of_point rfl

end Program

end Registry

end TermRules
