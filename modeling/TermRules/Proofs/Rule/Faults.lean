import TermRules.Program
import TermRules.Proofs.Rule.Coherence
import TermRules.Proofs.Value.Within

/-!
How a check can fail other than by a rejection. Where directives suit the kind of their rule, no
bound is held against a value that has no order with it, and nothing is counted that has no length:
what is left are patterns that do not compile, addresses that cannot be taken apart and decimals
beyond any exponent. Hooks may have faults of their own and are left out.
-/

namespace TermRules

variable {cause : Misuse} {v : Value} {path : String} {hooks : Hooks} {failure : Failure}

theorem lands_demand (accepted : Bool) (reason : Reason) :
    Lands Failure.IsRejection (fun _ => True) (demand accepted reason path v) := by
  cases accepted <;> trivial

namespace Directive

/-- A fault that a directive has with values that it is for. -/
inductive Fault [Library] (d : Directive) (v : Value) : Misuse → Prop
  | pattern {cause : Misuse} (p s : String) (directive : d = ⟨.pattern, .text p⟩)
      (value : v = .text s) (fault : Pattern.parse p = .error (.misuse cause)) : Fault d v cause
  | address {fault : Text.Address.Fault} (s : String) (name : d.name = .address)
      (value : v = .text s) (read : Library.address s = .error fault) : Fault d v (.address fault)
  | places {cause : Misuse} (x : Number) (name : d.name = .precision) (value : v = .ofNumber x)
      (fault : v.places = .error cause) : Fault d v cause

/-- What a directive can fail by with values that it is for: other than by a rejection, for a
pattern that does not compile or for one of the other faults. -/
inductive FailsBy [Library] (d : Directive) (v : Value) : Failure → Prop
  | rejection {f : Failure} (h : f.IsRejection) : FailsBy d v f
  | pattern {f : Failure} (p s : String) (directive : d = ⟨.pattern, .text p⟩) (value : v = .text s)
      (fault : regexOf p = .error f) : FailsBy d v f
  | address {fault : Text.Address.Fault} (s : String) (name : d.name = .address)
      (value : v = .text s) (read : Library.address s = .error fault) :
      FailsBy d v (.misuse (.address fault))
  | places {cause : Misuse} (x : Number) (name : d.name = .precision) (value : v = .ofNumber x)
      (fault : v.places = .error cause) : FailsBy d v (.misuse cause)

private theorem lands_checkCount {n : Nat} (h : v.count? = some n) (r : Relation) (y : Number) :
    Lands Failure.IsRejection (fun _ => True) (checkCount r (.ofNumber y) v path) := by
  have hholds := r.holds_ofNumber (v := .int n) rfl y
  simp only [checkCount, h, hholds]
  exact lands_demand _ _

theorem lands_checkBound {x : Number} (h : v.number? = some x) (r : Relation) (y : Number) :
    Lands Failure.IsRejection (fun _ => True) (checkBound r (.ofNumber y) v path) := by
  have hholds := r.holds_ofNumber h y
  simp only [checkBound, hholds]
  exact lands_demand _ _

private theorem lands_checkPlaces (n : Int) :
    Lands (fun f => f.IsRejection ∨ ∃ cause, v.places = .error cause ∧ f = .misuse cause)
      (fun _ => True) (checkPlaces (.int n) v path) := by
  rw [checkPlaces]
  cases hplaces : v.places with
  | error cause => exact .inr ⟨cause, rfl, rfl⟩
  | ok places =>
      have hholds := Relation.atMost.holds_ofNumber (v := .int places) rfl (.int n)
      simp only [Value.ofNumber] at hholds
      change Lands _ _
        ((liftM (Relation.atMost.holds (.int places) (.int n)) : Except Failure Bool) >>=
          fun accepted => demand accepted (.places (.int n)) path v)
      rw [hholds]
      exact (lands_demand _ _).mono fun f => .inl

private theorem lands_checkPattern [Library] (p s : String) :
    Lands (fun f => f.IsRejection ∨ regexOf p = .error f) (fun _ => True)
      (checkPattern (.text p) (.text s) path) := by
  rw [checkPattern]
  cases hregex : regexOf p with
  | error f => exact .inr rfl
  | ok regex => exact (lands_demand _ _).mono fun f => .inl

private theorem lands_checkAddress [Library] (s : String) :
    Lands (fun f => f.IsRejection ∨
        ∃ fault, Library.address s = .error fault ∧ f = .misuse (.address fault))
      (fun _ => True) ((Directive.mk .address .null).check (.text s) path) := by
  simp only [check, Custom.acceptAddress, Value.display, Scalar.display]
  cases hs : Library.address s with
  | error fault => exact .inr ⟨fault, rfl, rfl⟩
  | ok a =>
      dsimp only
      cases a.isComplete with
      | false => exact .inl trivial
      | true => trivial

private theorem lands_checkUnique (items : List Value) :
    Lands Failure.IsRejection (fun _ => True) (checkUnique (.list items) path) := by
  refine Lands.bind (P := fun _ => True) trivial fun members _ => ?_
  cases repeated? [] members <;> trivial

/-- A directive with a limit of its own, held against a value of its kind, fails in no other way. -/
theorem lands_check [Library] {d : Directive} {k : Kind} (hlimit : d.IsLimited)
    (hkind : d.name.kind? = some k) (hv : k.admits v = true) :
    Lands (d.FailsBy v) (fun _ => True) (d.check v path) := by
  obtain ⟨name, limit⟩ := d
  cases name with
  | required | timestamp => trivial
  | exactLength | minLength | maxLength =>
      obtain ⟨y, rfl⟩ : ∃ y : Number, limit = .ofNumber y := hlimit
      obtain rfl := Option.some.inj hkind
      obtain ⟨s, rfl⟩ : v.IsOf .text := Value.isOf_of_admits (.inl rfl) hv
      exact (lands_checkCount (v := .text s) rfl _ y).mono fun f => .rejection
  | exactSize | minSize | maxSize =>
      obtain ⟨y, rfl⟩ : ∃ y : Number, limit = .ofNumber y := hlimit
      obtain rfl := Option.some.inj hkind
      obtain ⟨items, rfl⟩ : v.IsOf .list := Value.isOf_of_admits (.inr (.inr rfl)) hv
      exact (lands_checkCount (v := .list items) rfl _ y).mono fun f => .rejection
  | exact | min | max | greater | less =>
      obtain ⟨y, rfl⟩ : ∃ y : Number, limit = .ofNumber y := hlimit
      obtain rfl := Option.some.inj hkind
      have hnumber : v.IsOf .numeric := Value.isOf_of_admits (.inr (.inl rfl)) hv
      obtain ⟨x, hx⟩ := hnumber.exists_quantity
      exact (lands_checkBound hx _ y).mono fun f => .rejection
  | precision =>
      obtain ⟨n, rfl⟩ : ∃ n : Int, limit = .int n := hlimit
      obtain rfl := Option.some.inj hkind
      obtain ⟨x, hx⟩ : v.IsOf .numeric := Value.isOf_of_admits (.inr (.inl rfl)) hv
      refine (lands_checkPlaces n).mono fun f hf => ?_
      rcases hf with hf | ⟨cause, hcause, rfl⟩
      · exact .rejection hf
      · exact .places x rfl hx hcause
  | integer =>
      simp only [check, checkWhole]
      split
      · exact (lands_demand _ _).mono fun f => .rejection
      · trivial
  | pattern =>
      obtain ⟨p, rfl⟩ : ∃ p, limit = .text p := hlimit
      obtain rfl := Option.some.inj hkind
      obtain ⟨s, rfl⟩ : v.IsOf .text := Value.isOf_of_admits (.inl rfl) hv
      exact (lands_checkPattern p s).mono fun f hf => hf.elim .rejection (.pattern p s rfl rfl)
  | address =>
      obtain rfl := Option.some.inj hkind
      obtain ⟨s, rfl⟩ : v.IsOf .text := Value.isOf_of_admits (.inl rfl) hv
      refine (lands_checkAddress s).mono fun f hf => ?_
      rcases hf with hf | ⟨fault, hread, rfl⟩
      · exact .rejection hf
      · exact .address s rfl rfl hread
  | hexadecimal | email =>
      obtain rfl := Option.some.inj hkind
      obtain ⟨s, rfl⟩ : v.IsOf .text := Value.isOf_of_admits (.inl rfl) hv
      exact (lands_demand _ _).mono fun f => .rejection
  | unique =>
      obtain rfl := Option.some.inj hkind
      obtain ⟨items, rfl⟩ : v.IsOf .list := Value.isOf_of_admits (.inr (.inr rfl)) hv
      exact (lands_checkUnique items).mono fun f => .rejection

private theorem parse_of_regexOf [Library] {p : String} (h : regexOf p = .error (.misuse cause)) :
    Pattern.parse p = .error (.misuse cause) := by
  rw [regexOf] at h
  split at h <;> simp_all

/-- A directive with a limit of its own, held against a value of its kind, has no fault but
those listed. -/
theorem fault_of_check [Library] {d : Directive} {k : Kind} (hlimit : d.IsLimited)
    (hkind : d.name.kind? = some k) (hv : k.admits v = true)
    (h : d.check v path = .error (.misuse cause)) : d.Fault v cause := by
  have hlands : Lands (d.FailsBy v) (fun _ => True) (d.check v path) := lands_check hlimit hkind hv
  rw [h] at hlands
  cases hlands with
  | rejection h => contradiction
  | pattern p s directive value fault => exact .pattern p s directive value (parse_of_regexOf fault)
  | address s name value read => exact .address s name value read
  | places x name value fault => exact .places x name value fault

theorem lands_checkAll [Library] {F : Failure → Prop} {ds : List Directive}
    (h : ∀ d ∈ ds, Lands F (fun _ => True) (d.check v path)) :
    Lands F (fun _ => True) (checkAll v path ds) := by
  induction ds with
  | nil => trivial
  | cons d ds ih =>
      obtain ⟨hd, hds⟩ := List.forall_mem_cons.mp h
      exact hd.bind fun _ _ => ih hds

end Directive

namespace Rule

variable {r : Rule} {F : Failure → Prop}

section Parts

variable {step onKey onValue : Value → String → Except Failure Value}

private theorem lands_mapItems {index : Nat} {vs : List Value}
    (h : ∀ v ∈ vs, ∀ p, Lands F (fun _ => True) (step v p)) :
    Lands F (fun _ => True) (mapItems step path index vs) := by
  induction vs generalizing index with
  | nil => trivial
  | cons v vs ih =>
      obtain ⟨hv, hvs⟩ := List.forall_mem_cons.mp h
      exact (hv _).bind fun _ _ => (ih hvs).bind fun _ _ => trivial

private theorem lands_mapEntries {done es : Entries}
    (hkeys : ∀ e ∈ es, ∀ p, Lands F (fun _ => True) (onKey (.scalar e.1) p))
    (hvalues : ∀ e ∈ es, ∀ p, Lands F (fun _ => True) (onValue e.2 p)) :
    Lands F (fun _ => True) (mapEntries onKey onValue path done es) := by
  induction es generalizing done with
  | nil => trivial
  | cons e es ih =>
      obtain ⟨hkey, hkeys⟩ := List.forall_mem_cons.mp hkeys
      obtain ⟨hvalue, hvalues⟩ := List.forall_mem_cons.mp hvalues
      exact (hkey _).bind fun _ _ => (hvalue _).bind fun _ _ => ih hkeys hvalues

private theorem lands_checkPart [Library] {part : Option Rule}
    (h : ∀ s, part = some s → Lands F (fun _ => True) (s.check hooks v path)) :
    Lands F (fun _ => True) (checkPart hooks part v path) := by
  cases part with
  | none => trivial
  | some s => exact h s rfl

/-- The parts of a value fail as the rules for them do. A value that is no container is left as
it is. -/
theorem lands_checkParts [Library]
    (h : ∀ (s : Rule) (u : Value) (p : String), s.IsPartOf r → u.IsPartOf v →
      Lands F (fun _ => True) (s.check hooks u p)) :
    Lands F (fun x => r.kind ≠ .array → r.kind ≠ .object → x = v) (checkParts hooks r v path) := by
  unfold checkParts
  split
  · rename_i vs hkind
    have hitems : Lands F (fun _ => True) (mapItems (checkPart hooks r.items) path 0 vs) :=
      lands_mapItems fun u hu p => lands_checkPart fun s hs => h s u p (.inl hs) (.item hu)
    exact hitems.map fun _ _ harray => absurd hkind harray
  · rename_i es hkind
    split
    · exact fun _ hobject => absurd hkind hobject
    · have hentries : Lands F (fun _ => True)
          (mapEntries (checkPart hooks r.keys) (checkPart hooks r.values) path [] es) :=
        lands_mapEntries
          (fun e he p => lands_checkPart fun s hs => h s _ p (.inr (.inl hs)) (.key he))
          (fun e he p => lands_checkPart fun s hs => h s _ p (.inr (.inr hs)) (.value he))
      exact hentries.map fun _ _ _ hobject => absurd hkind hobject
  · exact fun _ _ => rfl

end Parts

theorem lands_check_null [Library] (hnull : v.isNull = true) :
    Lands (· = .rejected .missing path v) (fun _ => True) (r.check hooks v path) := by
  obtain ⟨kind, ds, refs, casts, customs, items, keys, values⟩ := r
  simp only [check, hnull, if_true]
  split
  · rfl
  · trivial

/-- A fault of a directive in the tree of the rule, with a value of its kind. -/
def HasFault [Library] (r : Rule) (cause : Misuse) : Prop :=
  ∃ (s : Rule) (d : Directive) (u : Value),
    s.IsWithin r ∧ d ∈ s.directives ∧ s.kind.admits u = true ∧ d.Fault u cause

private theorem HasFault.of_isPartOf [Library] {s : Rule} (hs : s.IsPartOf r)
    (h : s.HasFault cause) : r.HasFault cause := by
  obtain ⟨t, d, u, ht, hd⟩ := h
  exact ⟨t, d, u, ht.tail hs, hd⟩

/-- In a tree of rules without hooks, whose directives suit their kinds, a fault of a check is one
of a directive with a value of its kind. -/
theorem lands_check_of_hookless [Library] (coherent : ∀ s : Rule, s.IsWithin r → s.IsCoherent)
    (hookless : ∀ s : Rule, s.IsWithin r → s.IsHookless) :
    Lands (fun f => ∀ cause, f = .misuse cause → r.HasFault cause) (fun _ => True)
      (r.check hooks v path) := by
  induction r using induct generalizing v path with
  | step r ih =>
      have hrejection {f : Failure} (hf : f.IsRejection) (cause : Misuse)
        (hcause : f = .misuse cause) : r.HasFault cause := by
        subst hcause
        contradiction
      cases hnull : v.isNull with
      | true => exact (lands_check_null hnull).mono fun f hf => hrejection (hf ▸ trivial)
      | false =>
          rw [(hookless r .refl).check_eq hnull]
          split
          · rename_i hadmits
            have hr := coherent r .refl
            have hdirectives : Lands (fun f => ∀ cause, f = .misuse cause → r.HasFault cause)
                (fun _ => True) (Directive.checkAll v path r.directives) := by
              refine Directive.lands_checkAll fun d hd => ?_
              cases hcheck : d.check v path with
              | ok _ => trivial
              | error f =>
                  rintro cause rfl
                  exact ⟨r, d, v, .refl, hd, hadmits,
                    Directive.fault_of_check (hr.limits d hd) (hr.kinds d hd) hadmits hcheck⟩
            refine hdirectives.bind fun _ _ =>
              (lands_checkParts fun s u p hs _ => ?_).imp fun _ _ => trivial
            refine (ih s hs (fun t ht => coherent t (ht.tail hs))
              fun t ht => hookless t (ht.tail hs)).mono fun f hf cause hcause => ?_
            exact (hf cause hcause).of_isPartOf hs
          · exact hrejection trivial

private theorem exists_fault_of_check [Library] (coherent : ∀ s : Rule, s.IsWithin r → s.IsCoherent)
    (hookless : ∀ s : Rule, s.IsWithin r → s.IsHookless)
    (h : r.check hooks v path = .error (.misuse cause)) : r.HasFault cause := by
  have hlands : Lands (fun f => ∀ cause, f = .misuse cause → r.HasFault cause) (fun _ => True)
      (r.check hooks v path) := lands_check_of_hookless coherent hookless
  rw [h] at hlands
  exact hlands cause rfl

/-- The rule of a hierarchy that compiles has, all the way down, directives that suit their kinds
and one another. Without hooks they are held against values of their kind only, and if a check is at
fault, it is for a directive that cannot be checked on a value of its kind. -/
theorem isCoherent_of_ofHierarchy [Library] {h : Hierarchy} {record : Record Number} {adjust : Bool}
    {rule : Rule} (hr : Record.ofHierarchy h = .ok record) (hrule : record.rule adjust = .ok rule) :
    (∀ s : Rule, s.IsWithin rule → s.IsCoherent ∧
      (s.IsHookless → ∀ hooks v path, v.isNull = false → s.check hooks v path =
        if s.kind.admits v then
          Directive.checkAll v path s.directives >>= fun _ => s.checkParts hooks v path
        else .error (.rejected (.wrongKind s.kind) path v))) ∧
    ((∀ s : Rule, s.IsWithin rule → s.IsHookless) → ∀ hooks v path cause,
      rule.check hooks v path = .error (.misuse cause) →
      ∃ (s : Rule) (d : Directive) (u : Value),
        s.IsWithin rule ∧ d ∈ s.directives ∧ s.kind.admits u = true ∧ d.Fault u cause) := by
  have coherent : ∀ s : Rule, s.IsWithin rule → s.IsCoherent := fun s =>
    Record.isCoherent_of_isWithin hr hrule
  exact ⟨fun s hs => ⟨coherent s hs, fun hookless hooks v path hnull => hookless.check_eq hnull⟩,
    fun hookless hooks v path cause => exists_fault_of_check coherent hookless⟩

theorem IsFlat.eq_of_isWithin (flat : r.IsFlat) {s : Rule} (hs : s.IsWithin r) : s = r := by
  rcases Relation.ReflTransGen.cases_tail hs with heq | ⟨t, -, ht⟩
  · exact heq.symm
  · simp [IsPartOf, flat.items, flat.keys, flat.values] at ht

private theorem places_ne_incomparable : v.places ≠ .error .incomparable := by
  have hcount (n : Option Nat) : Value.places.ofCount n ≠ .error .incomparable := by
    cases n <;> exact nofun
  unfold Value.places
  split <;> first | exact hcount _ | exact nofun

section Program

open Program

/-- Small whole numbers are compared with numbers only. -/
theorem check_smallWholes_comparable :
    ∃ record rule, Record.ofHierarchy smallWholes = .ok record ∧ record.rule true = .ok rule ∧
      rule.IsCoherent ∧ ∀ hooks v path,
      rule.check hooks v path ≠ .error (.misuse .incomparable) := by
  have hr := Record.ofHierarchy_of_category (c := .numeric) (h := smallWholes) nofun
    (by simp [smallWholes]) (by decide)
  have hok : ((Record.ofRun .numeric smallWholes.reverse).rule true).isOk = true := by
    decide +kernel
  obtain ⟨rule, hrule⟩ := exists_of_isOk hok
  obtain ⟨flat, hkind, hcasts, hcustoms, -⟩ := Record.ofRun_rule_eq_ok (.inr (.inl rfl)) hrule
  obtain ⟨coherent, faults⟩ := isCoherent_of_ofHierarchy hr hrule
  have hrule' := (coherent rule .refl).1
  refine ⟨_, rule, hr, hrule, hrule', fun hooks v path h => ?_⟩
  obtain ⟨s, d, u, hs, hd, -, hfault⟩ := faults (fun s hs => by
    obtain rfl := flat.eq_of_isWithin hs
    exact ⟨hcasts, hcustoms⟩) hooks v path _ h
  obtain rfl := flat.eq_of_isWithin hs
  have hnumber := hrule'.kinds d hd
  cases hfault with
  | pattern p t hpattern =>
      rw [hpattern, hkind] at hnumber
      cases hnumber
  | places x hname hx hplaces => exact places_ne_incomparable hplaces

end Program

end Rule

end TermRules
