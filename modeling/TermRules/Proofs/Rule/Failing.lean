import TermRules.Proofs.Rule.Faults
import TermRules.Proofs.Rule.Hooks

/-!
What checks fail by where the hooks are those of the standard taxonomy. Casts only reject.
Directives that suit their kind reject, or have a pattern that does not compile, or a text that
cannot be taken apart as an address; the custom hook for addresses has the same trouble. Nothing
else goes wrong: whatever is compared has an order, no number is too large to be written out, and
every hook is known. Which values are rejected is not looked at here.
-/

namespace TermRules

open Registry (standardCasts standardCustoms)

variable {v w : Value} {path : String} {names : List String} {c : Category}

namespace Rule

/-- A rule for a category, with no hooks but standard ones of it. -/
def RunsStandard (r : Rule) : Prop :=
  ∃ c : Category, r.kind = c.kind ∧ r.casts ⊆ standardCasts c ∧ r.customs ⊆ standardCustoms c

/-- The rule takes texts for addresses, by a directive or by a custom hook. -/
def ReadsAddresses (r : Rule) : Prop :=
  (∃ d ∈ r.directives, d.name = .address) ∨
    ∃ name ∈ r.customs, Hooks.lookup Hooks.standard.customs name = .ok .address

/-- What a check of `v` can fail by: a rejection, a pattern of one of the rules that does
not compile, or a text in `v` that one of the rules takes for an address and that cannot be
taken apart. -/
inductive FailsBy [Library] (r : Rule) (v : Value) : Failure → Prop where
  | rejection {f : Failure} (h : f.IsRejection) : FailsBy r v f
  | pattern {s : Rule} {p : String} {f : Failure} (within : s.IsWithin r)
      (demanded : ⟨.pattern, .text p⟩ ∈ s.directives) (fault : Directive.regexOf p = .error f) :
      FailsBy r v f
  | address {s : Rule} {u : Value} {t : String} {fault : Text.Address.Fault}
      (within : s.IsWithin r) (reads : s.ReadsAddresses) (part : u.IsWithin v)
      (cast : Rule.cast .standard s.kind s.casts u "" = .ok (.text t))
      (read : Library.address t = .error fault) : FailsBy r v (.misuse (.address fault))

private theorem FailsBy.of_isPartOf [Library] {r s : Rule} {u : Value} {f : Failure}
    (hs : s.IsPartOf r) (hu : u.IsPartOf v) (h : s.FailsBy u f) : r.FailsBy v f := by
  cases h with
  | rejection h => exact .rejection h
  | pattern within demanded fault => exact .pattern (within.tail hs) demanded fault
  | address within reads part cast read =>
      exact .address (within.tail hs) reads (part.tail hu) cast read

section Casts

private theorem standardCasts_known (c : Category) :
    ∀ name ∈ standardCasts c, (Hooks.lookup Hooks.standard.casts name).isOk = true := by
  cases c <;> decide

/-- A cast makes a scalar that can be written out of one that can be. -/
theorem lands_apply_cast (hook : Cast) (hv : v.IsWritable) :
    Lands Failure.IsRejection (fun w => w.IsWritable ∧ ∃ s, w = .scalar s) (hook.apply v path) := by
  cases hook with
  | string | hexadecimal => exact ⟨Value.isWritable_text _, _, rfl⟩
  | boolean => exact ⟨Value.isWritable_bool _, _, rfl⟩
  | number =>
      simp only [Cast.apply, Cast.toNumber]
      split
      · exact ⟨hv, _, rfl⟩
      · exact ⟨hv, _, rfl⟩
      · split
        · rename_i x hx
          refine ⟨Value.isWritable_ofNumber.mpr (Reading.isWritable_of_number? hx), ?_⟩
          cases x <;> exact ⟨_, rfl⟩
        · trivial
      · trivial

private theorem lands_runCasts {s : Scalar} (hnames : names ⊆ standardCasts c)
    (hs : (Value.scalar s).IsWritable) :
    Lands Failure.IsRejection (fun w => w.IsWritable ∧ ∃ t, w = .scalar t)
      (runCasts .standard path names (.scalar s)) := by
  induction names generalizing s with
  | nil => exact ⟨hs, s, rfl⟩
  | cons name names ih =>
      obtain ⟨hname, hnames⟩ := List.cons_subset.mp hnames
      obtain ⟨hook, hhook⟩ := exists_of_isOk (standardCasts_known c name hname)
      rw [runCasts, hhook]
      refine (lands_apply_cast hook hs).bind fun w hw => ?_
      obtain ⟨hwritable, t, rfl⟩ := hw
      exact ih hnames hwritable

/-- Casting leaves a container as it is, and otherwise ends in a scalar or rejects. -/
theorem lands_cast {r : Rule} (hr : r.RunsStandard) (hv : v.IsWritable) :
    Lands Failure.IsRejection (fun w => w.IsWritable ∧ (w = v ∨ ∃ s, w = .scalar s))
      (cast .standard r.kind r.casts v path) := by
  obtain ⟨c, -, hcasts, -⟩ := hr
  unfold cast
  split
  · exact ⟨hv, .inl rfl⟩
  · split
    · rename_i s
      exact (lands_runCasts hcasts hv).imp fun w hw => ⟨hw.1, .inr hw.2⟩
    · trivial

end Casts

section Customs

private theorem lands_customDemand (accepted : Bool) (reason : Reason) :
    Lands Failure.IsRejection (fun w => w = v) (Custom.demand accepted reason v path) := by
  cases accepted
  · trivial
  · rfl

/-- The custom hooks of texts leave a text as it is, reject it, or fail to take it apart. -/
theorem lands_runCustoms_text [Library] (hnames : names ⊆ standardCustoms .text) (t : String) :
    Lands (fun f => f.IsRejection ∨
        ∃ fault, f = .misuse (.address fault) ∧ Library.address t = .error fault ∧
          ∃ name ∈ names, Hooks.lookup Hooks.standard.customs name = .ok .address)
      (fun _ => True) (runCustoms .standard path names (.text t)) := by
  induction names with
  | nil => trivial
  | cons name names ih =>
      obtain ⟨hname, hnames⟩ := List.cons_subset.mp hnames
      obtain ⟨hook, hhook, hcases⟩ := standard_customs_text hname
      have hlands : Lands (fun f => f.IsRejection ∨ ∃ fault, f = .misuse (.address fault) ∧
          Library.address t = .error fault ∧ hook = .address) (fun w => w = .text t)
          (hook.apply (.text t) path) := by
        rcases hcases with rfl | rfl | rfl
        · simp only [Custom.apply, Custom.acceptAddress, Value.display, Scalar.display]
          cases hs : Library.address t with
          | error fault => exact .inr ⟨fault, rfl, rfl, trivial⟩
          | ok a => exact (lands_customDemand _ _).mono fun f => .inl
        · exact (lands_customDemand _ _).mono fun f => .inl
        · exact (lands_customDemand _ _).mono fun f => .inl
      rw [runCustoms, hhook]
      refine (hlands.mono fun f hf => ?_).bind fun w hw => ?_
      · obtain hf | ⟨fault, hfault, hread, haddress⟩ := hf
        · exact .inl hf
        · exact .inr ⟨fault, hfault, hread, name, List.mem_cons_self, haddress ▸ hhook⟩
      · subst hw
        refine (ih hnames).mono fun f hf => ?_
        obtain hf | ⟨fault, hfault, hread, more, hmore, hm⟩ := hf
        · exact .inl hf
        · exact .inr ⟨fault, hfault, hread, more, List.mem_cons_of_mem name hmore, hm⟩

private theorem lands_apply_integer [Library] (x : Number) :
    Lands Failure.IsRejection (fun w => ∃ y, w = .ofNumber y)
      (Custom.integer.apply (.ofNumber x) path) := by
  cases x with
  | int n => exact ⟨.int n, rfl⟩
  | double d =>
      simp only [Custom.apply, Value.ofNumber, Custom.acceptInteger]
      split
      · exact ⟨.int _, rfl⟩
      · trivial

private theorem lands_apply_timestamp [Library] (x : Number) :
    Lands Failure.IsRejection (fun w => ∃ y, w = .ofNumber y)
      (Custom.timestamp.apply (.ofNumber x) path) := by
  have hbelow : (Value.ofNumber x).below? (.int 0) = some (x.below (.int 0)) :=
    Value.below?_ofNumber (Value.number?_ofNumber x) (.int 0)
  simp only [Custom.apply, Custom.acceptTimestamp, hbelow]
  exact (lands_customDemand _ _).imp fun w hw => ⟨x, hw⟩

theorem lands_runCustoms_numeric [Library] (hnames : names ⊆ standardCustoms .numeric)
    (x : Number) :
    Lands Failure.IsRejection (fun _ => True) (runCustoms .standard path names (.ofNumber x)) := by
  induction names generalizing x with
  | nil => trivial
  | cons name names ih =>
      obtain ⟨hname, hnames⟩ := List.cons_subset.mp hnames
      obtain ⟨hook, hhook, hcases⟩ := standard_customs_numeric hname
      have hlands : Lands Failure.IsRejection (fun w => ∃ y, w = .ofNumber y)
          (hook.apply (.ofNumber x) path) := by
        rcases hcases with rfl | rfl
        · exact lands_apply_integer x
        · exact lands_apply_timestamp x
      rw [runCustoms, hhook]
      refine hlands.bind fun w hw => ?_
      obtain ⟨y, rfl⟩ := hw
      exact ih hnames y

end Customs

section Stages

variable {r : Rule} {x : Value}

private theorem lands_directives [Library] (coherent : r.IsCoherent)
    (hcast : cast .standard r.kind r.casts v path = .ok w) (hadmits : r.kind.admits w = true)
    (hw : w.IsWritable) :
    Lands (r.FailsBy v) (fun _ => True) (Directive.checkAll w path r.directives) := by
  refine Directive.lands_checkAll fun d hd => ?_
  refine (Directive.lands_check (coherent.limits d hd) (coherent.kinds d hd) hadmits).mono
    fun f hf => ?_
  cases hf with
  | rejection h => exact .rejection h
  | pattern p s directive value fault => exact .pattern .refl (directive ▸ hd) fault
  | address s name value read =>
      subst value
      exact .address .refl (.inl ⟨d, hd, name⟩) .refl (cast_path_iff.mp hcast) read
  | places x name value fault =>
      -- A number that can be written out has a count of places.
      subst value
      obtain ⟨n, hn⟩ := (Value.isWritable_ofNumber.mp hw).places?
      have hplaces : (Value.ofNumber x).places = .ok n := by
        cases x <;> simp only [Value.ofNumber, Value.places, hn] <;> rfl
      rw [hplaces] at fault
      contradiction

private theorem lands_customs [Library] (hr : r.RunsStandard)
    (hcast : cast .standard r.kind r.casts v path = .ok w) (hadmits : r.kind.admits w = true)
    (hx : r.kind ≠ .array → r.kind ≠ .object → x = w) :
    Lands (r.FailsBy v) (fun _ => True) (runCustoms .standard path r.customs x) := by
  obtain ⟨c, hkind, -, hcustoms⟩ := hr
  cases c with
  | text =>
      obtain rfl := hx (by rw [hkind]; decide) (by rw [hkind]; decide)
      obtain ⟨t, rfl⟩ : x.IsOf .text := Value.isOf_of_admits (.inl rfl) (hkind ▸ hadmits)
      refine (lands_runCustoms_text hcustoms t).mono fun f hf => ?_
      rcases hf with hf | ⟨fault, rfl, hread, hreads⟩
      · exact .rejection hf
      · exact .address .refl (.inr hreads) .refl (cast_path_iff.mp hcast) hread
  | numeric =>
      obtain rfl := hx (by rw [hkind]; decide) (by rw [hkind]; decide)
      obtain ⟨y, rfl⟩ : x.IsOf .numeric := Value.isOf_of_admits (.inr (.inl rfl)) (hkind ▸ hadmits)
      exact (lands_runCustoms_numeric hcustoms y).mono fun f => .rejection
  | any | boolean | list | struct | object =>
      rw [List.subset_nil.mp hcustoms]
      trivial

end Stages

/-- A check under standard hooks fails by a rejection, a pattern or an address, and by
nothing else. -/
theorem lands_check [Library] {r : Rule} (coherent : ∀ s : Rule, s.IsWithin r → s.IsCoherent)
    (standard : ∀ s : Rule, s.IsWithin r → s.RunsStandard) (hv : v.IsWritable) :
    Lands (r.FailsBy v) (fun _ => True) (r.check .standard v path) := by
  induction r using induct generalizing v path with
  | step r ih =>
      cases hnull : v.isNull with
      | true => exact (lands_check_null hnull).mono fun f hf => .rejection (hf ▸ trivial)
      | false =>
          have hlands :
            Lands Failure.IsRejection (fun w => w.IsWritable ∧ (w = v ∨ ∃ s, w = .scalar s))
              (cast .standard r.kind r.casts v path) := lands_cast (standard r .refl) hv
          rw [check_eq_stages hnull]
          cases hcast : cast .standard r.kind r.casts v path with
          | error f =>
              rw [hcast] at hlands
              exact .rejection hlands
          | ok w =>
              rw [hcast] at hlands
              obtain ⟨hw, hscalar⟩ := hlands
              have hparts : ∀ (s : Rule) (u : Value) (p : String), s.IsPartOf r → u.IsPartOf w →
                  Lands (r.FailsBy v) (fun _ => True) (s.check .standard u p) := by
                intro s u p hs hu
                rcases hscalar with rfl | ⟨t, rfl⟩
                · exact (ih s hs (fun t ht => coherent t (ht.tail hs))
                    (fun t ht => standard t (ht.tail hs)) (hv.of_isPartOf hu)).mono
                      fun f => FailsBy.of_isPartOf hs hu
                · cases hu
              change Lands _ _ (if r.kind.admits w then _ else _)
              split
              · rename_i hadmits
                refine (lands_directives (coherent r .refl) hcast hadmits hw).bind fun _ _ => ?_
                exact (lands_checkParts hparts).bind fun x hx =>
                  lands_customs (standard r .refl) hcast hadmits hx
              · exact .rejection trivial

end Rule

end TermRules
