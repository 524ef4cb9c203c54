import TermRules.Proofs.Record.Narrowing
import TermRules.Proofs.Term.Overlay

/-!
Options over a hierarchy of one category. They take the place of what its most general term
demands and leave what the others demand, so that they narrow the record as far as they narrow
that of this one term. A NaN among their bounds lets nothing pass. Numbers that crossed bounds let
in again are left aside.
-/

namespace TermRules

namespace Interval

variable {base above : Option (Interval Number)} {rest : List (Option (Interval Number))}
  {x : Number}

end Interval

/-- The quantities that intervals constrain. -/
inductive Measure where
  | length
  | range
  | size
  deriving DecidableEq, Repr

namespace Measure

/-- The category whose values have the measure. -/
def category : Measure → Category
  | .length => .text
  | .range => .numeric
  | .size => .list

/-- The axis along which options set it. -/
def axis : Measure → Axis
  | .length | .range => .scalar
  | .size => .list

end Measure

def Constraints.interval (c : Constraints) : Measure → Option (Interval Number)
  | .length => c.length
  | .range => c.range
  | .size => c.size

private theorem Constraints.NaNFree.interval {k : Constraints} (h : k.NaNFree) (m : Measure) :
    ∀ i, k.interval m = some i → i.NaNFree := by
  cases m
  exacts [h.length, h.range, h.size]

def Record.interval (r : Record Number) : Measure → Option (Interval Number)
  | .length => r.length
  | .range => r.range
  | .size => r.size

/-- Options lay the field over terms along this axis and leave it alone along the others. -/
def Axis.Governs {β : Type} (a : Axis) (f : Constraints → Option β) : Prop :=
  ∀ (b : Axis) (c : Constraints) (t : Term), f (b.overlay c t).constraints =
    if b = a then (f c).or (f t.constraints) else f t.constraints

namespace Hierarchy

variable {β : Type} {f : Constraints → Option β} {a b : Axis} {c : Constraints}
  {h specific general : Hierarchy} {base : Term}

private theorem injectAxis_cons_of_last (hbase : a.selects base = true)
    (hgeneral : general.any a.selects = false) :
    injectAxis a c (specific ++ base :: general) = specific ++ a.overlay c base :: general := by
  have hany : (base :: general).any a.selects = true := by simp [hbase]
  rw [injectAxis_append, if_pos hany]
  simp [injectAxis, updateLast, hbase, hgeneral]

private theorem map_injectAxis_of_ne (hf : a.Governs f) (hne : b ≠ a) (h : Hierarchy) :
    (injectAxis b c h).map (fun t => f t.constraints) = h.map fun t => f t.constraints :=
  map_updateLast (fun t => (hf b c t).trans (if_neg hne)) h

/-- Along one axis only what its field says beforehand matters to what it says afterwards. -/
theorem map_injectAxis_congr (hf : a.Governs f) {h' : Hierarchy}
    (hretunes : List.Forall₂ Term.Retunes h h')
    (hsame : h'.map (fun t => f t.constraints) = h.map fun t => f t.constraints) :
    (injectAxis a c h').map (fun t => f t.constraints) =
      (injectAxis a c h).map fun t => f t.constraints := by
  induction hretunes with
  | nil => rfl
  | @cons t u general general' htu hretunes ih =>
      obtain ⟨hhead, htail⟩ : f u.constraints = f t.constraints ∧ _ := List.cons.inj hsame
      have hlaid : f (a.overlay c u).constraints = f (a.overlay c t).constraints := by
        rw [hf, hf, if_pos rfl, if_pos rfl, hhead]
      simp only [injectAxis, updateLast, any_selects_of_retunes hretunes, htu.selects a]
      cases general.any a.selects with
      | true =>
          rw [if_pos rfl, if_pos rfl, List.map_cons, List.map_cons, hhead]
          exact congrArg _ (ih htail)
      | false =>
          cases a.selects t with
          | true => exact congrArg₂ List.cons hlaid htail
          | false => exact congrArg₂ List.cons hhead htail

/-- Options lay a field as if its axis were the only one. -/
theorem map_inject_of_governs (hf : a.Governs f) (h : Hierarchy) :
    (inject c h).map (fun t => f t.constraints) =
      (injectAxis a c h).map fun t => f t.constraints := by
  have hscalar := retunes_injectAxis .scalar c h
  cases a with
  | scalar =>
      rw [inject, map_injectAxis_of_ne hf (b := .reference) (by decide),
        map_injectAxis_of_ne hf (b := .list) (by decide)]
  | list =>
      rw [inject, map_injectAxis_of_ne hf (b := .reference) (by decide)]
      exact map_injectAxis_congr hf hscalar (map_injectAxis_of_ne hf (by decide) h)
  | reference =>
      have htrans : ∀ t u v : Term, t.Retunes u → u.Retunes v → t.Retunes v := fun _ _ _ => .trans
      refine map_injectAxis_congr hf (forall₂_trans htrans hscalar (retunes_injectAxis .list c _))
        ?_
      rw [map_injectAxis_of_ne hf (b := .list) (by decide),
        map_injectAxis_of_ne hf (b := .scalar) (by decide)]

/-- Options replace what the last selected term says and nothing that the others say. -/
theorem map_inject_of_last (hf : a.Governs f) (hbase : a.selects base = true)
    (hgeneral : general.any a.selects = false) :
    (inject c (specific ++ base :: general)).map (fun t => f t.constraints) =
      specific.map (fun t => f t.constraints) ++
        (f c).or (f base.constraints) :: general.map fun t => f t.constraints := by
  have hlaid : f (a.overlay c base).constraints = (f c).or (f base.constraints) :=
    (hf a c base).trans (if_pos rfl)
  rw [map_inject_of_governs hf, injectAxis_cons_of_last hbase hgeneral, List.map_append,
    List.map_cons, hlaid]

/-- What the terms set a field to, from the most general one on. -/
def settings (f : Constraints → Option β) (h : Hierarchy) : List (Option β) :=
  h.reverse.map fun t => f t.constraints

def intervals (m : Measure) (h : Hierarchy) : List (Option (Interval Number)) :=
  h.settings fun c => c.interval m

end Hierarchy

namespace Record

/-- `s` allows no more decimals than `r`. -/
def DecimalsWithin (s r : Record Number) : Prop :=
  ∀ d, r.decimals = some d → ∃ e, s.decimals = some e ∧ e ≤ d

section Runs

variable {m : Measure} {h : Hierarchy} {s : Record Number}

private theorem DecimalsWithin.refl (r : Record Number) : r.DecimalsWithin r :=
  fun d hd => ⟨d, hd, le_rfl⟩

end Runs

section Override

variable {m n : Measure} {c : Constraints} {specific : Hierarchy} {base : Term} {x : Number}
  (hcategory : ∀ t ∈ specific ++ [base], t.category = m.category.name)
  (free : ∀ t ∈ specific ++ [base], t.constraints.NaNFree)

end Override

end Record

end TermRules
