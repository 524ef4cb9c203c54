import TermRules.Proofs.Interval.Merging
import TermRules.Record.Hierarchy

/-!
The record of a run of terms of one category, field by field and each from the run alone. Taking in
one more term gives the record of the run that ends in it. The axes of an object are described by
the records they compile to; whether they compile is not settled here.
-/

namespace TermRules

theorem Category.ofName?_eq_some_iff {s : String} {c : Category} :
    Category.ofName? s = some c ↔ s = c.name := by
  constructor
  · intro h
    have := List.find?_some h
    exact (beq_iff_eq.mp this).symm
  · rintro rfl
    exact Category.ofName?_name c

theorem Category.name_injective : Function.Injective Category.name := by
  intro c d h
  simpa only [Category.ofName?_name, Option.some.injEq] using congrArg Category.ofName? h

theorem forall_min?_iff {P : Int → Prop} (mono : ∀ a b, a ≤ b → P a → P b) (xs : List Int) :
    (∀ m, xs.min? = some m → P m) ↔ ∀ x ∈ xs, P x := by
  constructor
  · intro h x hx
    obtain ⟨m, hm⟩ : ∃ m, xs.min? = some m := by
      cases hmin : xs.min? with
      | none => simp [List.min?_eq_none_iff.mp hmin] at hx
      | some m => exact ⟨m, rfl⟩
    have hle : m ≤ x := (List.le_min?_iff hm).mp le_rfl x hx
    exact mono m x hle (h m hm)
  · intro h m hm
    exact h m (List.min?_mem hm)

theorem nodup_eraseDups (names : List String) : names.eraseDups.Nodup := by
  induction names using List.reverseRecOn with
  | nil => simp
  | append_singleton names name ih =>
      rw [List.eraseDups_append, List.nodup_append]
      by_cases hname : name ∈ names
      · simp [List.removeAll, hname, ih]
      · have hne : ∀ a ∈ names, ¬ a = name := fun a ha heq => hname (heq ▸ ha)
        simpa [List.removeAll, hname, ih, List.eraseDups_cons] using hne

namespace Record

/-- What the last term of a run that says anything says. -/
def lastSet {α : Type} (f : Term → Option α) (run : List Term) : Option α :=
  run.reverse.findSome? f

def hasKey (key : String) (run : List Term) : Bool :=
  run.any fun t => t.key == key

/-- The record of an axis that is there, is not empty and compiles. -/
def axisRecord (axis : Option (List Term)) : Option (Record Number) :=
  (axis.filter fun terms => !terms.isEmpty).bind fun terms => (ofHierarchy terms).toOption

def textOfRun (run : List Term) : Record Number where
  length := Interval.mergeAll (run.map fun t => t.constraints.length)
  regex := run.flatMap fun t => t.constraints.regex.getD []
  target := {
    collection := lastSet (fun t => t.constraints.target.collection) run
    instanceName := lastSet (fun t => t.constraints.target.instanceName) run
    terms := lastSet (fun t => t.constraints.target.terms) run
    fields := lastSet (fun t => t.constraints.target.fields) run }
  marks := {
    url := hasKey Vocabulary.url run
    hexadecimal := hasKey Vocabulary.hex run
    email := hasKey Vocabulary.email run
    reference := run.any fun t =>
      Vocabulary.isReference t.key || !t.constraints.target.isEmpty }

def numericOfRun (run : List Term) : Record Number where
  range := Interval.mergeAll (run.map fun t => t.constraints.range)
  decimals := (run.filterMap fun t => t.constraints.decimals).min?
  marks := {
    integer := hasKey Vocabulary.integer run
    timestamp := hasKey Vocabulary.timestamp run }

def listOfRun (run : List Term) : Record Number where
  size := Interval.mergeAll (run.map fun t => t.constraints.size)
  marks := { set := hasKey Vocabulary.set run }

def objectOfRun (run : List Term) : Record Number where
  keyRecord := lastSet (fun t => axisRecord t.keyAxis) run
  valueRecord := lastSet (fun t => axisRecord t.valueAxis) run

/-- The record of a run of terms of the category `c`. -/
def ofRun (c : Category) (run : List Term) : Record Number :=
  let r := match c with
    | .text => textOfRun run
    | .numeric => numericOfRun run
    | .list => listOfRun run
    | .object => objectOfRun run
    | .any | .boolean | .struct => {}
  { r with
    category := some c
    casts := (run.flatMap fun t => t.casts).eraseDups
    customs := (run.flatMap fun t => t.customs).eraseDups }

theorem ofRun_category (c : Category) (run : List Term) : (ofRun c run).category = some c := rfl

theorem ofRun_child (c : Category) (run : List Term) : (ofRun c run).child = none := by
  cases c <;> rfl

theorem ofRun_casts (c : Category) (run : List Term) :
    (ofRun c run).casts = (run.flatMap fun t => t.casts).eraseDups := rfl

theorem ofRun_customs (c : Category) (run : List Term) :
    (ofRun c run).customs = (run.flatMap fun t => t.customs).eraseDups := rfl

theorem lastSet_concat {α : Type} (f : Term → Option α) (run : List Term) (t : Term) :
    lastSet f (run ++ [t]) = (f t).or (lastSet f run) := by
  rw [lastSet, lastSet, List.reverse_append, List.reverse_singleton, List.singleton_append,
    List.findSome?_cons]
  cases f t <;> rfl

theorem lastSet_singleton {α : Type} (f : Term → Option α) (t : Term) : lastSet f [t] = f t := by
  simp [lastSet]

private theorem hasKey_concat (key : String) (run : List Term) (t : Term) :
    hasKey key (run ++ [t]) = (hasKey key run || t.key == key) := by
  simp [hasKey]

theorem min?_filterMap_concat (f : Term → Option Int) (run : List Term) (t : Term) :
    ((run ++ [t]).filterMap f).min? = least (run.filterMap f).min? (f t) := by
  rw [List.filterMap_append]
  cases h : f t with
  | none => cases run.filterMap f <;> simp [h, least]
  | some x => cases run.filterMap f <;> simp [h, least, List.min?_cons', -List.min?_cons]

private theorem appendNew_eraseDups (xs ys : List String) :
    appendNew xs.eraseDups ys = (xs ++ ys).eraseDups := by
  induction ys generalizing xs with
  | nil => simp [appendNew]
  | cons y ys ih =>
      have hstep : (if xs.eraseDups.contains y then xs.eraseDups else xs.eraseDups ++ [y]) =
          (xs ++ [y]).eraseDups := by
        rw [List.eraseDups_append]
        by_cases h : y ∈ xs <;> simp [h, List.removeAll, List.eraseDups_cons]
      calc appendNew xs.eraseDups (y :: ys)
          = appendNew (xs ++ [y]).eraseDups ys := by rw [← hstep]; rfl
        _ = (xs ++ y :: ys).eraseDups := by rw [ih, List.append_assoc, List.singleton_append]

/-- The axes of a term are described, if it is an object. -/
def AxesOf (c : Category) (axes : Axes) (t : Term) : Prop :=
  c = .object → axes = ⟨axisRecord t.keyAxis, axisRecord t.valueAxis⟩

theorem absorb_ofRun {c : Category} {axes : Axes} {t : Term} (h : AxesOf c axes t)
    (run : List Term) : absorb c axes t (ofRun c run) = ofRun c (run ++ [t]) := by
  have hcasts := appendNew_eraseDups (run.flatMap fun t => t.casts) t.casts
  have hcustoms := appendNew_eraseDups (run.flatMap fun t => t.customs) t.customs
  cases c with
  | text =>
      simp [absorb, absorbText, ofRun, textOfRun, Target.overlay, Interval.mergeAll_concat,
        lastSet_concat, hasKey_concat, hcasts, hcustoms, Bool.or_assoc]
  | numeric =>
      simp [absorb, absorbNumeric, ofRun, numericOfRun, Interval.mergeAll_concat, hasKey_concat,
        min?_filterMap_concat, hcasts, hcustoms, -List.filterMap_append]
  | list =>
      simp [absorb, absorbList, ofRun, listOfRun, Interval.mergeAll_concat, hasKey_concat, hcasts,
        hcustoms]
  | object =>
      simp [absorb, absorbObject, ofRun, objectOfRun, lastSet_concat, hcasts, hcustoms, h rfl]
  | any | boolean | struct => simp [absorb, ofRun, hcasts, hcustoms]

theorem absorb_empty {c : Category} {axes : Axes} {t : Term} (h : AxesOf c axes t) :
    absorb c axes t {} = ofRun c [t] := by
  have hempty : absorb c axes t {} = absorb c axes t (ofRun c []) := by
    cases c <;> rfl
  rw [hempty, absorb_ofRun h, List.nil_append]

/-- A term that is no object has no axes, whatever stands there. -/
theorem axesOf_of_category {c : Category} (hc : c ≠ .object) {t : Term}
    (ht : t.category = c.name) : axesOf t = .ok (c, {}) := by
  obtain ⟨id, key, category, parent, constraints, casts, customs, keyAxis, valueAxis⟩ := t
  have hname : Category.ofName? category = some c := Category.ofName?_eq_some_iff.mpr ht
  cases c with
  | object => contradiction
  | any | boolean | text | numeric | list | struct => simp [axesOf, hname]

end Record

end TermRules
