import TermRules.Proofs.Record.Level
import TermRules.Proofs.Rule.Checking
import TermRules.Proofs.Rule.Sides

/-!
What the directives of a run of terms accept: the values that meet each term of the run by itself.
Intervals and all other demands are treated apart, since only the intervals need a number that
satisfies them all. Objects, and kinds of value without constraints, are left out.
-/

namespace TermRules

namespace Term

/-- What a term demands of a text, its length apart. -/
structure FitsText [Library] (t : Term) (s : String) : Prop where
  patterns : ∀ p ∈ t.constraints.regex.getD [], ∃ r, Pattern.parse p = .ok r ∧
    r.isFoundIn s = true
  url : t.key = Vocabulary.url → ∃ a, Library.address s = .ok a ∧ a.isComplete = true
  hexadecimal : t.key = Vocabulary.hex → Text.isHexadecimal s = true
  email : t.key = Vocabulary.email → Text.isEmail s = true

/-- What a term demands of a number, its size apart. -/
structure FitsNumber (t : Term) (v : Value) : Prop where
  decimals : ∀ d, t.constraints.decimals = some d → ∃ n, v.places = .ok n ∧ (n : Int) ≤ d
  integer : t.key = Vocabulary.integer → ∀ d, v = .double d → d.toInt?.isSome = true

/-- What a term demands of the items of a list. -/
structure FitsItems (t : Term) (items : List Value) : Prop where
  set : t.key = Vocabulary.set → Directive.Distinct items

/-- What a term demands of a value of its category, its interval apart. -/
def Fits [Library] (t : Term) : Category → Value → Prop
  | .text, .text s => t.FitsText s
  | .numeric, v => t.FitsNumber v
  | .list, .list items => t.FitsItems items
  | _, _ => True

/-- The interval that a term sets for the values of a category. -/
def interval? (t : Term) : Category → Option (Interval Number)
  | .text => t.constraints.length
  | .numeric => t.constraints.range
  | .list => t.constraints.size
  | .any | .boolean | .struct | .object => none

end Term

/-- Categories whose values are held to intervals. -/
def Category.IsMeasured (c : Category) : Prop :=
  c = .text ∨ c = .numeric ∨ c = .list

/-- The number that the interval of a category is about. -/
def Category.quantity? (c : Category) (v : Value) : Option Number :=
  match c with
  | .text | .list => v.count?.map fun (n : Nat) => .int n
  | .numeric => v.number?
  | .any | .boolean | .struct | .object => none

/-- Values of a category: texts, numbers or lists. -/
def Value.IsOf (v : Value) : Category → Prop
  | .text => ∃ s, v = .text s
  | .numeric => ∃ x, v = .ofNumber x
  | .list => ∃ items, v = .list items
  | .any | .boolean | .struct | .object => False

theorem Marks.forall_directives_iff (m : Marks) (P : Directive → Prop) :
    (∀ d ∈ m.directives, P d) ↔
      (m.url = true → P ⟨.address, .null⟩) ∧ (m.hexadecimal = true → P ⟨.hexadecimal, .null⟩) ∧
      (m.email = true → P ⟨.email, .null⟩) ∧ (m.integer = true → P ⟨.integer, .null⟩) ∧
      (m.timestamp = true → P ⟨.timestamp, .null⟩) ∧ (m.set = true → P ⟨.unique, .null⟩) := by
  simp [Marks.directives, List.mem_filterMap, or_imp, forall_and]

theorem hasKey_eq_true_iff {key : String} {run : List Term} :
    Record.hasKey key run = true ↔ ∃ t ∈ run, t.key = key := by
  simp [Record.hasKey]

namespace Record

variable {adjust : Bool} {ds : List Directive}

theorem directives_eq_ok {r : Record Number} (h : r.directives adjust = .ok ds) :
    ∃ length range size, boundsOf .length adjust r.length = .ok length ∧
      boundsOf r.rangeNames adjust r.range = .ok range ∧
      boundsOf .size adjust r.size = .ok size ∧
      ds = length ++ range ++ size ++
        (r.decimals.map fun n => Directive.mk .precision (.int n)).toList ++
        (r.regex.map fun p => Directive.mk .pattern (.text p)) ++ r.marks.directives := by
  obtain ⟨length, hlength, h⟩ := bind_eq_ok_iff.mp h
  obtain ⟨range, hrange, h⟩ := bind_eq_ok_iff.mp h
  obtain ⟨size, hsize, h⟩ := bind_eq_ok_iff.mp h
  exact ⟨length, range, size, hlength, hrange, hsize, (pure_eq_ok_iff.mp h).symm⟩

/-- The names of the bounds of a run. -/
def boundNames (c : Category) (run : List Term) : BoundNames :=
  match c with
  | .text => .length
  | .numeric => if hasKey Vocabulary.integer run then .range else .continuousRange
  | _ => .size

/-- The directives of a run other than its bounds. -/
def demands (r : Record Number) : List Directive :=
  (r.decimals.map fun n => Directive.mk .precision (.int n)).toList ++
    (r.regex.map fun p => Directive.mk .pattern (.text p)) ++ r.marks.directives

theorem ofRun_directives_eq_ok {c : Category} (hc : c.IsMeasured) {run : List Term}
    (h : (ofRun c run).directives adjust = .ok ds) :
    ∃ bounds, boundsOf (boundNames c run) adjust
        (Interval.mergeAll (run.map fun t => t.interval? c)) = .ok bounds ∧
      ds = bounds ++ (ofRun c run).demands := by
  obtain ⟨length, range, size, hlength, hrange, hsize, rfl⟩ := directives_eq_ok h
  rcases hc with rfl | rfl | rfl
  · cases hrange
    cases hsize
    exact ⟨length, hlength, by simp [demands]⟩
  · cases hlength
    cases hsize
    exact ⟨range, hrange, by simp [demands]⟩
  · cases hlength
    cases hrange
    exact ⟨size, hsize, by simp [demands]⟩

private theorem demands_text_iff [Library] {run : List Term} {s : String} {path : String} :
    (∀ d ∈ (ofRun .text run).demands, d.check (.text s) path = .ok ()) ↔
      ∀ t ∈ run, t.FitsText s := by
  have hregex : (∀ d ∈ (ofRun .text run).regex.map fun p => Directive.mk .pattern (.text p),
      d.check (.text s) path = .ok ()) ↔
      ∀ t ∈ run, ∀ p ∈ t.constraints.regex.getD [], ∃ r, Pattern.parse p = .ok r ∧
        r.isFoundIn s = true := by
    simp only [ofRun, textOfRun, List.forall_mem_map, List.mem_flatMap, Directive.check_pattern_iff]
    constructor
    · intro h t ht p hp
      exact h p ⟨t, ht, hp⟩
    · rintro h p ⟨t, ht, hp⟩
      exact h t ht p hp
  rw [demands, List.forall_mem_append, List.forall_mem_append, hregex,
    Marks.forall_directives_iff, Directive.check_address_iff, Directive.check_hexadecimal_iff,
    Directive.check_email_iff]
  simp only [ofRun, textOfRun, hasKey_eq_true_iff]
  constructor
  · rintro ⟨⟨-, hpatterns⟩, hurl, hhex, hemail, -⟩ t ht
    exact ⟨hpatterns t ht, fun h => hurl ⟨t, ht, h⟩, fun h => hhex ⟨t, ht, h⟩,
      fun h => hemail ⟨t, ht, h⟩⟩
  · intro h
    refine ⟨⟨by simp, fun t ht => (h t ht).patterns⟩, ?_, ?_, ?_, by simp⟩
    · rintro ⟨t, ht, hkey⟩
      exact (h t ht).url hkey
    · rintro ⟨t, ht, hkey⟩
      exact (h t ht).hexadecimal hkey
    · rintro ⟨t, ht, hkey⟩
      exact (h t ht).email hkey

theorem check_integer_iff [Library] {v : Value} {path : String} :
    (Directive.mk .integer .null).check v path = .ok () ↔
      ∀ d, v = .double d → d.toInt?.isSome = true := by
  simp only [Directive.check, Directive.checkWhole]
  split
  · rw [demand_eq_ok_iff]
    simp
  · rename_i hv
    simp only [true_iff]
    intro d hd
    exact absurd hd (hv d)

private theorem demands_numeric_iff [Library] {run : List Term} {v : Value} {path : String} :
    (∀ d ∈ (ofRun .numeric run).demands, d.check v path = .ok ()) ↔
      ∀ t ∈ run, t.FitsNumber v := by
  have hdecimals : (∀ d ∈ ((ofRun .numeric run).decimals.map
      fun n => Directive.mk .precision (.int n)).toList, d.check v path = .ok ()) ↔
      ∀ t ∈ run, ∀ d, t.constraints.decimals = some d →
        ∃ n, v.places = .ok n ∧ (n : Int) ≤ d := by
    have hmin := forall_min?_iff (P := fun d => ∃ n, v.places = .ok n ∧ (n : Int) ≤ d)
      (fun a b hab ⟨n, hn, hna⟩ => ⟨n, hn, hna.trans hab⟩)
      (run.filterMap fun t => t.constraints.decimals)
    simp only [List.mem_filterMap, forall_exists_index, and_imp] at hmin
    simp only [ofRun, numericOfRun, Option.mem_toList, Option.map_eq_some_iff,
      forall_exists_index, and_imp, forall_apply_eq_imp_iff₂, Directive.check_precision_iff, hmin]
    grind
  rw [demands, List.forall_mem_append, List.forall_mem_append, hdecimals,
    Marks.forall_directives_iff, check_integer_iff]
  simp only [ofRun, numericOfRun, hasKey_eq_true_iff]
  constructor
  · rintro ⟨⟨hdecimals, -⟩, -, -, -, hinteger, -⟩ t ht
    exact ⟨hdecimals t ht, fun h => hinteger ⟨t, ht, h⟩⟩
  · intro h
    refine ⟨⟨fun t ht => (h t ht).decimals, by simp⟩, by simp, by simp, by simp, ?_, ?_, by simp⟩
    · rintro ⟨t, ht, hkey⟩
      exact (h t ht).integer hkey
    · intro _
      rfl

private theorem demands_list_iff [Library] {run : List Term} {items : List Value} {path : String} :
    (∀ d ∈ (ofRun .list run).demands, d.check (.list items) path = .ok ()) ↔
      ∀ t ∈ run, t.FitsItems items := by
  rw [demands, List.forall_mem_append, List.forall_mem_append, Marks.forall_directives_iff,
    Directive.check_unique_iff]
  simp only [ofRun, listOfRun, hasKey_eq_true_iff]
  constructor
  · rintro ⟨-, -, -, -, -, -, hset⟩ t ht
    exact ⟨fun h => hset ⟨t, ht, h⟩⟩
  · intro h
    refine ⟨by simp, by simp, by simp, by simp, by simp, by simp, ?_⟩
    rintro ⟨t, ht, hkey⟩
    exact (h t ht).set hkey

theorem demands_accept_iff [Library] {c : Category} {run : List Term} {v : Value} (hv : v.IsOf c)
    (path : String) :
    (∀ d ∈ (ofRun c run).demands, d.check v path = .ok ()) ↔ ∀ t ∈ run, t.Fits c v := by
  cases c with
  | text =>
      obtain ⟨s, rfl⟩ := hv
      exact demands_text_iff
  | numeric => exact demands_numeric_iff
  | list =>
      obtain ⟨items, rfl⟩ := hv
      exact demands_list_iff
  | any | boolean | struct | object => exact hv.elim

/-- A value that the directives of a run accept fits each term of it. -/
theorem fits_of_accepted [Library] {c : Category} (hc : c.IsMeasured) {run : List Term}
    (h : (ofRun c run).directives adjust = .ok ds) {v : Value} (hv : v.IsOf c) {path : String}
    (haccept : ∀ d ∈ ds, d.check v path = .ok ()) : ∀ t ∈ run, t.Fits c v := by
  obtain ⟨bounds, -, rfl⟩ := ofRun_directives_eq_ok hc h
  exact (demands_accept_iff hv path).mp (List.forall_mem_append.mp haccept).2

private theorem quantity?_boundNames {c : Category} (hc : c.IsMeasured) (run : List Term)
    (v : Value) : (boundNames c run).point.quantity? v = c.quantity? v := by
  rcases hc with rfl | rfl | rfl
  · rfl
  · rw [boundNames]
    split <;> rfl
  · rfl

theorem lawful_boundNames (c : Category) (run : List Term) : (boundNames c run).Lawful := by
  cases c with
  | text => exact BoundNames.lawful_length
  | numeric =>
      rw [boundNames]
      split
      · exact BoundNames.lawful_range
      · exact BoundNames.lawful_continuousRange
  | any | boolean | list | struct | object => exact BoundNames.lawful_size

theorem exists_integer_of_no_strict {run : List Term}
    (h : (boundNames .numeric run).strict = none) : ∃ t ∈ run, t.key = Vocabulary.integer := by
  by_contra hkey
  rw [← hasKey_eq_true_iff] at hkey
  simp [boundNames, hkey, BoundNames.continuousRange] at h

/-- The quantity of a value is whole where exclusive ends have no strict names. -/
theorem whole_quantity [Library] {c : Category} {run : List Term} {v : Value} {x : Number}
    {p : Point} (hv : v.IsOf c) (hfits : ∀ t ∈ run, t.Fits c v) (hx : c.quantity? v = some x)
    (hp : x.point? = some p) (hstrict : (boundNames c run).strict = none) :
    ∃ n : Int, p = .at n := by
  cases c with
  | text | list =>
      obtain ⟨n, -, rfl⟩ := Option.map_eq_some_iff.mp hx
      exact ⟨n, (Option.some.inj hp).symm⟩
  | numeric =>
      obtain ⟨y, rfl⟩ := hv
      obtain ⟨t, ht, hkey⟩ := exists_integer_of_no_strict hstrict
      cases y with
      | int n =>
          cases hx
          exact ⟨n, (Option.some.inj hp).symm⟩
      | double d =>
          obtain ⟨n, hn⟩ := Option.isSome_iff_exists.mp ((hfits t ht).integer hkey d rfl)
          cases hx
          exact ⟨n, Option.some.inj (hp.symm.trans (Double.point?_of_toInt? hn))⟩
  | any | boolean | struct | object => exact hv.elim

/-- The directives of a run accept the values that meet every term of it, as long as the intervals
of the run have a number in common. -/
theorem directives_accept_iff [Library] {c : Category} (hc : c.IsMeasured) {run : List Term}
    (free : ∀ t ∈ run, ∀ i, t.interval? c = some i → i.NaNFree) {m : Number}
    (common : ∀ t ∈ run, ∀ i, t.interval? c = some i → i.normalize.Contains m)
    (whole : (boundNames c run).strict = none → ∀ t ∈ run, ∀ i, t.interval? c = some i →
      i.lower.IsWholeBound ∧ i.upper.IsWholeBound)
    (h : (ofRun c run).directives adjust = .ok ds) {v : Value} {x : Number} {p : Point}
    (hv : v.IsOf c) (hx : c.quantity? v = some x) (hp : x.point? = some p) (path : String) :
    (∀ d ∈ ds, d.check v path = .ok ()) ↔
      ∀ t ∈ run, (∀ i, t.interval? c = some i →
        (i.normalize.relax (Interval.isLoose (boundNames c run) adjust)).Contains x) ∧
        t.Fits c v := by
  have hmem {P : Interval Number → Prop} :
      (∀ i, some i ∈ run.map (fun t => t.interval? c) → P i) ↔
        ∀ t ∈ run, ∀ i, t.interval? c = some i → P i := by
    simp only [List.mem_map]
    exact ⟨fun h t ht i hi => h i ⟨t, ht, hi⟩, fun h i ⟨t, ht, hi⟩ => h t ht i hi⟩
  obtain ⟨bounds, hbounds, rfl⟩ := ofRun_directives_eq_ok hc h
  rw [List.forall_mem_append, demands_accept_iff hv]
  simp only [forall_and]
  -- That the value is whole comes from the other demands, so these are settled first.
  refine and_congr_left fun hfits => ?_
  rw [← hmem, ← Interval.admits_mergeAll_relax_iff (hmem.mpr free) (hmem.mpr common)]
  have hmerged := Interval.contains_mergeAll (hmem.mpr free) (hmem.mpr common)
  cases hk : Interval.mergeAll (run.map fun t => t.interval? c) with
  | none =>
      rw [hk] at hbounds
      cases hbounds
      simp [Interval.Admits]
  | some k =>
      rw [hk] at hbounds
      obtain ⟨kfree, km⟩ := hmerged k hk
      have hwhole (hstrict : (boundNames c run).strict = none) (_ : adjust = true) :
          k.lower.IsWholeBound ∧ k.upper.IsWholeBound ∧ ∃ n : Int, p = .at n := by
        obtain ⟨hlower, hupper⟩ := Interval.mergeAll_bounds (hmem.mpr (whole hstrict)) k hk
        exact ⟨hlower, hupper, whole_quantity hv hfits hx hp hstrict⟩
      rw [Interval.directives_accept_iff (lawful_boundNames c run) hbounds kfree km
        (by rw [quantity?_boundNames hc, hx]) hp hwhole path]
      simp [Interval.Admits]

end Record

end TermRules
