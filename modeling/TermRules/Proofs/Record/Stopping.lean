import Mathlib.Logic.Relation
import TermRules.Proofs.Record.Runs

/-!
Which hierarchies compile, and with what the others fail. A walk takes terms in from the end of a
hierarchy. A sound term names a category and, if that is the object, has sound axes of which that of
the keys ends in a text. The walk stops at the first term that is not sound, with the first fault of
that term; the terms in front of it are left. What the levels of a sound hierarchy hold is not
looked at here.
-/

namespace TermRules

namespace Term

/-- The terms that describe the keys of an object, if there are any. -/
def keyTerms (t : Term) : Hierarchy :=
  t.keyAxis.getD []

def valueTerms (t : Term) : Hierarchy :=
  t.valueAxis.getD []

/-- A term that can be taken in. -/
inductive IsSound : Term → Prop where
  | plain {t : Term} {c : Category} (named : t.category = c.name) (plain : c ≠ .object) : IsSound t
  | object {t : Term} (named : t.category = Category.object.name)
      (keys : ∀ u ∈ t.keyTerms, IsSound u)
      (text : ∀ u, t.keyTerms.getLast? = some u → u.category = Category.text.name)
      (values : ∀ u ∈ t.valueTerms, IsSound u) : IsSound t

/-- The first fault of a term: its category, then its keys and what these are, then its values. -/
inductive FailsWith : Term → Failure → Prop where
  | category {t : Term} (unknown : ∀ c : Category, t.category ≠ c.name) :
      FailsWith t (.unrecognizedCategory t.id t.category)
  | keys {t u : Term} {front behind : Hierarchy} {f : Failure}
      (named : t.category = Category.object.name) (keys : t.keyTerms = front ++ u :: behind)
      (sound : ∀ w ∈ behind, w.IsSound) (fails : FailsWith u f) : FailsWith t f
  | keyCategory {t u : Term} {c : Category} (named : t.category = Category.object.name)
      (keys : ∀ w ∈ t.keyTerms, w.IsSound) (last : t.keyTerms.getLast? = some u)
      (keysNamed : u.category = c.name) (other : c ≠ .text) : FailsWith t (.keyNotText t.id c)
  | values {t u : Term} {front behind : Hierarchy} {f : Failure}
      (named : t.category = Category.object.name) (keys : ∀ w ∈ t.keyTerms, w.IsSound)
      (text : ∀ w, t.keyTerms.getLast? = some w → w.category = Category.text.name)
      (values : t.valueTerms = front ++ u :: behind)
      (sound : ∀ w ∈ behind, w.IsSound) (fails : FailsWith u f) : FailsWith t f

private theorem sizeOf_lt_of_mem_axis {t u : Term} (hu : u ∈ t.keyTerms ∨ u ∈ t.valueTerms) :
    sizeOf u < sizeOf t := by
  obtain ⟨id, key, category, parent, constraints, casts, customs, keyAxis, valueAxis⟩ := t
  have hlt {axis : Option Hierarchy} (hu : u ∈ axis.getD []) : sizeOf u < sizeOf axis := by
    cases axis with
    | none => contradiction
    | some terms =>
        have := List.sizeOf_lt_of_mem (show u ∈ terms from hu)
        simp only [Option.some.sizeOf_spec]
        omega
  simp only [mk.sizeOf_spec]
  rcases hu with hu | hu
  · have : sizeOf u < sizeOf keyAxis := hlt hu
    omega
  · have : sizeOf u < sizeOf valueAxis := hlt hu
    omega

/-- What a term has whenever the terms of its axes have it, every term has. -/
theorem induct {P : Term → Prop}
    (step : ∀ t : Term, (∀ u ∈ t.keyTerms, P u) → (∀ u ∈ t.valueTerms, P u) → P t) (t : Term) :
    P t :=
  step t
    (fun u hu =>
      have := sizeOf_lt_of_mem_axis (.inl hu)
      induct step u)
    (fun u hu =>
      have := sizeOf_lt_of_mem_axis (.inr hu)
      induct step u)
termination_by sizeOf t

private theorem IsSound.named {t : Term} (h : t.IsSound) : ∃ c : Category, t.category = c.name := by
  cases h with
  | plain named _ => exact ⟨_, named⟩
  | object named _ _ _ => exact ⟨_, named⟩

end Term

namespace Hierarchy

variable {h : Hierarchy}

/-- The terms of a hierarchy are sound, or there is a last one with a fault. -/
theorem sound_or_fails (hterms : ∀ t ∈ h, t.IsSound ∨ ∃ f, t.FailsWith f) :
    (∀ t ∈ h, t.IsSound) ∨ ∃ front t behind f, h = front ++ t :: behind ∧
      (∀ u ∈ behind, u.IsSound) ∧ t.FailsWith f := by
  induction h with
  | nil => exact .inl fun t ht => absurd ht List.not_mem_nil
  | cons t general ih =>
      rcases ih fun u hu => hterms u (List.mem_cons_of_mem t hu) with
        hsound | ⟨front, u, behind, f, rfl, hsound, hfails⟩
      · rcases hterms t List.mem_cons_self with ht | ⟨f, ht⟩
        · exact .inl (List.forall_mem_cons.mpr ⟨ht, hsound⟩)
        · exact .inr ⟨[], t, general, f, rfl, hsound, ht⟩
      · exact .inr ⟨t :: front, u, behind, f, rfl, hsound, hfails⟩

end Hierarchy

private theorem Term.sound_or_fails (t : Term) : t.IsSound ∨ ∃ f, t.FailsWith f := by
  induction t using Term.induct with
  | step t ihkeys ihvalues =>
      by_cases hnamed : ∃ c : Category, t.category = c.name
      · obtain ⟨c, hc⟩ := hnamed
        by_cases hobject : c = .object
        · subst hobject
          rcases Hierarchy.sound_or_fails ihkeys with
            hkeys | ⟨front, u, behind, f, hkeys, hsound, hfails⟩
          · by_cases htext : ∀ u, t.keyTerms.getLast? = some u → u.category = Category.text.name
            · rcases Hierarchy.sound_or_fails ihvalues with
                hvalues | ⟨front, u, behind, f, hvalues, hsound, hfails⟩
              · exact .inl (.object hc hkeys htext hvalues)
              · exact .inr ⟨f, .values hc hkeys htext hvalues hsound hfails⟩
            · simp only [not_forall] at htext
              obtain ⟨u, hu, hcategory⟩ := htext
              obtain ⟨d, hd⟩ := (hkeys u (List.mem_of_getLast? hu)).named
              refine .inr ⟨_, .keyCategory hc hkeys hu hd ?_⟩
              rintro rfl
              exact hcategory hd
          · exact .inr ⟨f, .keys hc hkeys hsound hfails⟩
        · exact .inl (.plain hc hobject)
      · exact .inr ⟨_, .category (not_exists.mp hnamed)⟩

namespace Record

variable {h front behind : Hierarchy} {t : Term} {f : Failure} {c : Category} {axes : Axes}
  {ls : List (Record Number)} {r : Record Number}

private theorem levels_isOk (hterms : ∀ t ∈ h, ∃ found, axesOf t = .ok found) :
    ∃ ls, levels h = .ok ls := by
  induction h with
  | nil => exact ⟨[], rfl⟩
  | cons t general ih =>
      obtain ⟨ls, hls⟩ := ih fun u hu => hterms u (List.mem_cons_of_mem t hu)
      obtain ⟨found, hfound⟩ := hterms t List.mem_cons_self
      exact ⟨extend found.1 found.2 t ls, by simp only [levels_cons, hls, hfound]⟩

/-- A term that cannot be taken in leaves those in front of it unread. -/
theorem levels_stop (hbehind : levels behind = .ok ls) (ht : axesOf t = .error f) :
    levels (front ++ t :: behind) = .error ⟨f, front⟩ := by
  induction front with
  | nil => simp only [List.nil_append, levels_cons, hbehind, ht]
  | cons u front ih => simp only [List.cons_append, levels_cons, ih]

/-- What an axis whose terms can be taken in has a record of, if it has any terms. -/
theorem ofAxis_of_levels {axis : Option Hierarchy} (hl : levels (axis.getD []) = .ok ls) :
    axis.getD [] = [] ∧ ofAxis axis = .ok none ∨
      ∃ u r, (axis.getD []).getLast? = some u ∧ ofAxis axis = .ok (some r) ∧
        ∀ c : Category, u.category = c.name → r.category = some c := by
  cases axis with
  | none => exact .inl ⟨rfl, rfl⟩
  | some terms =>
      replace hl : levels terms = .ok ls := hl
      cases hlast : terms.getLast? with
      | none =>
          obtain rfl := List.getLast?_eq_none_iff.mp hlast
          exact .inl ⟨rfl, rfl⟩
      | some u =>
          have hne : terms.isEmpty = false := by
            cases terms <;> simp at hlast ⊢
          have hr : ofHierarchy terms = .ok (link ls) := ofHierarchy_eq_ok_iff.mpr ⟨ls, hl, rfl⟩
          refine .inr ⟨u, link ls, hlast, by simp only [ofAxis_some, hl, hne]; rfl, fun c hc => ?_⟩
          exact category_of_getLast hr hlast hc

private theorem ofAxis_isOk {axis : Option Hierarchy} (hl : levels (axis.getD []) = .ok ls) :
    ∃ o, ofAxis axis = .ok o := by
  rcases ofAxis_of_levels hl with ⟨-, haxis⟩ | ⟨u, r, -, haxis, -⟩
  · exact ⟨none, haxis⟩
  · exact ⟨some r, haxis⟩

private theorem ofAxis_stop {axis : Option Hierarchy}
    (hl : levels (axis.getD []) = .error ⟨f, front⟩) : ofAxis axis = .error f := by
  cases axis with
  | none => contradiction
  | some terms => simp only [ofAxis_some, show levels terms = .error ⟨f, front⟩ from hl]

/-- The record of the keys of an object, which must describe text if there is one. -/
def keysOf (t : Term) : Except Failure (Option (Record Number)) :=
  ofAxis t.keyAxis >>= fun
    | none => .ok none
    | some r => some <$> requireText t.id r

private theorem axesOf_object (hc : t.category = Category.object.name) :
    axesOf t = keysOf t >>= fun keys =>
      ofAxis t.valueAxis >>= fun values => .ok (.object, ⟨keys, values⟩) := by
  obtain ⟨id, key, category, parent, constraints, casts, customs, keyAxis, valueAxis⟩ := t
  obtain rfl : category = Category.object.name := hc
  simp only [axesOf, keysOf]
  rw [Category.ofName?_name]
  cases ofAxis keyAxis with
  | error f => rfl
  | ok keys => cases keys <;> rfl

private theorem axesOf_unknown (hc : ∀ c : Category, t.category ≠ c.name) :
    axesOf t = .error (.unrecognizedCategory t.id t.category) := by
  obtain ⟨id, key, category, parent, constraints, casts, customs, keyAxis, valueAxis⟩ := t
  have hnone : Category.ofName? category = none :=
    Option.eq_none_iff_forall_ne_some.mpr fun c h => hc c (Category.ofName?_eq_some_iff.mp h)
  simp only [axesOf]
  rw [hnone]

private theorem keysOf_ok (hl : levels t.keyTerms = .ok ls)
    (htext : ∀ u, t.keyTerms.getLast? = some u → u.category = Category.text.name) :
    ∃ keys, keysOf t = .ok keys := by
  rcases ofAxis_of_levels hl with ⟨-, haxis⟩ | ⟨u, r, hlast, haxis, hcategory⟩
  · exact ⟨none, by rw [keysOf, haxis]; rfl⟩
  · have hr : requireText t.id r = .ok r := by
      rw [requireText, hcategory .text (htext u hlast)]
    exact ⟨some r, by rw [keysOf, haxis]; simp [bind, Except.bind, hr]⟩

private theorem keysOf_notText (hl : levels t.keyTerms = .ok ls) {u : Term}
    (hlast : t.keyTerms.getLast? = some u) (hc : u.category = c.name) (hother : c ≠ .text) :
    keysOf t = .error (.keyNotText t.id c) := by
  rcases ofAxis_of_levels hl with ⟨hnil, -⟩ | ⟨w, r, hw, haxis, hcategory⟩
  · simp [Term.keyTerms, hnil] at hlast
  · obtain rfl := Option.some.inj (hlast.symm.trans hw)
    have hr : requireText t.id r = .error (.keyNotText t.id c) := by
      rw [requireText, hcategory c hc]
      cases c <;> first | rfl | contradiction
    rw [keysOf, haxis]
    simp [bind, Except.bind, hr]

end Record

namespace Term

variable {t : Term} {f : Failure}

open Record

private theorem IsSound.axesOf_isOk (h : t.IsSound) : ∃ found, axesOf t = .ok found := by
  induction h with
  | plain named plain => exact ⟨_, axesOf_of_category plain named⟩
  | object named _ text _ ihkeys ihvalues =>
      obtain ⟨ks, hks⟩ := levels_isOk ihkeys
      obtain ⟨vs, hvs⟩ := levels_isOk ihvalues
      obtain ⟨keys, hkeys⟩ := keysOf_ok hks text
      obtain ⟨values, hvalues⟩ := ofAxis_isOk hvs
      exact ⟨_, by rw [axesOf_object named, hkeys, hvalues]; rfl⟩

private theorem levels_isOk_of_isSound {h : Hierarchy} (hsound : ∀ t ∈ h, t.IsSound) :
    ∃ ls, levels h = .ok ls :=
  levels_isOk fun t ht => (hsound t ht).axesOf_isOk

private theorem FailsWith.axesOf_eq (h : t.FailsWith f) : axesOf t = .error f := by
  induction h with
  | category unknown => exact axesOf_unknown unknown
  | keys named keys sound _ ih =>
      obtain ⟨ls, hls⟩ := levels_isOk_of_isSound sound
      have hkeys := ofAxis_stop ((congrArg levels keys).trans (levels_stop hls ih))
      rw [axesOf_object named, keysOf, hkeys]
      rfl
  | keyCategory named keys last keysNamed other =>
      obtain ⟨ls, hls⟩ := levels_isOk_of_isSound keys
      rw [axesOf_object named, keysOf_notText hls last keysNamed other]
      rfl
  | values named keys text values sound _ ih =>
      obtain ⟨ks, hks⟩ := levels_isOk_of_isSound keys
      obtain ⟨found, hfound⟩ := keysOf_ok hks text
      obtain ⟨ls, hls⟩ := levels_isOk_of_isSound sound
      have hvalues := ofAxis_stop ((congrArg levels values).trans (levels_stop hls ih))
      rw [axesOf_object named, hfound, hvalues]
      rfl

private theorem isSound_iff : t.IsSound ↔ ∃ found, axesOf t = .ok found := by
  refine ⟨IsSound.axesOf_isOk, fun ⟨found, hfound⟩ => ?_⟩
  rcases t.sound_or_fails with hsound | ⟨f, hf⟩
  · exact hsound
  · rw [hf.axesOf_eq] at hfound
    contradiction

/-- What is said of the failure of a term is what the term fails with. -/
theorem failsWith_iff : t.FailsWith f ↔ axesOf t = .error f := by
  refine ⟨FailsWith.axesOf_eq, fun hf => ?_⟩
  rcases t.sound_or_fails with hsound | ⟨f', hf'⟩
  · obtain ⟨found, hfound⟩ := hsound.axesOf_isOk
    rw [hfound] at hf
    contradiction
  · obtain rfl := Except.error.inj (hf'.axesOf_eq.symm.trans hf)
    exact hf'

end Term

namespace Record

variable {h front : Hierarchy} {t : Term} {f : Failure} {ls : List (Record Number)}
  {r : Record Number}

private theorem levels_isOk_iff : (∃ ls, levels h = .ok ls) ↔ ∀ t ∈ h, t.IsSound := by
  refine ⟨fun ⟨ls, hls⟩ t ht => ?_, Term.levels_isOk_of_isSound⟩
  obtain ⟨c, axes, haxes⟩ := axesOf_of_levels_ok hls t ht
  exact Term.isSound_iff.mpr ⟨(c, axes), haxes⟩

private theorem levels_eq_error_iff : levels h = .error ⟨f, front⟩ ↔
    ∃ t behind, h = front ++ t :: behind ∧ (∀ u ∈ behind, u.IsSound) ∧ t.FailsWith f := by
  constructor
  · intro hstop
    rcases Hierarchy.sound_or_fails fun t (_ : t ∈ h) => t.sound_or_fails with
      hsound | ⟨front', t, behind, f', rfl, hsound, hfails⟩
    · obtain ⟨ls, hls⟩ := Term.levels_isOk_of_isSound hsound
      rw [hls] at hstop
      contradiction
    · obtain ⟨ls, hls⟩ := Term.levels_isOk_of_isSound hsound
      rw [levels_stop hls hfails.axesOf_eq] at hstop
      obtain ⟨rfl, rfl⟩ := Stop.mk.inj (Except.error.inj hstop)
      exact ⟨t, behind, rfl, hsound, hfails⟩
  · rintro ⟨t, behind, rfl, hsound, hfails⟩
    obtain ⟨ls, hls⟩ := Term.levels_isOk_of_isSound hsound
    exact levels_stop hls hfails.axesOf_eq

private theorem ofHierarchy_eq_error_iff {stop : Stop} :
    ofHierarchy h = .error stop ↔ levels h = .error stop := by
  rw [ofHierarchy_eq]
  cases levels h <;> simp [Except.map]

/-- A hierarchy that compiles is used up. -/
theorem ofHierarchy_eq_ok_iff_consume : ofHierarchy h = .ok r ↔ consume h = ⟨.ok r, []⟩ := by
  constructor
  · intro hr
    have hunread : ∀ ls, (takeIn h).result = .ok ls → (takeIn h).unread = [] :=
      fun _ => takeIn_unread
    rw [ofHierarchy, consume] at hr
    rw [consume]
    cases htaken : takeIn h with
    | mk result unread =>
        rw [htaken] at hr hunread
        cases result with
        | error f => contradiction
        | ok ls =>
            obtain rfl : unread = [] := hunread ls rfl
            obtain rfl : link ls = r := Except.ok.inj hr
            rfl
  · intro hconsume
    rw [ofHierarchy, hconsume]
    rfl

/-- How far a walk has come: the terms that are left, and the levels met so far. -/
structure Walk where
  left : Hierarchy
  levels : List (Record Number)

/-- The walk takes in the last of the terms that are left. -/
inductive Walk.Advances : Walk → Walk → Prop where
  | takeIn {front : Hierarchy} {t : Term} {c : Category} {axes : Axes} {ls : List (Record Number)}
      (taken : axesOf t = .ok (c, axes)) : Advances ⟨front ++ [t], ls⟩ ⟨front, extend c axes t ls⟩

/-- The walk through `h` comes to leave `front`, with the levels `ls`. -/
def Reaches (h front : Hierarchy) (ls : List (Record Number)) : Prop :=
  Relation.ReflTransGen Walk.Advances ⟨h, []⟩ ⟨front, ls⟩

private theorem reaches_of_levels {behind : Hierarchy} (hl : levels behind = .ok ls) :
    Reaches (front ++ behind) front ls := by
  induction behind generalizing front ls with
  | nil =>
      cases hl
      rw [List.append_nil]
      exact .refl
  | cons t behind ih =>
      obtain ⟨above, c, axes, habove, haxes, rfl⟩ := levels_cons_ok hl
      have hbehind : Reaches ((front ++ [t]) ++ behind) (front ++ [t]) above := ih habove
      rw [List.append_assoc, List.singleton_append] at hbehind
      exact hbehind.tail (.takeIn haxes)

/-- What has been taken in and what is left make up the hierarchy, all along the walk. -/
theorem levels_of_reaches {w : Walk} (hreach : Relation.ReflTransGen Walk.Advances ⟨h, []⟩ w) :
    ∃ behind, h = w.left ++ behind ∧ levels behind = .ok w.levels := by
  induction hreach with
  | refl => exact ⟨[], (List.append_nil h).symm, rfl⟩
  | tail _ hstep ih =>
      obtain ⟨behind, rfl, hbehind⟩ := ih
      cases hstep with
      | @takeIn front t c axes ls haxes =>
          refine ⟨t :: behind, by simp, ?_⟩
          simp only [levels_cons, hbehind, haxes]

private theorem reaches_iff :
    Reaches h front ls ↔ ∃ behind, h = front ++ behind ∧ levels behind = .ok ls := by
  refine ⟨levels_of_reaches, ?_⟩
  rintro ⟨behind, rfl, hl⟩
  exact reaches_of_levels hl

/-- A hierarchy compiles if its terms are sound, and the walk then leaves none of them.
Otherwise the failure is that of the last term that is not sound: the walk gets to it, and
leaves those in front. -/
theorem ofHierarchy_outcome (h : Hierarchy) :
    ((∃ r, ofHierarchy h = .ok r) ↔ ∀ t ∈ h, t.IsSound) ∧
      (∀ r, ofHierarchy h = .ok r ↔ consume h = ⟨.ok r, []⟩) ∧
      (∀ r, ofHierarchy h = .ok r ↔ ∃ ls, Reaches h [] ls ∧ link ls = r) ∧
      ∀ f front, ofHierarchy h = .error ⟨f, front⟩ ↔
        ∃ t behind, h = front ++ t :: behind ∧ (∀ u ∈ behind, u.IsSound) ∧ t.FailsWith f ∧
          ∃ ls, Reaches h (front ++ [t]) ls := by
  have hok (r : Record Number) : ofHierarchy h = .ok r ↔ ∃ ls, levels h = .ok ls ∧ link ls = r :=
    ofHierarchy_eq_ok_iff
  refine ⟨?_, fun r => ofHierarchy_eq_ok_iff_consume, fun r => ?_, fun f front => ?_⟩
  · rw [← levels_isOk_iff]
    simp only [hok, exists_comm, exists_and_left, exists_eq', and_true]
  · simp only [hok, reaches_iff, List.nil_append, exists_eq_left']
  · rw [ofHierarchy_eq_error_iff, levels_eq_error_iff]
    refine exists_congr fun t => exists_congr fun behind => and_congr_right fun hh =>
      and_congr_right fun hsound => (and_iff_left ?_).symm
    obtain ⟨ls, hls⟩ := Term.levels_isOk_of_isSound hsound
    exact ⟨ls, reaches_iff.mpr ⟨behind, by simp [hh], hls⟩⟩

-- Both terms are at fault; the more general one is met first.
example :
    ofHierarchy [⟨"b", "b", "geometry", none, {}, [], [], none, none⟩,
      ⟨"a", "a", "object", none, {}, [], [],
        some [⟨"n", "n", "numeric", none, {}, [], [], none, none⟩], none⟩] =
      .error ⟨.keyNotText "a" (some .numeric),
        [⟨"b", "b", "geometry", none, {}, [], [], none, none⟩]⟩ :=
  rfl

end Record

end TermRules
