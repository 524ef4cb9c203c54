import Mathlib.Data.List.Induction
import TermRules.Value.Basic

/-!
Entries that are put together one by one. An equal key takes the place of an entry that is there, so
that all of them stay exactly if no key comes twice. Keys are compared as the mapping compares them;
nothing here needs that comparison to be an equivalence.
-/

namespace TermRules.Entries

variable {es ps : Entries} {k : Scalar} {v : Value}

/-- No key equals one in front of it. -/
def Distinct (es : Entries) : Prop :=
  es.Pairwise fun earlier later => earlier.1.same later.1 = false

private theorem distinct_concat {e : Scalar × Value} :
    Distinct (es ++ [e]) ↔ Distinct es ∧ ∀ f ∈ es, f.1.same e.1 = false := by
  simp [Distinct, List.pairwise_append]

theorem distinct_iff_keys :
    Distinct es ↔ (es.map (·.1)).Pairwise fun j k => j.same k = false := by
  rw [Distinct, List.pairwise_map]

private theorem insert_of_new (h : ∀ e ∈ es, e.1.same k = false) :
    es.insert k v = es ++ [(k, v)] := by
  induction es with
  | nil => rfl
  | cons e es ih =>
      obtain ⟨he, hes⟩ := List.forall_mem_cons.mp h
      rw [insert, if_neg (by simp [he]), ih hes, List.cons_append]

private theorem keys_insert_of_present (h : ∃ e ∈ es, e.1.same k = true) :
    (es.insert k v).map (·.1) = es.map (·.1) := by
  induction es with
  | nil => simp at h
  | cons e es ih =>
      rw [insert]
      split
      · rfl
      · rename_i he
        obtain ⟨f, hf, hsame⟩ := h
        rcases List.mem_cons.mp hf with rfl | hf
        · exact absurd hsame he
        · rw [List.map_cons, ih ⟨f, hf, hsame⟩, List.map_cons]

private theorem new_or_present (es : Entries) (k : Scalar) :
    (∀ e ∈ es, e.1.same k = false) ∨ ∃ e ∈ es, e.1.same k = true := by
  by_cases h : ∃ e ∈ es, e.1.same k = true
  · exact .inr h
  · push Not at h
    exact .inl fun e he => by simpa using h e he

private theorem Distinct.insert (h : Distinct es) : Distinct (es.insert k v) := by
  rcases new_or_present es k with hnew | hpresent
  · rw [insert_of_new hnew]
    exact distinct_concat.mpr ⟨h, hnew⟩
  · rw [distinct_iff_keys, keys_insert_of_present hpresent, ← distinct_iff_keys]
    exact h

private theorem mem_insert {e : Scalar × Value} (h : e ∈ es.insert k v) :
    (e.1 = k ∨ ∃ f ∈ es, f.1 = e.1) ∧ (e.2 = v ∨ ∃ f ∈ es, f.2 = e.2) := by
  induction es with
  | nil =>
      rw [insert, List.mem_singleton] at h
      subst h
      exact ⟨.inl rfl, .inl rfl⟩
  | cons f es ih =>
      rw [insert] at h
      split at h
      · rcases List.mem_cons.mp h with rfl | h
        · exact ⟨.inr ⟨f, by simp, rfl⟩, .inl rfl⟩
        · exact ⟨.inr ⟨e, by simp [h], rfl⟩, .inr ⟨e, by simp [h], rfl⟩⟩
      · rcases List.mem_cons.mp h with h | h
        · exact ⟨.inr ⟨f, by simp, by rw [h]⟩, .inr ⟨f, by simp, by rw [h]⟩⟩
        · obtain ⟨hkey, hvalue⟩ := ih h
          exact ⟨hkey.imp_right fun ⟨g, hg, hge⟩ => ⟨g, List.mem_cons_of_mem f hg, hge⟩,
            hvalue.imp_right fun ⟨g, hg, hge⟩ => ⟨g, List.mem_cons_of_mem f hg, hge⟩⟩

private theorem length_insert_of_present (h : ∃ e ∈ es, e.1.same k = true) :
    (es.insert k v).length = es.length := by
  have hkeys := congrArg List.length (keys_insert_of_present (v := v) h)
  simpa using hkeys

private theorem ofList_concat (ps : Entries) (p : Scalar × Value) :
    ofList (ps ++ [p]) = (ofList ps).insert p.1 p.2 := by
  simp [ofList]

theorem distinct_ofList (ps : Entries) : Distinct (ofList ps) := by
  induction ps using List.reverseRecOn with
  | nil => exact List.Pairwise.nil
  | append_singleton ps p ih =>
      rw [ofList_concat]
      exact ih.insert

/-- Keys and values of what is put together come from the pairs, though not always together. -/
theorem mem_ofList {e : Scalar × Value} (h : e ∈ ofList ps) :
    (∃ p ∈ ps, p.1 = e.1) ∧ ∃ p ∈ ps, p.2 = e.2 := by
  induction ps using List.reverseRecOn generalizing e with
  | nil => simp [ofList] at h
  | append_singleton ps p ih =>
      rw [ofList_concat] at h
      obtain ⟨hkey, hvalue⟩ := mem_insert h
      constructor
      · rcases hkey with hkey | ⟨f, hf, hkey⟩
        · exact ⟨p, by simp, hkey.symm⟩
        · obtain ⟨q, hq, hqf⟩ := (ih hf).1
          exact ⟨q, by simp [hq], hqf.trans hkey⟩
      · rcases hvalue with hvalue | ⟨f, hf, hvalue⟩
        · exact ⟨p, by simp, hvalue.symm⟩
        · obtain ⟨q, hq, hqf⟩ := (ih hf).2
          exact ⟨q, by simp [hq], hqf.trans hvalue⟩

theorem ofList_eq_self (h : Distinct ps) : ofList ps = ps := by
  induction ps using List.reverseRecOn with
  | nil => rfl
  | append_singleton ps p ih =>
      obtain ⟨hps, hnew⟩ := distinct_concat.mp h
      rw [ofList_concat, ih hps, insert_of_new hnew]

private theorem length_ofList_le (ps : Entries) : (ofList ps).length ≤ ps.length := by
  induction ps using List.reverseRecOn with
  | nil => simp [ofList]
  | append_singleton ps p ih =>
      rw [ofList_concat, List.length_append, List.length_singleton]
      rcases new_or_present (ofList ps) p.1 with hnew | hpresent
      · rw [insert_of_new hnew, List.length_append, List.length_singleton]
        omega
      · rw [length_insert_of_present hpresent]
        omega

/-- All entries stay exactly if no key comes twice. -/
theorem length_ofList_eq_iff : (ofList ps).length = ps.length ↔ Distinct ps := by
  constructor
  · intro h
    induction ps using List.reverseRecOn with
    | nil => exact List.Pairwise.nil
    | append_singleton ps p ih =>
        have hle := length_ofList_le ps
        rw [ofList_concat, List.length_append, List.length_singleton] at h
        rcases new_or_present (ofList ps) p.1 with hnew | hpresent
        · rw [insert_of_new hnew, List.length_append, List.length_singleton] at h
          have hps := ih (by omega)
          rw [ofList_eq_self hps] at hnew
          exact distinct_concat.mpr ⟨hps, hnew⟩
        · rw [length_insert_of_present hpresent] at h
          omega
  · intro h
    rw [ofList_eq_self h]

end TermRules.Entries
